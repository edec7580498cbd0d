import Mathlib.Logic.Relation
import Mathlib.Data.List.Infix

/-!
# A reliable channel in order

What two ends of a connection expect of it: a value sent is delivered after all
the values sent before it, and nothing else is delivered. A channel between two
states can be passed through exactly if both of its ends have grown, so a system
whose ends only grow, and whose receiving end is always an initial part of the
sending one, implements a channel, in whatever pieces it moves the values.
-/

namespace RioIocpServer.FifoChannel

open Relation

variable {α σ β : Type*}

/-- The two ends of a channel. -/
@[ext] structure Channel (α : Type*) where
  /-- The values sent. -/
  sent : List α
  /-- The values delivered. -/
  delivered : List α
  /-- The values delivered are the first values sent. -/
  inOrder : delivered <+: sent

/-- One value is sent, or the next one is delivered. -/
inductive Step : Channel α → Channel α → Prop
  | send (c : Channel α) (x : α) :
      Step c ⟨c.sent ++ [x], c.delivered, c.inOrder.trans (List.prefix_append _ _)⟩
  | deliver (c : Channel α) (x : α) (h : c.delivered ++ [x] <+: c.sent) :
      Step c ⟨c.sent, c.delivered ++ [x], h⟩

/-- A step makes both ends longer or leaves them. -/
theorem Step.grows {c c' : Channel α} (h : Step c c') :
    c.sent <+: c'.sent ∧ c.delivered <+: c'.delivered := by
  cases h with
  | send x => exact ⟨List.prefix_append _ _, List.prefix_rfl⟩
  | deliver x h => exact ⟨List.prefix_rfl, List.prefix_append _ _⟩

/-- Any values can be sent one after the other. -/
theorem steps_send (c : Channel α) (xs : List α) : ReflTransGen Step c
    ⟨c.sent ++ xs, c.delivered, c.inOrder.trans (List.prefix_append _ _)⟩ := by
  induction xs using List.reverseRecOn with
  | nil => simpa using ReflTransGen.refl
  | append_singleton xs x ih =>
    have hlast := Step.send ⟨c.sent ++ xs, c.delivered, c.inOrder.trans (List.prefix_append _ _)⟩ x
    simpa using ih.tail hlast

/-- The next values sent can be delivered one after the other. -/
theorem steps_deliver (c : Channel α) (xs : List α) (h : c.delivered ++ xs <+: c.sent) :
    ReflTransGen Step c ⟨c.sent, c.delivered ++ xs, h⟩ := by
  induction xs using List.reverseRecOn with
  | nil => simpa using ReflTransGen.refl
  | append_singleton xs x ih =>
    rw [← List.append_assoc] at h
    have hbefore : c.delivered ++ xs <+: c.sent := (List.prefix_append _ _).trans h
    have hlast := Step.deliver ⟨c.sent, c.delivered ++ xs, hbefore⟩ x h
    simpa using (ih hbefore).tail hlast

/-- A channel can be brought from one state to another exactly if both ends have
grown. -/
theorem steps_iff {c c' : Channel α} :
    ReflTransGen Step c c' ↔ c.sent <+: c'.sent ∧ c.delivered <+: c'.delivered := by
  constructor
  · intro h
    induction h with
    | refl => exact ⟨List.prefix_rfl, List.prefix_rfl⟩
    | tail _ hlast ih => exact ⟨ih.1.trans hlast.grows.1, ih.2.trans hlast.grows.2⟩
  · rintro ⟨⟨more, hsent⟩, ⟨got, hdelivered⟩⟩
    have hinOrder := c'.inOrder
    rw [← hdelivered, ← hsent] at hinOrder
    have h := (steps_send c more).trans (steps_deliver _ got hinOrder)
    have hend : (⟨c.sent ++ more, c.delivered ++ got, hinOrder⟩ : Channel α) = c' :=
      Channel.ext hsent hdelivered
    rwa [hend] at h

/-- One of two channels moves. -/
inductive PairStep : Channel α × Channel β → Channel α × Channel β → Prop
  | left {c c' : Channel α} (d : Channel β) (h : Step c c') : PairStep (c, d) (c', d)
  | right (c : Channel α) {d d' : Channel β} (h : Step d d') : PairStep (c, d) (c, d')

/-- Two channels move independently. -/
theorem steps_pair {c c' : Channel α} {d d' : Channel β} (hc : ReflTransGen Step c c')
    (hd : ReflTransGen Step d d') : ReflTransGen PairStep (c, d) (c', d') := by
  have hleft : ReflTransGen PairStep (c, d) (c', d) :=
    hc.lift (fun m => (m, d)) fun _ _ h => .left d h
  have hright : ReflTransGen PairStep (c', d) (c', d') :=
    hd.lift (fun m => (c', m)) fun _ _ h => .right c' h
  exact hleft.trans hright

/-- The channel of what the values mean; values that mean nothing do not count. -/
def Channel.filterMap (f : α → Option β) (c : Channel α) : Channel β :=
  ⟨c.sent.filterMap f, c.delivered.filterMap f, c.inOrder.filterMap f⟩

/-- A system seen as a channel: where its invariant holds, what it has delivered
comes first in what it has sent, and its steps take nothing back. -/
structure Implements (step : σ → β → Option σ) (inv : σ → Prop) (ok : σ → β → Prop)
    (sent delivered : σ → List α) : Prop where
  /-- The invariant is kept. -/
  kept : ∀ s a s', inv s → ok s a → step s a = some s' → inv s'
  /-- The values delivered are the first values sent. -/
  inOrder : ∀ s, inv s → delivered s <+: sent s
  /-- What was sent stays sent. -/
  sent_grows : ∀ s a s', inv s → ok s a → step s a = some s' → sent s <+: sent s'
  /-- What was delivered stays delivered. -/
  delivered_grows : ∀ s a s', inv s → ok s a → step s a = some s' →
    delivered s <+: delivered s'

/-- The channel a state stands for. -/
def Implements.channel {step : σ → β → Option σ} {inv : σ → Prop} {ok : σ → β → Prop}
    {sent delivered : σ → List α} (h : Implements step inv ok sent delivered) (s : σ) (hs : inv s) :
    Channel α := ⟨sent s, delivered s, h.inOrder s hs⟩

/-- A step of the system is a sequence of steps of the channel. -/
theorem Implements.step_refines {step : σ → β → Option σ} {inv : σ → Prop} {ok : σ → β → Prop}
    {sent delivered : σ → List α} (h : Implements step inv ok sent delivered) {s s' : σ} {a : β}
    (hs : inv s) (hok : ok s a) (hstep : step s a = some s') :
    ∃ hs' : inv s', ReflTransGen Step (h.channel s hs) (h.channel s' hs') :=
  ⟨h.kept s a s' hs hok hstep, steps_iff.mpr
    ⟨h.sent_grows s a s' hs hok hstep, h.delivered_grows s a s' hs hok hstep⟩⟩

end RioIocpServer.FifoChannel
