import RioIocpServer.IocpSend
import Mathlib.Data.List.Perm.Subperm

/-!
# Lost packets of the IOCP send path

A `WSASend` that fails at once makes `RegisterSend` clear the batch and the flag
and leave. The session stays connected, the batch is gone, and packets queued
meanwhile wait for a `Send` that may never come. While every failure finds the
session already disconnected, a connected session loses nothing and whatever is
queued has a thread or a completion bound to drain it.
-/

namespace RioIocpServer.IocpSend

open TransitionSystem

variable {T P : Type*}

/-- A thread bound to drain the queue: past the flag and before the outcome of
its `WSASend`, or handling a completion. -/
def Pc.Draining : Pc P → Prop
  | .register => True
  | .drain => True
  | .wsaSend _ => True
  | .processSend _ => True
  | .testBytes _ => True
  | .checkQueue => True
  | _ => False

/-- Every packet queued is still queued, is in the batch of a `RegisterSend`, or
was handed to a `WSASend` that was accepted. -/
def KeepsPackets (s : State T P) : Prop :=
  ∃ batch, (batch = [] ∨ ∃ t, s.threads t = .wsaSend batch) ∧
    s.pushed.Subperm (s.sent.flatten ++ batch ++ s.sendBufferQueue)

/-- A nonempty queue has the flag set and somebody bound to drain it. -/
def Wakes (s : State T P) : Prop :=
  s.sendBufferQueue ≠ [] → s.sendRegistered = true ∧
    ((∃ t, (s.threads t).Draining) ∨ 0 < s.outstanding)

/-- What a connected session keeps as long as no connected `WSASend` fails. -/
structure Kept [Fintype T] (s : State T P) : Prop where
  /-- The invariant of the send path. -/
  inv : Inv s
  /-- The flag is always owned. -/
  tokens_eq : s.connected = true → ∑ t, (s.threads t).owner + s.outstanding = s.sendRegistered.toNat
  /-- Without the flag nothing is queued. -/
  queue_eq : s.connected = true → s.sendRegistered = false → s.sendBufferQueue = []
  /-- Nobody handles a failure. -/
  not_failing : s.connected = true → ∀ t, s.threads t ≠ .failed ∧ s.threads t ≠ .cleared
  /-- Every `WSASend` was accepted. -/
  sent_eq : s.connected = true → s.sent = s.issued

/-- A `WSASend` fails at once only when the session is no longer connected. -/
def FailsDisconnected (s : State T P) (a : T × Action P) : Prop :=
  a.2 = .wsaSend false → s.connected = false

section Keeping

variable [DecidableEq T] [Fintype T] {s s' : State T P} {t : T}

omit [Fintype T] in
/-- No step connects a session. -/
theorem connected_of_moves {a : Action P} (h : Moves s t a s') (hc : s'.connected = true) :
    s.connected = true := by
  cases h with
  | zeroBytes ht => cases hc
  | disconnected => cases hc
  | _ => exact hc

omit [Fintype T] in
/-- A position is not that of a failure when the new one and the old ones are
not. -/
theorem not_failing_goto {pc : Pc P} (h : ∀ u, s.threads u ≠ .failed ∧ s.threads u ≠ .cleared)
    (hpc : pc ≠ .failed ∧ pc ≠ .cleared) (u : T) :
    (s.goto t pc).threads u ≠ .failed ∧ (s.goto t pc).threads u ≠ .cleared := by
  by_cases hu : u = t
  · subst hu
    rw [goto_self]
    exact hpc
  · rw [goto_of_ne s pc hu]
    exact h u

/-- A step keeps the queue empty while nobody has the flag. -/
theorem queue_step (kept : Kept s) {a : Action P} (h : Moves s t a s') (hc : s.connected = true)
    (hf : s'.sendRegistered = false) : s'.sendBufferQueue = [] := by
  have hqueue := kept.queue_eq hc
  cases h with
  | queued packet ht hreg => cases hf
  | registered packet ht hreg => cases hf
  | drained ht => rfl
  | stored ht => exact ((kept.not_failing hc t).2 ht).elim
  | emptied ht hq => exact hq
  | _ => exact hqueue hf

/-- A step that meets the condition makes nobody handle a failure. -/
theorem not_failing_step (kept : Kept s) {a : Action P} (hok : FailsDisconnected s (t, a))
    (h : Moves s t a s') (hc : s.connected = true) (u : T) :
    s'.threads u ≠ .failed ∧ s'.threads u ≠ .cleared := by
  have hold := kept.not_failing hc
  cases h with
  | ignored packet ht => exact hold u
  | failed wsaBuf ht =>
    rw [hok rfl] at hc
    cases hc
  | cleared ht => exact ((hold t).1 ht).elim
  | disconnected => exact hold u
  | _ => exact not_failing_goto hold (by simp) u

/-- A step that meets the condition is accepted if it is a `WSASend`. -/
theorem sent_step (kept : Kept s) {a : Action P} (hok : FailsDisconnected s (t, a))
    (h : Moves s t a s') (hc : s.connected = true) : s'.sent = s'.issued := by
  have hsent := kept.sent_eq hc
  cases h with
  | accepted wsaBuf ht =>
    show s.sent ++ [wsaBuf] = s.issued ++ [wsaBuf]
    rw [hsent]
  | failed wsaBuf ht =>
    rw [hok rfl] at hc
    cases hc
  | _ => exact hsent

/-- A step that meets the condition keeps what a connected session keeps. -/
theorem kept_step (kept : Kept s) {a : T × Action P} (hok : FailsDisconnected s a)
    (h : step s a = some s') : Kept s' := by
  obtain ⟨t, a⟩ := a
  have hm := step_moves h
  refine ⟨inv_step kept.inv h, fun hc => ?_, fun hc => ?_, fun hc => ?_, fun hc => ?_⟩
  · have htokens := kept.tokens_eq (connected_of_moves hm hc)
    have hmove := (tokens_conserved kept.inv hm).2 hc
    omega
  · exact queue_step kept hm (connected_of_moves hm hc)
  · exact not_failing_step kept hok hm (connected_of_moves hm hc)
  · exact sent_step kept hok hm (connected_of_moves hm hc)

omit [DecidableEq T] in
/-- The initial state keeps everything. -/
theorem kept_init : Kept (init : State T P) where
  inv := inv_init
  tokens_eq _ := by simp [init, Pc.owner]
  queue_eq _ _ := rfl
  not_failing _ _ := ⟨by simp [init], by simp [init]⟩
  sent_eq _ := rfl

omit [DecidableEq T] [Fintype T] in
/-- An owner that handles no failure is bound to drain the queue. -/
theorem draining_of_owner (hown : 0 < (s.threads t).owner)
    (h : s.threads t ≠ .failed ∧ s.threads t ≠ .cleared) : (s.threads t).Draining := by
  cases hpc : s.threads t with
  | idle =>
    rw [hpc] at hown
    exact absurd hown (lt_irrefl 0)
  | send packet =>
    rw [hpc] at hown
    exact absurd hown (lt_irrefl 0)
  | failed => exact (h.1 hpc).elim
  | cleared => exact (h.2 hpc).elim
  | _ => trivial

end Keeping

/-- While no `WSASend` of a connected session fails at once, a connected session
keeps every packet, and whatever is queued has somebody bound to drain it. -/
theorem send_loses_nothing [DecidableEq T] [Fintype T] {s : State T P}
    (h : ReachableVia step FailsDisconnected (init : State T P) s) (hc : s.connected = true) :
    KeepsPackets s ∧ Wakes s := by
  have kept : Kept s := h.invariant kept_init fun _ _ _ kept hok hs => kept_step kept hok hs
  constructor
  · obtain ⟨batch, holds, horder⟩ := kept.inv.inOrder
    refine ⟨batch, holds.eq_nil_or, ?_⟩
    rw [kept.sent_eq hc, horder]
  · intro hq
    have hf : s.sendRegistered = true := by
      by_contra hf
      exact hq (kept.queue_eq hc (by simpa using hf))
    refine ⟨hf, ?_⟩
    have htokens := kept.tokens_eq hc
    rw [hf, Bool.toNat_true] at htokens
    by_cases ho : 0 < s.outstanding
    · exact .inr ho
    · obtain ⟨t, ht⟩ := ThreadSum.exists_pos_of_sum_pos (f := Pc.owner) (g := s.threads) (by omega)
      exact .inl ⟨t, draining_of_owner ht (kept.not_failing hc t)⟩

/-- Both packets of the two senders are queued and sent without a failure. -/
theorem send_loses_nothing_two : ∃ s, run step (init : State Bool ℕ) twoSends = some s ∧
    KeepsPackets s ∧ Wakes s := by
  have h : (run step (init : State Bool ℕ) twoSends).isSome = true := by decide
  have hc : (run step (init : State Bool ℕ) twoSends).map State.connected = some true := by decide
  obtain ⟨s, hs⟩ := Option.isSome_iff_exists.mp h
  rw [hs] at hc
  refine ⟨s, hs, send_loses_nothing ⟨twoSends, hs, stepsMeet_of_forall ?_⟩ (Option.some.inj hc)⟩
  intro a ha s' hfail
  simp only [twoSends, List.mem_cons, List.not_mem_nil, or_false] at ha
  rcases ha with rfl | rfl | rfl | rfl | rfl | rfl | rfl | rfl | rfl | rfl | rfl | rfl | rfl |
    rfl <;> cases hfail

section Failure

variable [DecidableEq T] {s s' m : State T P} {t : T}

/-- The accepted batches are among the issued ones. -/
theorem sent_sublist (h : Reachable step (init : State T P) s) : s.sent.Sublist s.issued := by
  have hstep : ∀ (n : State T P) (a : T × Action P) (n' : State T P),
      n.sent.Sublist n.issued → step n a = some n' → n'.sent.Sublist n'.issued := by
    rintro n ⟨t, a⟩ n' hsub hs
    cases step_moves hs with
    | accepted wsaBuf ht => exact hsub.append (List.Sublist.refl _)
    | failed wsaBuf ht => exact hsub.trans (List.sublist_append_left _ _)
    | _ => exact hsub
  exact @Reachable.invariant _ _ step s (fun n => n.sent.Sublist n.issued) init
    (List.Sublist.refl _) hstep h

/-- A failed `WSASend` was issued and not accepted. -/
theorem failed_effect (h : step s (t, .wsaSend false) = some m) :
    ∃ wsaBuf, s.threads t = .wsaSend wsaBuf ∧ m.issued = s.issued ++ [wsaBuf] ∧
      m.sent = s.sent := by
  cases step_moves h with
  | failed wsaBuf ht => exact ⟨wsaBuf, ht, rfl, rfl⟩

/-- Clearing the batch changes no history. -/
theorem clear_effect (h : step m (t, .clear) = some s') :
    s'.threads t = .cleared ∧ s'.issued = m.issued ∧ s'.sent = m.sent := by
  cases step_moves h with
  | cleared ht => exact ⟨goto_self m t .cleared, rfl, rfl⟩

/-- The step after a failed `WSASend` has lost its batch, whatever else was
queued or sent. -/
theorem failed_send_loses [Fintype T] (h : Reachable step (init : State T P) s)
    (hfail : step s (t, .wsaSend false) = some m) (hclear : step m (t, .clear) = some s') :
    ¬ KeepsPackets s' := by
  have inv' : Inv s' := inv_reachable ((h.next hfail).next hclear)
  have hlen := (sent_sublist h).flatten.length_le
  have hsound := (inv_reachable h).sound t
  obtain ⟨wsaBuf, ht, hissued, hsent⟩ := failed_effect hfail
  obtain ⟨ht', hissued', hsent'⟩ := clear_effect hclear
  rw [ht] at hsound
  have hpos : 0 < wsaBuf.length := List.length_pos_of_ne_nil hsound
  have hnone : ∀ u batch, s'.threads u ≠ .wsaSend batch := by
    intro u batch hu
    have hut : u = t := inv'.owner_unique (by rw [hu]; rfl) (by rw [ht']; rfl)
    rw [hut, ht'] at hu
    cases hu
  rintro ⟨batch, hbatch, hsub⟩
  have hnil : batch = [] := hbatch.resolve_right fun ⟨u, hu⟩ => hnone u batch hu
  obtain ⟨batch', -, horder⟩ := inv'.inOrder
  have hle := hsub.length_le
  rw [← horder, hissued', hissued, hsent', hsent, hnil] at hle
  simp only [List.length_append, List.flatten_append, List.flatten_singleton,
    List.length_nil] at hle
  omega

end Failure

/-- The first `WSASend` fails while a second packet is queued. -/
def failedSend : List (Bool × Action ℕ) :=
  [(true, .sendCheck 1), (true, .enqueue), (true, .registerCheck), (true, .drain),
    (false, .sendCheck 2), (false, .enqueue), (true, .wsaSend false), (true, .clear),
    (true, .storeFalse)]

/-- A failed `WSASend` of a connected session loses its packet, and the packet
queued meanwhile is left with no flag and nobody bound to drain it. -/
theorem failedSend_loses : ∃ s, run step (init : State Bool ℕ) failedSend = some s ∧
    s.connected = true ∧ ¬ KeepsPackets s ∧ ¬ Wakes s := by
  have hsome : (run step (init : State Bool ℕ) failedSend).isSome = true := by decide
  have hflags : (run step (init : State Bool ℕ) failedSend).map (fun s => (s.connected,
      s.sendRegistered, s.threads true, s.threads false)) =
      some (true, false, .idle, .idle) := by decide
  have hlists : (run step (init : State Bool ℕ) failedSend).map (fun s =>
      (s.sendBufferQueue, s.pushed, s.sent)) = some ([2], [1, 2], []) := by decide
  obtain ⟨s, hs⟩ := Option.isSome_iff_exists.mp hsome
  rw [hs] at hflags hlists
  simp only [Option.map_some, Option.some.injEq, Prod.mk.injEq] at hflags hlists
  obtain ⟨hc, hf, ht, ht'⟩ := hflags
  obtain ⟨hq, hp, hsent⟩ := hlists
  refine ⟨s, hs, hc, ?_, ?_⟩
  · rintro ⟨batch, hbatch, hsub⟩
    have hnil : batch = [] := by
      refine hbatch.resolve_right ?_
      rintro ⟨t, hu⟩
      cases t
      · rw [ht'] at hu
        cases hu
      · rw [ht] at hu
        cases hu
    have hle := hsub.length_le
    rw [hp, hsent, hnil, hq] at hle
    exact absurd hle (by decide)
  · intro hwakes
    have hflag := (hwakes (by rw [hq]; decide)).1
    rw [hf] at hflag
    cases hflag

end RioIocpServer.IocpSend
