import Mathlib.Data.Int.Notation
import Mathlib.Logic.Function.Basic
import RioIocpServer.TransitionSystem

/-!
# Re-arming an accept

`IocpListener::RegisterAccept` creates a session, gives it to its event and calls
`AcceptEx`; if that fails at once, it calls itself. `StartAccept` calls it for every new
event, `ProcessAccept` for an event whose accept has completed, by any of the threads. The
listening socket is listening in the beginning and may be closed at any time. What
`CreateSession`, `AcceptEx` and the system answer is part of the actions. Of
`ProcessConnect` nothing is kept here.
-/

namespace RioIocpServer.AcceptRearm

open TransitionSystem

/-- `AcceptEvent`. A session is its number. -/
structure AcceptEvent where
  /-- `m_session`. -/
  session : Option ℕ
  /-- The sessions of the accepts posted with the event and not dequeued. -/
  outstanding : List ℕ

/-- What a thread does next for an event. -/
inductive Pc (E : Type*) where
  /-- Nothing: it is outside of `RegisterAccept` and `ProcessAccept`. -/
  | outside
  /-- `RegisterAccept`: `CreateSession`. -/
  | createSession (e : E)
  /-- `AcceptEx` for the session that was created. -/
  | acceptEx (e : E) (session : Option ℕ)
  /-- `ProcessAccept`. -/
  | processAccept (e : E)
  /-- A null session is used: the thread does not get past this. -/
  | nullSession (e : E)
  deriving DecidableEq

/-- The event a thread works for. -/
def Pc.event {E : Type*} : Pc E → Option E
  | .outside => none
  | .createSession e | .acceptEx e _ | .processAccept e | .nullSession e => some e

/-- What `AcceptEx` returns. -/
inductive AcceptExResult where
  /-- `TRUE`. -/
  | success
  /-- `FALSE`, and what `WSAGetLastError` returns. -/
  | failed (lastError : ℤ)

/-- `WSA_IO_PENDING`. -/
def wsaIoPending : ℤ := 997

/-- `WSAENOTSOCK`. -/
def wsaENotSock : ℤ := 10038

/-- The results behind which `RegisterAccept` does not call itself. The completion of the
accept will be queued. -/
def AcceptExResult.accepted : AcceptExResult → Bool
  | .success => true
  | .failed lastError => lastError = wsaIoPending

/-- The listener, its events and the threads. -/
structure State (T E : Type*) where
  /-- `m_listener` is a socket. -/
  listener : Bool
  /-- How many sessions `m_sessionFactory` has created. -/
  createdCnt : ℕ
  /-- `m_acceptEvents`. -/
  acceptEvents : List E
  /-- The events. -/
  event : E → AcceptEvent
  /-- The threads. -/
  pc : T → Pc E
  /-- History: texts given to `HandleError`. -/
  errors : List String

/-- The steps. -/
inductive Action (T E : Type*) where
  /-- `CloseSocket`, called by `Stop` and by the destructor. -/
  | closeSocket
  /-- `StartAccept` creates an event and calls `RegisterAccept`. -/
  | startAccept (t : T) (e : E)
  /-- `CreateSession`; whether the session could be registered with the port. -/
  | createSession (t : T) (registered : Bool)
  /-- `AcceptEx` and the test of its result. -/
  | acceptEx (t : T) (result : AcceptExResult)
  /-- A completion is dequeued, of an accept that succeeded or failed. -/
  | dequeue (t : T) (e : E)
  /-- `ProcessAccept` up to `RegisterAccept`; the result of `SetUpdateAcceptSocket`. -/
  | processAccept (t : T) (updated : Bool)

/-- The thread that performs a step. The socket is closed from outside. -/
def Action.actor {T E : Type*} : Action T E → Option T
  | .closeSocket => none
  | .startAccept t _ | .createSession t _ | .acceptEx t _ | .dequeue t _
  | .processAccept t _ => some t

section System

variable {T E : Type*} [DecidableEq T] [DecidableEq E]

/-- A listener that has begun to listen. -/
def init : State T E where
  listener := true
  createdCnt := 0
  acceptEvents := []
  event _ := ⟨none, []⟩
  pc _ := .outside
  errors := []

omit [DecidableEq T] [DecidableEq E] in
/-- `HandleError`. -/
def State.handleError (s : State T E) (text : String) : State T E :=
  { s with errors := s.errors ++ [text] }

/-- A thread goes on, and an event has changed. -/
def State.put (s : State T E) (t : T) (pc : Pc E) (e : E) (event : AcceptEvent) : State T E :=
  { s with pc := Function.update s.pc t pc, event := Function.update s.event e event }

/-- A thread goes on. -/
def State.goto (s : State T E) (t : T) (pc : Pc E) : State T E :=
  { s with pc := Function.update s.pc t pc }

@[simp] theorem put_pc (s : State T E) (t : T) (pc : Pc E) (e : E) (event : AcceptEvent) :
    (s.put t pc e event).pc t = pc := Function.update_self ..

omit [DecidableEq E] in
@[simp] theorem goto_pc (s : State T E) (t : T) (pc : Pc E) : (s.goto t pc).pc t = pc :=
  Function.update_self ..

@[simp] theorem put_event (s : State T E) (t : T) (pc : Pc E) (e : E) (event : AcceptEvent) :
    (s.put t pc e event).event e = event := Function.update_self ..

/-- `CreateSession`: the session, or null if it could not be registered. -/
def State.createSession (s : State T E) (registered : Bool) : Option ℕ :=
  if registered then some s.createdCnt else none

/-- `SocketCore::Close` of the listening socket. -/
def State.closeSocket (s : State T E) : State T E :=
  if s.listener then { s with listener := false }
  else s.handleError "IocpListener::CloseSocket"

/-- `AcceptEx`: with `INVALID_SOCKET` it fails. -/
def State.acceptEx (s : State T E) (result : AcceptExResult) : AcceptExResult :=
  if s.listener then result else .failed wsaENotSock

/-- One step. -/
def step (s : State T E) : Action T E → Option (State T E)
  | .closeSocket => some s.closeSocket
  | .startAccept t e =>
    if s.pc t = .outside ∧ e ∉ s.acceptEvents then
      some ({ s with acceptEvents := s.acceptEvents ++ [e] }.put t (.createSession e) e ⟨none, []⟩)
    else none
  | .createSession t registered =>
    match s.pc t with
    | .createSession e =>
      let session := s.createSession registered
      some ({ s with createdCnt := s.createdCnt + 1 }.put t (.acceptEx e session) e
        { s.event e with session := session })
    | _ => none
  | .acceptEx t result =>
    match s.pc t with
    | .acceptEx e (some x) =>
      if (s.acceptEx result).accepted then
        some (s.put t .outside e { s.event e with outstanding := (s.event e).outstanding ++ [x] })
      else some (s.goto t (.createSession e))
    | .acceptEx e none => some (s.goto t (.nullSession e))
    | _ => none
  | .dequeue t e =>
    match (s.event e).outstanding with
    | [] => none
    | _ :: rest =>
      if s.pc t = .outside then
        some (s.put t (.processAccept e) e { s.event e with outstanding := rest })
      else none
  | .processAccept t updated =>
    match s.pc t with
    | .processAccept e =>
      match (s.event e).session with
      | some _ =>
        let s := if updated then s else s.handleError "SetUpdateAcceptSocket"
        some (s.goto t (.createSession e))
      | none => some (s.goto t (.nullSession e))
    | _ => none

/-- What a step does. -/
inductive Moves (s : State T E) : Action T E → State T E → Prop where
  | closed : Moves s .closeSocket s.closeSocket
  | started (t : T) (e : E) (hpc : s.pc t = .outside) (hnew : e ∉ s.acceptEvents) :
      Moves s (.startAccept t e)
        ({ s with acceptEvents := s.acceptEvents ++ [e] }.put t (.createSession e) e ⟨none, []⟩)
  | created (t : T) (e : E) (registered : Bool) (hpc : s.pc t = .createSession e) :
      Moves s (.createSession t registered)
        ({ s with createdCnt := s.createdCnt + 1 }.put t
          (.acceptEx e (s.createSession registered)) e
          { s.event e with session := s.createSession registered })
  | posted (t : T) (e : E) (x : ℕ) (result : AcceptExResult)
      (hpc : s.pc t = .acceptEx e (some x)) (hresult : (s.acceptEx result).accepted = true) :
      Moves s (.acceptEx t result)
        (s.put t .outside e { s.event e with outstanding := (s.event e).outstanding ++ [x] })
  | refused (t : T) (e : E) (x : ℕ) (result : AcceptExResult)
      (hpc : s.pc t = .acceptEx e (some x)) (hresult : ¬ (s.acceptEx result).accepted = true) :
      Moves s (.acceptEx t result) (s.goto t (.createSession e))
  | nullAccepted (t : T) (e : E) (result : AcceptExResult) (hpc : s.pc t = .acceptEx e none) :
      Moves s (.acceptEx t result) (s.goto t (.nullSession e))
  | dequeued (t : T) (e : E) (x : ℕ) (rest : List ℕ) (hpc : s.pc t = .outside)
      (hout : (s.event e).outstanding = x :: rest) :
      Moves s (.dequeue t e)
        (s.put t (.processAccept e) e { s.event e with outstanding := rest })
  | processed (t : T) (e : E) (updated : Bool) (hpc : s.pc t = .processAccept e)
      (hsession : (s.event e).session ≠ none) :
      Moves s (.processAccept t updated)
        ((if updated then s else s.handleError "SetUpdateAcceptSocket").goto t (.createSession e))
  | nullProcessed (t : T) (e : E) (updated : Bool) (hpc : s.pc t = .processAccept e)
      (hsession : (s.event e).session = none) :
      Moves s (.processAccept t updated) (s.goto t (.nullSession e))

/-- Every enabled step is one of the moves. -/
theorem step_moves {s s' : State T E} {a : Action T E} (h : step s a = some s') :
    Moves s a s' := by
  cases a with
  | closeSocket =>
    cases h
    exact .closed
  | startAccept t e =>
    simp only [step] at h
    split at h <;> cases h
    rename_i hguard
    exact .started t e hguard.1 hguard.2
  | createSession t registered =>
    simp only [step] at h
    split at h <;> cases h
    exact .created t _ registered ‹_›
  | acceptEx t result =>
    simp only [step] at h
    split at h
    · split at h <;> cases h
      · exact .posted t _ _ result ‹_› ‹_›
      · exact .refused t _ _ result ‹_› ‹_›
    · cases h
      exact .nullAccepted t _ result ‹_›
    · cases h
  | dequeue t e =>
    simp only [step] at h
    split at h
    · cases h
    · split at h <;> cases h
      exact .dequeued t e _ _ ‹_› ‹_›
  | processAccept t updated =>
    simp only [step] at h
    split at h
    · split at h <;> cases h
      · rename_i hpc _ _ hsession
        exact .processed t _ updated hpc (by simp [hsession])
      · exact .nullProcessed t _ updated ‹_› ‹_›
    · cases h

/-- A turn of `RegisterAccept` by a thread, from its `CreateSession` up to the next one or to the
end: what `CreateSession` and `AcceptEx` answer, and what others do meanwhile. -/
structure Turn (E : Type*) {T : Type*} (t : T) where
  /-- Whether the session of `CreateSession` could be registered. -/
  registered : Bool
  /-- Steps of others before `AcceptEx`, -/
  between : List (Action T E)
  /-- its result, -/
  result : AcceptExResult
  /-- and steps of others behind it. -/
  after : List (Action T E)
  /-- The thread performs none of them. -/
  others : ∀ a ∈ between ++ after, a.actor ≠ some t

/-- `RegisterAccept` up to its end or to its call of itself. Steps of others that are not
enabled are skipped. -/
def attempt {t : T} (s : State T E) (turn : Turn E t) : State T E :=
  follow step s (.createSession t turn.registered :: turn.between ++
    .acceptEx t turn.result :: turn.after)

/-- `RegisterAccept` with fewer calls of itself than a bound. -/
def registerAccept {t : T} : ℕ → (ℕ → Turn E t) → State T E → Option (State T E)
  | 0, _, _ => none
  | calls + 1, turns, s =>
    let s' := attempt s (turns 0)
    match s'.pc t with
    | .createSession _ => registerAccept calls (fun n => turns (n + 1)) s'
    | _ => some s'

end System

section Property

variable {T E : Type*}

/-- `RegisterAccept` has returned, and its event is as it should be. -/
structure Rearmed (t : T) (e : E) (createdCnt : ℕ) (s : State T E) : Prop where
  /-- No null session was used. -/
  returned : s.pc t = .outside
  /-- At most one accept of the event is outstanding. -/
  atMostOne : (s.event e).outstanding.length ≤ 1
  /-- It is bound to the session of the event, -/
  bound : ∀ x ∈ (s.event e).outstanding, (s.event e).session = some x
  /-- which was created since the call began, -/
  fresh : ∀ x ∈ (s.event e).outstanding, createdCnt ≤ x
  /-- and no other event has this session. -/
  own : ∀ x ∈ (s.event e).outstanding, ∀ e' ≠ e, (s.event e').session ≠ some x ∧
    x ∉ (s.event e').outstanding

/-- `RegisterAccept` returns after finitely many calls of itself, and its event is as it
should be. -/
def Rearms [DecidableEq T] [DecidableEq E] {t : T} (e : E) (turns : ℕ → Turn E t)
    (s : State T E) : Prop :=
  ∃ calls s', registerAccept calls turns s = some s' ∧ Rearmed t e s.createdCnt s'

/-- An accept is posted in this turn: there is a session, and the socket is still open. -/
structure Turn.Posts {t : T} (turn : Turn E t) (listener : Bool) : Prop where
  registered : turn.registered = true
  listens : listener = true ∧ .closeSocket ∉ turn.between
  accepted : turn.result.accepted = true

/-- In the turn with the number `n` an accept is posted, and up to there every session could
be registered and the socket was not closed. -/
structure PostsAt {t : T} (listener : Bool) (turns : ℕ → Turn E t) (n : ℕ) : Prop where
  posts : (turns n).Posts listener
  registered : ∀ m < n, (turns m).registered = true
  notClosed : ∀ m < n, .closeSocket ∉ (turns m).between ++ (turns m).after

end Property

section Invariant

variable {T E : Type*}

/-- What an event is like while a thread works for it. -/
structure Fits (pc : Pc E) (event : AcceptEvent) : Prop where
  /-- No accept is outstanding. -/
  idle : event.outstanding = []
  /-- The session to be accepted is the one of the event. -/
  session : ∀ e session, pc = .acceptEx e session → event.session = session
  /-- The event of a completion has a session. -/
  completed : ∀ e, pc = .processAccept e → event.session ≠ none

/-- Every event is worked for by one thread at most. -/
structure Worked (s : State T E) : Prop where
  /-- No two threads work for one event. -/
  alone : ∀ t t' e, (s.pc t).event = some e → (s.pc t').event = some e → t = t'
  /-- An event a thread works for was created, and is as it should be. -/
  fits : ∀ t e, (s.pc t).event = some e → e ∈ s.acceptEvents ∧ Fits (s.pc t) (s.event e)

/-- Every event has at most one accept outstanding, and a session of its own. -/
structure Bound (s : State T E) : Prop where
  /-- The accept outstanding, if any, is that of the session of its event. -/
  bound : ∀ e, (s.event e).outstanding = [] ∨
    ∃ x, (s.event e).session = some x ∧ (s.event e).outstanding = [x]
  /-- The sessions were created. -/
  created : ∀ e x, (s.event e).session = some x → x < s.createdCnt
  /-- An event with a session is one of the list. -/
  listed : ∀ e x, (s.event e).session = some x → e ∈ s.acceptEvents
  /-- No other event has the session. -/
  own : ∀ e e' x, (s.event e).session = some x → (s.event e').session = some x → e = e'

/-- What holds in every reachable state. -/
structure Inv (s : State T E) : Prop extends Worked s, Bound s

variable {s s' : State T E} {t : T} {e : E} {pc : Pc E} {event : AcceptEvent}
  {a : Action T E}

theorem inv_init : Inv (init : State T E) where
  alone _ _ _ h _ := nomatch h
  fits _ _ h := nomatch h
  bound _ := .inl rfl
  created _ _ h := nomatch h
  listed _ _ h := nomatch h
  own _ _ _ h _ := nomatch h

/-- A new event in the list, a new session and a text change nothing of this. -/
theorem Inv.mono (h : Inv s) (hpc : s'.pc = s.pc) (hevent : s'.event = s.event)
    (hevents : s.acceptEvents ⊆ s'.acceptEvents) (hcnt : s.createdCnt ≤ s'.createdCnt) :
    Inv s' := by
  refine ⟨⟨?_, fun t e he => ?_⟩, ?_, fun e x hx => ?_, fun e x hx => ?_, ?_⟩
  · rw [hpc]
    exact h.alone
  · rw [hpc] at he ⊢
    rw [hevent]
    exact (h.fits t e he).imp_left fun hmem => hevents hmem
  · rw [hevent]
    exact h.bound
  · rw [hevent] at hx
    exact Nat.lt_of_lt_of_le (h.created e x hx) hcnt
  · rw [hevent] at hx
    exact hevents (h.listed e x hx)
  · rw [hevent]
    exact h.own

/-- The thread that works for an event is the only one. -/
theorem Inv.free (h : Inv s) (he : (s.pc t).event = some e) :
    ∀ t', (s.pc t').event = some e → t' = t := fun t' ht' => h.alone t' t e ht' he

/-- An event of which an accept is outstanding has a session and no thread that works for it. -/
theorem Inv.waiting {x : ℕ} {rest : List ℕ} (h : Inv s)
    (hout : (s.event e).outstanding = x :: rest) :
    rest = [] ∧ (s.event e).session = some x ∧ ∀ t', (s.pc t').event ≠ some e := by
  refine ⟨?_, ?_, fun t' ht' => ?_⟩
  · obtain hnil | ⟨y, -, hy⟩ := h.bound e
    · cases hout.symm.trans hnil
    · cases hout.symm.trans hy
      rfl
  · obtain hnil | ⟨y, hsession, hy⟩ := h.bound e
    · cases hout.symm.trans hnil
    · cases hout.symm.trans hy
      exact hsession
  · cases hout.symm.trans (h.fits t' e ht').2.idle

variable [DecidableEq T] [DecidableEq E]

/-- The only thread that works for an event, if any, goes on for it or leaves it. -/
theorem Worked.put (h : Worked s) (hfree : ∀ t', (s.pc t').event = some e → t' = t)
    (hlisted : e ∈ s.acceptEvents) (hpc : pc = .outside ∨ pc.event = some e ∧ Fits pc event) :
    Worked (s.put t pc e event) := by
  have hself := put_pc s t pc e event
  have hother : ∀ {t'}, t' ≠ t → (s.put t pc e event).pc t' = s.pc t' := fun ht' =>
    Function.update_of_ne ht' ..
  -- The thread works for no other event, and no other thread works for this one.
  have hmine : ∀ e', ((s.put t pc e event).pc t).event = some e' → e' = e ∧ Fits pc event := by
    intro e' he'
    rw [hself] at he'
    obtain rfl | ⟨hpc, hfits⟩ := hpc
    · cases he'
    · exact ⟨Option.some.inj (he'.symm.trans hpc), hfits⟩
  have hnot : ∀ {t'}, t' ≠ t → ∀ e', ((s.put t pc e event).pc t').event = some e' → e' ≠ e := by
    rintro t' ht' e' he' rfl
    rw [hother ht'] at he'
    exact ht' (hfree t' he')
  refine ⟨fun t₁ t₂ e' h₁ h₂ => ?_, fun t' e' he' => ?_⟩
  · by_cases ht₁ : t₁ = t <;> by_cases ht₂ : t₂ = t
    · exact ht₁.trans ht₂.symm
    · subst ht₁
      exact absurd (hmine e' h₁).1 (hnot ht₂ e' h₂)
    · subst ht₂
      exact absurd (hmine e' h₂).1 (hnot ht₁ e' h₁)
    · rw [hother ht₁] at h₁
      rw [hother ht₂] at h₂
      exact h.alone t₁ t₂ e' h₁ h₂
  · by_cases ht' : t' = t
    · subst ht'
      obtain ⟨rfl, hfits⟩ := hmine e' he'
      rw [hself, put_event]
      exact ⟨hlisted, hfits⟩
    · have hkept : (s.put t pc e event).event e' = s.event e' :=
        Function.update_of_ne (hnot ht' e' he') ..
      rw [hkept, hother ht']
      rw [hother ht'] at he'
      exact h.fits t' e' he'

/-- An event changes, with the session it had or with a new one. -/
theorem Bound.put (h : Bound s) (hlisted : e ∈ s.acceptEvents)
    (hbound : event.outstanding = [] ∨ ∃ x, event.session = some x ∧ event.outstanding = [x])
    (hsession : event.session = (s.event e).session ∨ ∀ x, event.session = some x →
      x < s.createdCnt ∧ ∀ e', (s.event e').session ≠ some x) :
    Bound (s.put t pc e event) := by
  have hevent := put_event s t pc e event
  have hkept : ∀ {e'}, e' ≠ e → (s.put t pc e event).event e' = s.event e' := fun he' =>
    Function.update_of_ne he' ..
  -- Every session is an old one of its event, or the new one of this event.
  have hcases : ∀ e' x, ((s.put t pc e event).event e').session = some x →
      (s.event e').session = some x ∨
        e' = e ∧ x < s.createdCnt ∧ ∀ e'', (s.event e'').session ≠ some x := by
    intro e' x hx
    by_cases he' : e' = e
    · subst he'
      rw [hevent] at hx
      obtain hsame | hnew := hsession
      · exact .inl (hsame ▸ hx)
      · exact .inr ⟨rfl, hnew x hx⟩
    · rw [hkept he'] at hx
      exact .inl hx
  refine ⟨fun e' => ?_, fun e' x hx => ?_, fun e' x hx => ?_, fun e₁ e₂ x h₁ h₂ => ?_⟩
  · by_cases he' : e' = e
    · rw [he', hevent]
      exact hbound
    · rw [hkept he']
      exact h.bound e'
  · obtain hold | ⟨-, hlt, -⟩ := hcases e' x hx
    · exact h.created e' x hold
    · exact hlt
  · obtain hold | ⟨rfl, -⟩ := hcases e' x hx
    · exact h.listed e' x hold
    · exact hlisted
  · obtain hold₁ | ⟨rfl, -, hnew₁⟩ := hcases e₁ x h₁ <;>
      obtain hold₂ | ⟨rfl, -, hnew₂⟩ := hcases e₂ x h₂
    · exact h.own e₁ e₂ x hold₁ hold₂
    · exact absurd hold₁ (hnew₂ e₁)
    · exact absurd hold₂ (hnew₁ e₂)
    · rfl

/-- A thread that has no event or this one changes it and goes on, with a session that the
event had or that is new. -/
theorem Inv.put (h : Inv s) (hfree : ∀ t', (s.pc t').event = some e → t' = t)
    (hlisted : e ∈ s.acceptEvents) (hpc : pc = .outside ∨ pc.event = some e ∧ Fits pc event)
    (hbound : event.outstanding = [] ∨ ∃ x, event.session = some x ∧ event.outstanding = [x])
    (hsession : event.session = (s.event e).session ∨ ∀ x, event.session = some x →
      x < s.createdCnt ∧ ∀ e', (s.event e').session ≠ some x) : Inv (s.put t pc e event) where
  toWorked := h.toWorked.put hfree hlisted hpc
  toBound := h.toBound.put hlisted hbound hsession

/-- A thread that works for an event goes on to `CreateSession` or stops at a null session. -/
theorem Inv.goto (h : Inv s) (he : (s.pc t).event = some e)
    (hpc : pc = .createSession e ∨ pc = .nullSession e) : Inv (s.goto t pc) := by
  obtain ⟨hmem, hfits⟩ := h.fits t e he
  have hput : s.goto t pc = s.put t pc e (s.event e) := by
    rw [State.put, Function.update_eq_self]
    rfl
  rw [hput]
  refine h.put (h.free he) hmem (.inr ?_) (h.bound e) (.inl rfl)
  obtain rfl | rfl := hpc <;> exact ⟨rfl, hfits.idle, by simp, by simp⟩

omit [DecidableEq T] [DecidableEq E] in
/-- A thread at a place of `RegisterAccept` or `ProcessAccept` works for its event. -/
theorem Inv.at_event (h : Inv s) (hpc : s.pc t = pc) (he : pc.event = some e) :
    (s.pc t).event = some e ∧ e ∈ s.acceptEvents ∧ Fits pc (s.event e) := by
  subst hpc
  exact ⟨he, h.fits t e he⟩

/-- The invariant is kept by every step. -/
theorem Inv.step (h : Inv s) (hs : step s a = some s') : Inv s' := by
  cases step_moves hs with
  | closed =>
    rw [State.closeSocket]
    split <;> exact h.mono rfl rfl (List.Subset.refl _) (Nat.le_refl _)
  | started t e hpc hnew =>
    have hadded : Inv { s with acceptEvents := s.acceptEvents ++ [e] } :=
      h.mono rfl rfl (List.subset_append_left ..) (Nat.le_refl _)
    exact hadded.put (fun t' ht' => absurd (h.fits t' e ht').1 hnew)
      (List.mem_append_right _ List.mem_cons_self) (.inr ⟨rfl, rfl, by simp, by simp⟩)
      (.inl rfl) (.inr fun x hx => nomatch hx)
  | created t e registered hpc =>
    obtain ⟨he, hmem, hfits⟩ := h.at_event hpc rfl
    have hcounted : Inv { s with createdCnt := s.createdCnt + 1 } :=
      h.mono rfl rfl (List.Subset.refl _) (Nat.le_succ _)
    refine hcounted.put (h.free he) hmem (.inr ⟨rfl, hfits.idle, by simp, by simp⟩)
      (.inl hfits.idle) (.inr fun x hx => ?_)
    -- The number of the session is greater than that of any session of an event.
    cases registered with
    | false => cases hx
    | true =>
      cases hx
      exact ⟨Nat.lt_succ_self _, fun e' he' => Nat.lt_irrefl _ (h.created e' _ he')⟩
  | posted t e x result hpc hresult =>
    obtain ⟨he, hmem, hfits⟩ := h.at_event hpc rfl
    refine h.put (h.free he) hmem (.inl rfl) (.inr ⟨x, hfits.session e _ rfl, ?_⟩) (.inl rfl)
    show (s.event e).outstanding ++ [x] = [x]
    rw [hfits.idle, List.nil_append]
  | refused t e x result hpc hresult => exact h.goto (h.at_event hpc rfl).1 (.inl rfl)
  | nullAccepted t e result hpc => exact h.goto (h.at_event hpc rfl).1 (.inr rfl)
  | dequeued t e x rest hpc hout =>
    obtain ⟨rfl, hsession, hnone⟩ := h.waiting hout
    exact h.put (fun t' ht' => absurd ht' (hnone t')) (h.listed e x hsession)
      (.inr ⟨rfl, rfl, by simp, by simp [hsession]⟩) (.inl rfl) (.inl rfl)
  | processed t e updated hpc hsession =>
    have hlogged : Inv (if updated then s else s.handleError "SetUpdateAcceptSocket") := by
      split
      · exact h
      · exact h.mono rfl rfl (List.Subset.refl _) (Nat.le_refl _)
    refine hlogged.goto ?_ (.inl rfl)
    split <;> exact (h.at_event hpc rfl).1
  | nullProcessed t e updated hpc hsession => exact h.goto (h.at_event hpc rfl).1 (.inr rfl)

/-- The invariant holds in every reachable state. -/
theorem inv_of_reachable (h : Reachable step init s) : Inv s :=
  h.invariant inv_init fun _ _ _ hs h => hs.step h

end Invariant

section Frame

variable {T E : Type*}

/-- What a step changes. -/
structure Frame (s : State T E) (a : Action T E) (s' : State T E) : Prop where
  /-- Where the other threads are stays. -/
  pc : ∀ t, a.actor ≠ some t → s'.pc t = s.pc t
  /-- The socket is closed only by `CloseSocket`, and not opened again. -/
  listener : s'.listener = true ↔ s.listener = true ∧ a ≠ .closeSocket
  createdCnt : s.createdCnt ≤ s'.createdCnt
  /-- A session that an event did not have before is new. -/
  session : ∀ e x, (s'.event e).session = some x →
    (s.event e).session = some x ∨ s.createdCnt ≤ x

variable {s s' : State T E} {t : T} {e : E} {pc : Pc E} {a : Action T E} {as : List (Action T E)}

variable [DecidableEq T] [DecidableEq E]

omit [DecidableEq E] in
/-- A step of a thread. -/
theorem Frame.of_update (hactor : a.actor = some t) (hlistener : s'.listener = s.listener)
    (hpc : s'.pc = Function.update s.pc t pc) (hcnt : s.createdCnt ≤ s'.createdCnt)
    (hsession : ∀ e x, (s'.event e).session = some x →
      (s.event e).session = some x ∨ s.createdCnt ≤ x) : Frame s a s' where
  pc t' ht' := by
    rw [hpc, Function.update_of_ne]
    rintro rfl
    exact ht' hactor
  listener := by
    rw [hlistener]
    refine ⟨fun h => ⟨h, ?_⟩, And.left⟩
    rintro rfl
    cases hactor
  createdCnt := hcnt
  session := hsession

omit [DecidableEq T] in
/-- An event is changed, with the session it had or with a new one. -/
theorem session_update {event : AcceptEvent}
    (hsession : ∀ x, event.session = some x → (s.event e).session = some x ∨ s.createdCnt ≤ x) :
    ∀ e' x, (Function.update s.event e event e').session = some x →
      (s.event e').session = some x ∨ s.createdCnt ≤ x := by
  intro e' x hx
  by_cases he' : e' = e
  · subst he'
    rw [Function.update_self] at hx
    exact hsession x hx
  · rw [Function.update_of_ne he'] at hx
    exact .inl hx

/-- What a step changes. -/
theorem step_frame (hs : step s a = some s') : Frame s a s' := by
  cases step_moves hs with
  | closed =>
    rw [State.closeSocket]
    split
    · exact ⟨fun _ _ => rfl, by simp, Nat.le_refl _, fun _ _ => .inl⟩
    · rename_i hclosed
      exact ⟨fun _ _ => rfl, by simp [State.handleError, hclosed], Nat.le_refl _, fun _ _ => .inl⟩
  | started t e hpc hnew =>
    exact .of_update rfl rfl rfl (Nat.le_refl _) (session_update fun x hx => nomatch hx)
  | created t e registered hpc =>
    refine .of_update rfl rfl rfl (Nat.le_succ _) (session_update (s := s) fun x hx => ?_)
    cases registered with
    | false => cases hx
    | true =>
      cases hx
      exact .inr (Nat.le_refl _)
  | posted t e x result hpc hresult =>
    exact .of_update rfl rfl rfl (Nat.le_refl _) (session_update fun _ => .inl)
  | refused t e x result hpc hresult =>
    exact .of_update rfl rfl rfl (Nat.le_refl _) fun _ _ => .inl
  | nullAccepted t e result hpc =>
    exact .of_update rfl rfl rfl (Nat.le_refl _) fun _ _ => .inl
  | dequeued t e x rest hpc hout =>
    exact .of_update rfl rfl rfl (Nat.le_refl _) (session_update fun _ => .inl)
  | processed t e updated hpc hsession =>
    cases updated <;> exact .of_update rfl rfl rfl (Nat.le_refl _) fun _ _ => .inl
  | nullProcessed t e updated hpc hsession =>
    exact .of_update rfl rfl rfl (Nat.le_refl _) fun _ _ => .inl

/-- A thread stays where it is while others go on. -/
theorem pc_follow (has : ∀ a ∈ as, a.actor ≠ some t) : (follow step s as).pc t = s.pc t := by
  have hkept : ∀ (s₁ : State T E) (a : Action T E) (s₂ : State T E), s₁.pc t = s.pc t →
      a.actor ≠ some t → step s₁ a = some s₂ → s₂.pc t = s.pc t :=
    fun s₁ a s₂ h ha hs => ((step_frame hs).pc t ha).trans h
  exact follow_preserves hkept rfl has

/-- The socket is open behind a schedule if it was open and the schedule does not close it. -/
theorem listener_follow :
    (follow step s as).listener = true ↔ s.listener = true ∧ .closeSocket ∉ as := by
  induction as generalizing s with
  | nil => simp
  | cons a as ih =>
    rw [follow, ih, List.mem_cons, not_or, ← and_assoc, @eq_comm _ .closeSocket a]
    cases hm : step s a with
    | none =>
      have hother : a ≠ .closeSocket := by
        rintro rfl
        cases hm
      rw [Option.getD_none]
      simp [hother]
    | some m =>
      rw [Option.getD_some, (step_frame hm).listener]

end Frame

section Attempts

variable {T E : Type*} [DecidableEq T] [DecidableEq E]

/-- An event has no session created before the first `k` were. -/
structure Fresh (k : ℕ) (e : E) (s : State T E) : Prop where
  createdCnt : k ≤ s.createdCnt
  session : ∀ x, (s.event e).session = some x → k ≤ x

variable {s s' : State T E} {t : T} {e : E} {k : ℕ} {turn : Turn E t} {turns : ℕ → Turn E t}

/-- The event stays fresh. -/
theorem Fresh.step {a : Action T E} (h : Fresh k e s) (hs : step s a = some s') : Fresh k e s' := by
  have hframe := step_frame hs
  refine ⟨Nat.le_trans h.createdCnt hframe.createdCnt, fun x hx => ?_⟩
  obtain hold | hnew := hframe.session e x hx
  · exact h.session x hold
  · exact Nat.le_trans h.createdCnt hnew

/-- `CreateSession`, and behind it the event is fresh. -/
theorem createSession_fresh (registered : Bool) (hpc : s.pc t = .createSession e)
    (hk : k ≤ s.createdCnt) :
    ∃ created, AcceptRearm.step s (.createSession t registered) = some created ∧
      Fresh k e created ∧ created.pc t = .acceptEx e (s.createSession registered) := by
  refine ⟨{ s with createdCnt := s.createdCnt + 1 }.put t
    (.acceptEx e (s.createSession registered)) e
    { s.event e with session := s.createSession registered },
    by simp only [AcceptRearm.step, hpc], ⟨Nat.le_succ_of_le hk, fun x hx => ?_⟩, put_pc ..⟩
  rw [put_event] at hx
  cases registered with
  | false => cases hx
  | true =>
    cases hx
    exact hk

omit [DecidableEq T] [DecidableEq E] in
/-- An accept is posted exactly if the socket is open and the system takes it. -/
theorem acceptEx_accepted {result : AcceptExResult} :
    (s.acceptEx result).accepted = true ↔ s.listener = true ∧ result.accepted = true := by
  rw [State.acceptEx]
  split
  · rename_i hopen
    exact (and_iff_right hopen).symm
  · rename_i hclosed
    exact iff_of_false (by decide) fun h => hclosed h.1

/-- The event is fresh behind a turn. -/
theorem attempt_fresh (turn : Turn E t) (hpc : s.pc t = .createSession e)
    (hk : k ≤ s.createdCnt) : Fresh k e (attempt s turn) := by
  obtain ⟨created, hcreated, hfresh, -⟩ := createSession_fresh turn.registered hpc hk
  rw [attempt, List.cons_append, follow_cons hcreated]
  exact follow_preserves (fun _ _ _ h _ hs => h.step hs) hfresh fun _ _ => trivial

/-- The invariant holds behind a turn. -/
theorem attempt_inv (turn : Turn E t) (h : Inv s) : Inv (attempt s turn) :=
  follow_preserves (fun _ _ _ h _ hs => h.step hs) h fun _ _ => trivial

/-- Whether the socket is open behind a turn. -/
theorem attempt_listener : (attempt s turn).listener = true ↔
    s.listener = true ∧ .closeSocket ∉ turn.between ++ turn.after := by
  rw [attempt, listener_follow]
  simp

/-- How a turn ends: with a null session, with the return of the call or with the call of
itself. -/
theorem attempt_cases (turn : Turn E t) (hpc : s.pc t = .createSession e) :
    turn.registered = false ∧ (attempt s turn).pc t = .nullSession e ∨
    turn.Posts s.listener ∧ (attempt s turn).pc t = .outside ∨
    (turn.registered = true ∧ ¬ turn.Posts s.listener) ∧
      (attempt s turn).pc t = .createSession e := by
  have hbetween := fun a ha => turn.others a (List.mem_append_left _ ha)
  have hafter := fun a ha => turn.others a (List.mem_append_right _ ha)
  obtain ⟨created, hcreated, -, hcreatedPc⟩ :=
    createSession_fresh turn.registered hpc (Nat.le_refl _)
  have hmid := (pc_follow (s := created) hbetween).trans hcreatedPc
  have hlistener : (follow AcceptRearm.step created turn.between).listener = true ↔
      s.listener = true ∧ .closeSocket ∉ turn.between := by
    rw [listener_follow, (step_frame hcreated).listener]
    simp
  generalize hfollow : follow AcceptRearm.step created turn.between = mid at hmid hlistener
  -- `AcceptEx` decides where the thread is, and the steps of others leave it there.
  have hend : ∀ {posted}, AcceptRearm.step mid (.acceptEx t turn.result) = some posted →
      (attempt s turn).pc t = posted.pc t := by
    intro posted hposted
    rw [attempt, List.cons_append, follow_cons hcreated, follow_append, hfollow,
      follow_cons hposted]
    exact pc_follow hafter
  cases hregistered : turn.registered with
  | false =>
    rw [hregistered, State.createSession, if_neg Bool.false_ne_true] at hmid
    have hposted : AcceptRearm.step mid (.acceptEx t turn.result) =
        some (mid.goto t (.nullSession e)) := by
      simp only [AcceptRearm.step, hmid]
    exact .inl ⟨rfl, (hend hposted).trans (goto_pc ..)⟩
  | true =>
    rw [hregistered, State.createSession, if_pos rfl] at hmid
    by_cases haccepted : (mid.acceptEx turn.result).accepted = true
    · obtain ⟨hopen, hresult⟩ := acceptEx_accepted.mp haccepted
      have hposted : AcceptRearm.step mid (.acceptEx t turn.result) =
          some (mid.put t .outside e { mid.event e with
            outstanding := (mid.event e).outstanding ++ [s.createdCnt] }) := by
        simp only [AcceptRearm.step, hmid, if_pos haccepted]
      exact .inr (.inl ⟨⟨hregistered, hlistener.mp hopen, hresult⟩,
        (hend hposted).trans (put_pc ..)⟩)
    · have hposted : AcceptRearm.step mid (.acceptEx t turn.result) =
          some (mid.goto t (.createSession e)) := by
        simp only [AcceptRearm.step, hmid, if_neg haccepted]
      refine .inr (.inr ⟨⟨rfl, fun hposts => haccepted ?_⟩, (hend hposted).trans (goto_pc ..)⟩)
      exact acceptEx_accepted.mpr ⟨hlistener.mpr hposts.listens, hposts.accepted⟩

/-- The call has returned in its first turn, or at a null session. -/
theorem registerAccept_of_ne (calls : ℕ) (h : ∀ e, (attempt s (turns 0)).pc t ≠ .createSession e) :
    registerAccept (calls + 1) turns s = some (attempt s (turns 0)) := by
  rw [registerAccept]
  split
  · rename_i e hpc
    exact absurd hpc (h e)
  · rfl

/-- The call of itself. -/
theorem registerAccept_again (calls : ℕ) (h : (attempt s (turns 0)).pc t = .createSession e) :
    registerAccept (calls + 1) turns s =
      registerAccept calls (fun n => turns (n + 1)) (attempt s (turns 0)) := by
  rw [registerAccept]
  simp only [h]

omit [DecidableEq T] [DecidableEq E] in
/-- The event behind a return. -/
theorem rearmed_of_inv (h : Inv s) (hfresh : Fresh k e s) (hpc : s.pc t = .outside) :
    Rearmed t e k s := by
  obtain hnone | ⟨x, hsession, hout⟩ := h.bound e
  · refine ⟨hpc, by rw [hnone]; exact Nat.zero_le 1, ?_, ?_, ?_⟩ <;>
      · rw [hnone]
        exact fun _ hx => nomatch hx
  · refine ⟨hpc, by rw [hout]; exact Nat.le_refl 1, ?_, ?_, ?_⟩ <;>
      rw [hout] <;> intro y hy <;> cases List.mem_singleton.mp hy
    · exact hsession
    · exact hfresh.session x hsession
    · intro e' he'
      have hother : (s.event e').session ≠ some x := fun h' => he' (h.own e' e x h' hsession)
      refine ⟨hother, fun hx => ?_⟩
      obtain hnone | ⟨y, hsession', hout'⟩ := h.bound e'
      · rw [hnone] at hx
        cases hx
      · rw [hout'] at hx
        cases List.mem_singleton.mp hx
        exact hother hsession'

omit [DecidableEq T] [DecidableEq E] in
/-- Behind a turn that leaves the socket open, the accept is posted later. -/
theorem PostsAt.tail {listener : Bool} {n : ℕ} (h : PostsAt listener turns (n + 1)) :
    PostsAt true (fun m => turns (m + 1)) n where
  posts := ⟨h.posts.registered, ⟨rfl, h.posts.listens.2⟩, h.posts.accepted⟩
  registered m hm := h.registered (m + 1) (Nat.succ_lt_succ hm)
  notClosed m hm := h.notClosed (m + 1) (Nat.succ_lt_succ hm)

omit [DecidableEq T] [DecidableEq E] in
/-- A turn in front of the one that posts the accept. -/
theorem PostsAt.cons {listener : Bool} {n : ℕ} (h : PostsAt true (fun m => turns (m + 1)) n)
    (hregistered : (turns 0).registered = true) (hlistener : listener = true)
    (hopen : .closeSocket ∉ (turns 0).between ++ (turns 0).after) :
    PostsAt listener turns (n + 1) where
  posts := ⟨h.posts.registered, ⟨hlistener, h.posts.listens.2⟩, h.posts.accepted⟩
  registered
    | 0, _ => hregistered
    | m + 1, hm => h.registered m (Nat.lt_of_succ_lt_succ hm)
  notClosed
    | 0, _ => hopen
    | m + 1, hm => h.notClosed m (Nat.lt_of_succ_lt_succ hm)

/-- What holds behind a turn that calls again held before it. -/
theorem PostsAt.of_attempt {n : ℕ} (hregistered : (turns 0).registered = true)
    (h : PostsAt (attempt s (turns 0)).listener (fun m => turns (m + 1)) n) :
    PostsAt s.listener turns (n + 1) := by
  obtain ⟨hlistener, hopen⟩ := attempt_listener.mp h.posts.listens.1
  exact (h.posts.listens.1 ▸ h).cons hregistered hlistener hopen

omit [DecidableEq T] [DecidableEq E] in
/-- The first turn may be the one. -/
theorem postsAt_zero {listener : Bool} : PostsAt listener turns 0 ↔ (turns 0).Posts listener :=
  ⟨PostsAt.posts, fun h => ⟨h, fun _ hm => absurd hm (Nat.not_lt_zero _),
    fun _ hm => absurd hm (Nat.not_lt_zero _)⟩⟩

/-- A call that returns in its first turn. -/
theorem exists_rearmed_of_returned (h : Inv s) (hfresh : Fresh k e (attempt s (turns 0)))
    (hreturned : (attempt s (turns 0)).pc t = .outside) :
    ∃ calls s', registerAccept calls turns s = some s' ∧ Rearmed t e k s' :=
  ⟨1, _, registerAccept_of_ne 0 (by simp [hreturned]),
    rearmed_of_inv (attempt_inv _ h) hfresh hreturned⟩

/-- Where an accept is posted in some turn, the call returns. -/
theorem exists_rearmed {n : ℕ} (h : Inv s) (hpc : s.pc t = .createSession e)
    (hk : k ≤ s.createdCnt) (hposts : PostsAt s.listener turns n) :
    ∃ calls s', registerAccept calls turns s = some s' ∧ Rearmed t e k s' := by
  induction n generalizing s turns with
  | zero =>
    have hfirst := postsAt_zero.mp hposts
    obtain ⟨hnull, -⟩ | ⟨-, hreturned⟩ | ⟨⟨-, hnot⟩, -⟩ := attempt_cases (turns 0) hpc
    · cases hnull.symm.trans hfirst.registered
    · exact exists_rearmed_of_returned h (attempt_fresh _ hpc hk) hreturned
    · exact absurd hfirst hnot
  | succ n ih =>
    have hfresh := attempt_fresh (turns 0) hpc hk
    obtain ⟨hnull, -⟩ | ⟨-, hreturned⟩ | ⟨-, hagain⟩ := attempt_cases (turns 0) hpc
    · cases hnull.symm.trans (hposts.registered 0 (Nat.succ_pos n))
    · exact exists_rearmed_of_returned h hfresh hreturned
    · have hopen := attempt_listener.mpr
        ⟨hposts.posts.listens.1, hposts.notClosed 0 (Nat.succ_pos n)⟩
      obtain ⟨calls, s', hcall, hrearmed⟩ := ih (attempt_inv _ h) hagain hfresh.createdCnt
        (hopen ▸ hposts.tail)
      exact ⟨calls + 1, s', (registerAccept_again calls hagain).trans hcall, hrearmed⟩

/-- Where the call returns, an accept was posted in some turn. -/
theorem exists_postsAt {calls : ℕ} (hpc : s.pc t = .createSession e)
    (hcall : registerAccept calls turns s = some s') (hreturned : s'.pc t = .outside) :
    ∃ n, PostsAt s.listener turns n := by
  induction calls generalizing s turns with
  | zero => cases hcall
  | succ calls ih =>
    obtain ⟨-, hnull⟩ | ⟨hposts, -⟩ | ⟨⟨hregistered, -⟩, hagain⟩ := attempt_cases (turns 0) hpc
    · rw [registerAccept_of_ne calls (by simp [hnull])] at hcall
      cases hcall
      cases hnull.symm.trans hreturned
    · exact ⟨0, postsAt_zero.mpr hposts⟩
    · rw [registerAccept_again calls hagain] at hcall
      obtain ⟨n, hn⟩ := ih hagain hcall
      exact ⟨n + 1, hn.of_attempt hregistered⟩

/-- Without such a turn, and with a session in every one, the call does not end. -/
theorem registerAccept_eq_none (hpc : s.pc t = .createSession e)
    (hregistered : ∀ n, (turns n).registered = true)
    (hnever : ∀ n, ¬ PostsAt s.listener turns n) (calls : ℕ) :
    registerAccept calls turns s = none := by
  induction calls generalizing s turns with
  | zero => rfl
  | succ calls ih =>
    obtain ⟨hnull, -⟩ | ⟨hposts, -⟩ | ⟨-, hagain⟩ := attempt_cases (turns 0) hpc
    · cases hnull.symm.trans (hregistered 0)
    · exact absurd (postsAt_zero.mpr hposts) (hnever 0)
    · rw [registerAccept_again calls hagain]
      exact ih hagain (fun n => hregistered (n + 1)) fun n hn =>
        hnever (n + 1) (hn.of_attempt (hregistered 0))

end Attempts

section Listener

variable {T E : Type*} [DecidableEq T] [DecidableEq E] {s : State T E} {t : T} {e : E}

/-- `ProcessAccept` of a completion comes to `RegisterAccept`, whatever the completion was. -/
theorem processAccept_registers (h : Reachable step init s) (hpc : s.pc t = .processAccept e)
    (updated : Bool) : ∃ s', step s (.processAccept t updated) = some s' ∧
      s'.pc t = .createSession e := by
  have hfits := ((inv_of_reachable h).fits t e (by rw [hpc]; rfl)).2
  obtain ⟨x, hx⟩ := Option.ne_none_iff_exists'.mp (hfits.completed e hpc)
  refine ⟨_, by simp only [step, hpc, hx]; rfl, goto_pc ..⟩

/-- In every reachable state a call of `RegisterAccept` returns after finitely many calls of
itself, whatever the other threads do meanwhile, without using a null session and with at
most one accept outstanding, for a new session of its own, if and only if in some turn an
accept is posted and until then the socket is open and every session could be registered. -/
theorem rearms_iff_postsAt (h : Reachable step init s) (hpc : s.pc t = .createSession e)
    (turns : ℕ → Turn E t) : Rearms e turns s ↔ ∃ n, PostsAt s.listener turns n := by
  constructor
  · rintro ⟨calls, s', hcall, hrearmed⟩
    exact exists_postsAt hpc hcall hrearmed.returned
  · rintro ⟨n, hn⟩
    exact exists_rearmed (inv_of_reachable h) hpc (Nat.le_refl _) hn

/-- A turn without steps of others. -/
def Turn.alone (registered : Bool) (result : AcceptExResult) : Turn Unit true :=
  ⟨registered, [], result, [], by simp⟩

/-- An accept is refused once, and then pending. -/
theorem rearms_refused_once : ∃ s, run step init [.startAccept true ()] = some s ∧
    Rearms () (fun n => Turn.alone true (.failed (if n = 0 then 10054 else 997))) s := by
  refine ⟨_, rfl, (rearms_iff_postsAt ⟨[.startAccept true ()], rfl⟩ rfl _).mpr
    ⟨1, ⟨rfl, ⟨rfl, ?_⟩, rfl⟩, ?_, ?_⟩⟩
  · exact List.not_mem_nil
  · exact fun _ _ => rfl
  · exact fun _ _ => List.not_mem_nil

/-- `Stop` closes the socket while an accept is pending, which completes then. -/
def stopped : List (Action Bool Unit) :=
  [.startAccept false (), .createSession false true, .acceptEx false (.failed wsaIoPending),
    .closeSocket, .dequeue true (), .processAccept true false]

/-- `RegisterAccept` does not end then, whatever is answered; and it uses a null session if the
first one could not be registered. -/
theorem not_rearms_stopped :
    (∃ s, run step init stopped = some s ∧ s.pc true = .createSession () ∧
      ∀ turns : ℕ → Turn Unit true, ¬ Rearms () turns s ∧
        ((∀ n, (turns n).registered = true) → ∀ calls, registerAccept calls turns s = none)) ∧
    ∃ s, run step init [.startAccept true ()] = some s ∧ s.pc true = .createSession () ∧
      ¬ Rearms () (fun _ => Turn.alone false .success) s := by
  refine ⟨⟨_, rfl, rfl, fun turns => ⟨?_, fun hregistered => ?_⟩⟩, ⟨_, rfl, rfl, ?_⟩⟩
  · rintro ⟨calls, s', hcall, hrearmed⟩
    obtain ⟨n, hn⟩ := exists_postsAt rfl hcall hrearmed.returned
    cases hn.posts.listens.1
  · exact registerAccept_eq_none rfl hregistered fun n hn => nomatch hn.posts.listens.1
  · rintro ⟨calls, s', hcall, hrearmed⟩
    obtain ⟨n, hn⟩ := exists_postsAt rfl hcall hrearmed.returned
    cases hn.posts.registered

end Listener

end RioIocpServer.AcceptRearm
