import RioIocpServer.ReceivePath
import RioIocpServer.ThreadSum

/-!
# Tearing a session down

Any number of threads call `Disconnect` on a connected session. One of them finds
`m_bConnected` true and goes on, in a RIO session with `SetLinger`, `closesocket`,
`OnDisconnected` and `ReleaseSession`, in an IOCP session with `DisconnectEx`, whose
completion calls the last two. The results of the socket calls are part of the
actions; no thread waits for another one here.
-/

namespace RioIocpServer.Teardown

open TransitionSystem

/-- What a thread inside `Disconnect` does next. -/
inductive Pc where
  /-- It is outside, or about to exchange `m_bConnected`. -/
  | outside
  /-- `SetLinger`. -/
  | setLinger
  /-- `SocketCore::Close`. -/
  | close
  /-- `OnDisconnected`. -/
  | onDisconnected
  /-- `RioCore::ReleaseSession`. -/
  | release
  /-- `DisconnectEx`, in `RegisterDisconnect`. -/
  | disconnectEx
  deriving DecidableEq

/-- The completion of `DisconnectEx`. -/
inductive Completion where
  /-- There is none, or it has been processed. -/
  | none
  /-- The system will deliver it. -/
  | pending
  /-- `ProcessDisconnect` calls `OnDisconnected` next. -/
  | onDisconnected
  /-- It calls `IocpService::ReleaseSession` next. -/
  | release
  deriving DecidableEq

/-- The result of an overlapped call. -/
inductive CallResult where
  /-- It is complete; the completion is delivered all the same. -/
  | success
  /-- `ERROR_IO_PENDING`. -/
  | pending
  /-- Any other error: there is no completion. -/
  | error
  deriving DecidableEq

/-- A session and the threads that call its `Disconnect`. -/
structure State (T : Type*) where
  /-- `m_bConnected`. -/
  connected : Bool
  /-- The threads. -/
  pc : T → Pc
  /-- The completion of `DisconnectEx`. -/
  completion : Completion
  /-- The session is in the set of its core or service. -/
  registered : Bool
  /-- The session owns a player that is logged in. -/
  player : Bool
  /-- History: the calls of `OnDisconnected`. -/
  called : ℕ
  /-- History: the calls of `ReleaseSession`. -/
  removed : ℕ

/-- The steps. -/
inductive Action (T : Type*) where
  /-- `Disconnect` is called: `m_bConnected.exchange(false)`. -/
  | exchange (t : T)
  /-- `SetLinger` returns. -/
  | setLinger (t : T) (result : Bool)
  /-- `SocketCore::Close` returns. -/
  | close (t : T) (result : Bool)
  /-- `OnDisconnected` of a RIO session. -/
  | onDisconnected (t : T)
  /-- `ReleaseSession` of a RIO session. -/
  | release (t : T)
  /-- `DisconnectEx` returns. -/
  | disconnectEx (t : T) (result : CallResult)
  /-- The completion is dequeued. -/
  | dequeue
  /-- `OnDisconnected` of an IOCP session. -/
  | processOnDisconnected
  /-- `ReleaseSession` of an IOCP session. -/
  | processRelease

section System

variable {T : Type*} [DecidableEq T]

/-- A connected session that was added to its registry. -/
def init (T : Type*) (player : Bool) : State T where
  connected := true
  pc _ := .outside
  completion := .none
  registered := true
  player := player
  called := 0
  removed := 0

/-- A thread goes on. -/
def State.goto (s : State T) (t : T) (pc : Pc) : State T :=
  { s with pc := Function.update s.pc t pc }

/-- `OnDisconnected`: the player is logged out and forgotten. -/
def State.callOnDisconnected (s : State T) : State T :=
  { s with player := false, called := s.called + 1 }

/-- `ReleaseSession`. -/
def State.callRelease (s : State T) : State T :=
  { s with registered := false, removed := s.removed + 1 }

/-- What `Disconnect` of a class does behind the exchange. -/
def firstCall : SessionClass → Pc
  | .rio => .setLinger
  | .iocp => .disconnectEx

/-- One step. -/
def step (c : SessionClass) (s : State T) : Action T → Option (State T)
  | .exchange t =>
    if s.pc t = .outside then
      if s.connected = true then some ({ s with connected := false }.goto t (firstCall c))
      else some s
    else none
  | .setLinger t result =>
    if s.pc t = .setLinger then some (s.goto t (if result = true then .close else .outside))
    else none
  | .close t _ => if s.pc t = .close then some (s.goto t .onDisconnected) else none
  | .onDisconnected t =>
    if s.pc t = .onDisconnected then some (s.callOnDisconnected.goto t .release) else none
  | .release t => if s.pc t = .release then some (s.callRelease.goto t .outside) else none
  | .disconnectEx t result =>
    if s.pc t = .disconnectEx then
      if result = .error then some (s.goto t .outside)
      else some ({ s with completion := .pending }.goto t .outside)
    else none
  | .dequeue =>
    if s.completion = .pending then some { s with completion := .onDisconnected } else none
  | .processOnDisconnected =>
    if s.completion = .onDisconnected then
      some { s.callOnDisconnected with completion := .release }
    else none
  | .processRelease =>
    if s.completion = .release then some { s.callRelease with completion := .none } else none

omit [DecidableEq T] in
/-- `SetLinger` succeeds, and `DisconnectEx` is accepted. -/
def Accepted : Action T → Prop
  | .setLinger _ result => result = true
  | .disconnectEx _ result => result ≠ .error
  | _ => True

instance : DecidablePred (Accepted : Action T → Prop)
  | .setLinger _ result => inferInstanceAs (Decidable (result = true))
  | .disconnectEx _ result => inferInstanceAs (Decidable (result ≠ .error))
  | .exchange _ => isTrue trivial
  | .close _ _ => isTrue trivial
  | .onDisconnected _ => isTrue trivial
  | .release _ => isTrue trivial
  | .dequeue => isTrue trivial
  | .processOnDisconnected => isTrue trivial
  | .processRelease => isTrue trivial

omit [DecidableEq T] in
/-- The call that flipped the flag has returned, and its completion was processed. -/
structure Finished (s : State T) : Prop where
  /-- The flag was flipped. -/
  flipped : s.connected = false
  /-- No thread is inside `Disconnect`. -/
  returned : ∀ t, s.pc t = .outside
  /-- No completion is left. -/
  processed : s.completion = .none

omit [DecidableEq T] in
/-- `OnDisconnected` and `ReleaseSession` were called once, and nothing is left. -/
structure TornDown (s : State T) : Prop where
  /-- One call of `OnDisconnected`. -/
  called_eq : s.called = 1
  /-- One call of `ReleaseSession`. -/
  removed_eq : s.removed = 1
  /-- The session is not registered any more. -/
  unregistered : s.registered = false
  /-- The session owns no player. -/
  no_player : s.player = false

omit [DecidableEq T] in
/-- Nothing of the teardown was done. -/
structure Untouched (s : State T) : Prop where
  /-- No call of `OnDisconnected`. -/
  called_eq : s.called = 0
  /-- No call of `ReleaseSession`. -/
  removed_eq : s.removed = 0
  /-- The session is registered. -/
  registered : s.registered = true

omit [DecidableEq T] in
/-- `OnDisconnected` was called, `ReleaseSession` not yet. -/
structure HalfDone (s : State T) : Prop where
  /-- One call of `OnDisconnected`. -/
  called_eq : s.called = 1
  /-- No call of `ReleaseSession`. -/
  removed_eq : s.removed = 0
  /-- The session owns no player. -/
  no_player : s.player = false

/-- Where the teardown of a session stands. -/
inductive Stage (s : State T) : Prop
  /-- Nobody has flipped the flag. -/
  | connected (hflag : s.connected = true) (hout : ∀ t, s.pc t = .outside)
      (hnone : s.completion = .none) (h : Untouched s)
  /-- A thread is on its way to `OnDisconnected`, or to `DisconnectEx`. -/
  | begun (t : T) (hflag : s.connected = false)
      (hpc : s.pc t = .setLinger ∨ s.pc t = .close ∨ s.pc t = .onDisconnected ∨
        s.pc t = .disconnectEx)
      (hout : ∀ u, u ≠ t → s.pc u = .outside) (hnone : s.completion = .none) (h : Untouched s)
  /-- A thread is between the two calls. -/
  | between (t : T) (hflag : s.connected = false) (hpc : s.pc t = .release)
      (hout : ∀ u, u ≠ t → s.pc u = .outside) (hnone : s.completion = .none) (h : HalfDone s)
  /-- A completion will be delivered, or is processed. -/
  | awaited (hflag : s.connected = false) (hout : ∀ t, s.pc t = .outside)
      (hcompletion : s.completion = .pending ∨ s.completion = .onDisconnected) (h : Untouched s)
  /-- The completion is between the two calls. -/
  | awaitedBetween (hflag : s.connected = false) (hout : ∀ t, s.pc t = .outside)
      (hcompletion : s.completion = .release) (h : HalfDone s)
  /-- The session is torn down. -/
  | done (hflag : s.connected = false) (hout : ∀ t, s.pc t = .outside)
      (hnone : s.completion = .none) (h : TornDown s)
  /-- The socket call was refused. -/
  | refused (hflag : s.connected = false) (hout : ∀ t, s.pc t = .outside)
      (hnone : s.completion = .none) (h : Untouched s)

section Steps

variable {c : SessionClass} {s s' : State T} {t u : T} {a : Action T} {pc : Pc}

@[simp] theorem goto_self : (s.goto t pc).pc t = pc := Function.update_self ..

theorem goto_of_ne (h : u ≠ t) : (s.goto t pc).pc u = s.pc u := Function.update_of_ne h ..

/-- A thread that goes on inside `Disconnect` stays the only one. -/
theorem goto_alone (hout : ∀ u, u ≠ t → s.pc u = .outside) (u : T) (hu : u ≠ t) :
    (s.goto t pc).pc u = .outside :=
  (goto_of_ne hu).trans (hout u hu)

/-- A thread that leaves `Disconnect` leaves nobody inside. -/
theorem goto_outside (hout : ∀ u, u ≠ t → s.pc u = .outside) (u : T) :
    (s.goto t .outside).pc u = .outside := ThreadSum.update_alone hout u

omit [DecidableEq T] in
/-- While the session is connected, nothing has begun. -/
theorem Stage.connected_of (stage : Stage s) (hconnected : s.connected = true) :
    (∀ u, s.pc u = .outside) ∧ s.completion = .none ∧ Untouched s := by
  have hne : s.connected ≠ false := by
    rw [hconnected]
    simp
  cases stage with
  | connected _ hout hnone h => exact ⟨hout, hnone, h⟩
  | begun _ hflag | between _ hflag => exact (hne hflag).elim
  | awaited hflag | awaitedBetween hflag | done hflag | refused hflag => exact (hne hflag).elim

omit [DecidableEq T] in
/-- A thread in front of `OnDisconnected` is the only one inside. -/
theorem Stage.begun_of (stage : Stage s) (hpc : s.pc t = .setLinger ∨ s.pc t = .close ∨
    s.pc t = .onDisconnected ∨ s.pc t = .disconnectEx) :
    s.connected = false ∧ (∀ u, u ≠ t → s.pc u = .outside) ∧ s.completion = .none ∧
      Untouched s := by
  have hne : s.pc t ≠ .outside := by
    intro h
    rw [h] at hpc
    simp at hpc
  cases stage with
  | begun v hflag _ hout hnone h =>
    obtain rfl := ThreadSum.eq_of_alone hout hne
    exact ⟨hflag, hout, hnone, h⟩
  | between v _ hrelease hout =>
    obtain rfl := ThreadSum.eq_of_alone hout hne
    rw [hrelease] at hpc
    simp at hpc
  | connected _ hout | awaited _ hout | awaitedBetween _ hout | done _ hout | refused _ hout =>
    exact (hne (hout t)).elim

omit [DecidableEq T] in
/-- So is a thread in front of `ReleaseSession`. -/
theorem Stage.between_of (stage : Stage s) (hpc : s.pc t = .release) :
    s.connected = false ∧ (∀ u, u ≠ t → s.pc u = .outside) ∧ s.completion = .none ∧
      HalfDone s := by
  have hne : s.pc t ≠ .outside := by
    rw [hpc]
    simp
  cases stage with
  | begun v _ hbegun hout =>
    obtain rfl := ThreadSum.eq_of_alone hout hne
    rw [hpc] at hbegun
    simp at hbegun
  | between v hflag _ hout hnone h =>
    obtain rfl := ThreadSum.eq_of_alone hout hne
    exact ⟨hflag, hout, hnone, h⟩
  | connected _ hout | awaited _ hout | awaitedBetween _ hout | done _ hout | refused _ hout =>
    exact (hne (hout t)).elim

omit [DecidableEq T] in
/-- While a completion is awaited, nobody is inside `Disconnect`. -/
theorem Stage.awaited_of (stage : Stage s)
    (hcompletion : s.completion = .pending ∨ s.completion = .onDisconnected) :
    s.connected = false ∧ (∀ u, s.pc u = .outside) ∧ Untouched s := by
  have hne : s.completion ≠ .none := by
    intro h
    rw [h] at hcompletion
    simp at hcompletion
  cases stage with
  | awaited hflag hout _ h => exact ⟨hflag, hout, h⟩
  | awaitedBetween _ _ hrelease =>
    rw [hrelease] at hcompletion
    simp at hcompletion
  | begun _ _ _ _ hnone | between _ _ _ _ hnone => exact (hne hnone).elim
  | connected _ _ hnone | done _ _ hnone | refused _ _ hnone => exact (hne hnone).elim

omit [DecidableEq T] in
/-- The same between the two calls of the completion. -/
theorem Stage.awaitedBetween_of (stage : Stage s) (hcompletion : s.completion = .release) :
    s.connected = false ∧ (∀ u, s.pc u = .outside) ∧ HalfDone s := by
  have hne : s.completion ≠ .none := by
    rw [hcompletion]
    simp
  cases stage with
  | awaitedBetween hflag hout _ h => exact ⟨hflag, hout, h⟩
  | awaited _ _ hawaited =>
    rw [hcompletion] at hawaited
    simp at hawaited
  | begun _ _ _ _ hnone | between _ _ _ _ hnone => exact (hne hnone).elim
  | connected _ _ hnone | done _ _ hnone | refused _ _ hnone => exact (hne hnone).elim

omit [DecidableEq T] in
/-- Calling `OnDisconnected` is the first half. -/
theorem Untouched.half (h : Untouched s) : HalfDone s.callOnDisconnected :=
  ⟨congrArg (· + 1) h.called_eq, h.removed_eq, rfl⟩

omit [DecidableEq T] in
/-- Calling `ReleaseSession` is the second one. -/
theorem HalfDone.done (h : HalfDone s) : TornDown s.callRelease :=
  ⟨h.called_eq, congrArg (· + 1) h.removed_eq, rfl, h.no_player⟩

/-- A session whose teardown was refused: flagged, registered, and left alone. -/
structure Refused (s : State T) : Prop extends Finished s, Untouched s

/-- A refused call is the end of the teardown. -/
theorem refused_of_not (stage : Stage s) (hnot : ¬ Accepted a) (h : step c s a = some s') :
    Refused s' := by
  cases a with
  | setLinger t result =>
    have hresult : result ≠ true := hnot
    rw [step, if_neg hresult] at h
    split at h
    · rename_i hpc
      cases h
      obtain ⟨hflag, hout, hnone, huntouched⟩ := stage.begun_of (.inl hpc)
      exact ⟨⟨hflag, goto_outside hout, hnone⟩, ⟨huntouched.1, huntouched.2, huntouched.3⟩⟩
    · cases h
  | disconnectEx t result =>
    have hresult : result = .error := not_not.mp hnot
    rw [step, if_pos hresult] at h
    split at h
    · rename_i hpc
      cases h
      obtain ⟨hflag, hout, hnone, huntouched⟩ := stage.begun_of (.inr (.inr (.inr hpc)))
      exact ⟨⟨hflag, goto_outside hout, hnone⟩, ⟨huntouched.1, huntouched.2, huntouched.3⟩⟩
    · cases h
  | exchange | close | onDisconnected | release | dequeue | processOnDisconnected
  | processRelease => exact (hnot trivial).elim

/-- Nothing brings such a session on. -/
theorem refused_step (hrefused : Refused s) (h : step c s a = some s') : Refused s' := by
  obtain ⟨⟨hflag, hout, hnone⟩, huntouched⟩ := hrefused
  cases a <;> rw [step] at h <;> simp [hflag, hout, hnone] at h
  exact h ▸ ⟨⟨hflag, hout, hnone⟩, huntouched⟩

/-- A session whose calls are accepted is not brought there. -/
theorem refused_of_step (haccepted : Accepted a) (h : step c s a = some s')
    (hrefused : Refused s') : Refused s := by
  obtain ⟨⟨hflag, hout, hnone⟩, huntouched⟩ := hrefused
  cases a with
  | exchange t =>
    rw [step] at h
    split at h
    · split at h <;> cases h
      · have hpc := hout t
        rw [goto_self] at hpc
        cases c <;> cases hpc
      · exact ⟨⟨hflag, hout, hnone⟩, huntouched⟩
    · cases h
  | setLinger t result =>
    obtain rfl : result = true := haccepted
    rw [step] at h
    split at h <;> cases h
    have hpc := hout t
    rw [goto_self] at hpc
    cases hpc
  | close t _ | onDisconnected t =>
    rw [step] at h
    split at h <;> cases h
    have hpc := hout t
    rw [goto_self] at hpc
    cases hpc
  | release t =>
    rw [step] at h
    split at h <;> cases h
    exact (Nat.succ_ne_zero _ huntouched.removed_eq).elim
  | disconnectEx t result =>
    have hresult : result ≠ .error := haccepted
    rw [step, if_neg hresult] at h
    split at h <;> cases h
    cases hnone
  | dequeue | processOnDisconnected =>
    rw [step] at h
    split at h <;> cases h
    cases hnone
  | processRelease =>
    rw [step] at h
    split at h <;> cases h
    exact (Nat.succ_ne_zero _ huntouched.removed_eq).elim

/-- Every step leads from one stage to another. -/
theorem stage_step (stage : Stage s) (h : step c s a = some s') : Stage s' := by
  by_cases haccepted : Accepted a
  · cases a with
    | exchange t =>
      rw [step] at h
      split at h
      · rename_i hpc
        split at h
        · rename_i hconnected
          cases h
          obtain ⟨hout, hnone, huntouched⟩ := stage.connected_of hconnected
          refine .begun t rfl ?_ (goto_alone fun u _ => hout u) hnone
            ⟨huntouched.1, huntouched.2, huntouched.3⟩
          rw [goto_self]
          cases c
          · exact .inl rfl
          · exact .inr (.inr (.inr rfl))
        · cases h
          exact stage
      · cases h
    | setLinger t result =>
      obtain rfl : result = true := haccepted
      rw [step] at h
      split at h <;> cases h
      rename_i hpc
      obtain ⟨hflag, hout, hnone, huntouched⟩ := stage.begun_of (.inl hpc)
      exact .begun t hflag (.inr (.inl goto_self)) (goto_alone hout) hnone
        ⟨huntouched.1, huntouched.2, huntouched.3⟩
    | close t result =>
      rw [step] at h
      split at h <;> cases h
      rename_i hpc
      obtain ⟨hflag, hout, hnone, huntouched⟩ := stage.begun_of (.inr (.inl hpc))
      exact .begun t hflag (.inr (.inr (.inl goto_self)))
        (goto_alone hout) hnone
        ⟨huntouched.1, huntouched.2, huntouched.3⟩
    | onDisconnected t =>
      rw [step] at h
      split at h <;> cases h
      rename_i hpc
      obtain ⟨hflag, hout, hnone, huntouched⟩ := stage.begun_of (.inr (.inr (.inl hpc)))
      have half := huntouched.half
      exact .between t hflag goto_self (goto_alone hout) hnone
        ⟨half.1, half.2, half.3⟩
    | release t =>
      rw [step] at h
      split at h <;> cases h
      rename_i hpc
      obtain ⟨hflag, hout, hnone, half⟩ := stage.between_of hpc
      have hdone := half.done
      exact .done hflag (goto_outside hout) hnone ⟨hdone.1, hdone.2, hdone.3, hdone.4⟩
    | disconnectEx t result =>
      have hresult : result ≠ .error := haccepted
      rw [step, if_neg hresult] at h
      split at h <;> cases h
      rename_i hpc
      obtain ⟨hflag, hout, -, huntouched⟩ := stage.begun_of (.inr (.inr (.inr hpc)))
      exact .awaited hflag (goto_outside hout) (.inl rfl)
        ⟨huntouched.1, huntouched.2, huntouched.3⟩
    | dequeue =>
      rw [step] at h
      split at h <;> cases h
      rename_i hpending
      obtain ⟨hflag, hout, huntouched⟩ := stage.awaited_of (.inl hpending)
      exact .awaited hflag hout (.inr rfl) ⟨huntouched.1, huntouched.2, huntouched.3⟩
    | processOnDisconnected =>
      rw [step] at h
      split at h <;> cases h
      rename_i hcompletion
      obtain ⟨hflag, hout, huntouched⟩ := stage.awaited_of (.inr hcompletion)
      have half := huntouched.half
      exact .awaitedBetween hflag hout rfl ⟨half.1, half.2, half.3⟩
    | processRelease =>
      rw [step] at h
      split at h <;> cases h
      rename_i hcompletion
      obtain ⟨hflag, hout, half⟩ := stage.awaitedBetween_of hcompletion
      have hdone := half.done
      exact .done hflag hout rfl ⟨hdone.1, hdone.2, hdone.3, hdone.4⟩
  · obtain ⟨⟨hflag, hout, hnone⟩, huntouched⟩ := refused_of_not stage haccepted h
    exact .refused hflag hout hnone huntouched

end Steps

omit [DecidableEq T] in
/-- A session that has come to the end is torn down or was refused. -/
theorem Stage.finished {s : State T} (stage : Stage s) (hfinished : Finished s) :
    TornDown s ∨ Refused s := by
  obtain ⟨hflag, hout, hnone⟩ := hfinished
  cases stage with
  | connected hconnected =>
    rw [hflag] at hconnected
    cases hconnected
  | begun t _ hpc =>
    rw [hout t] at hpc
    simp at hpc
  | between t _ hpc =>
    rw [hout t] at hpc
    cases hpc
  | awaited _ _ hcompletion =>
    rw [hnone] at hcompletion
    simp at hcompletion
  | awaitedBetween _ _ hcompletion =>
    rw [hnone] at hcompletion
    cases hcompletion
  | done _ _ _ h => exact .inl h
  | refused _ _ _ h => exact .inr ⟨⟨hflag, hout, hnone⟩, h⟩

end System

/-- In every interleaving of calls of `Disconnect` on a connected session of either
class: once the call that flipped the flag has returned and its completion, if there
was one, has been processed, `OnDisconnected` and `ReleaseSession` have been called
exactly once, and neither the registration nor the player is left, exactly if no
`SetLinger` has failed and no `DisconnectEx` was refused. -/
theorem tornDown_iff {T : Type*} [DecidableEq T] {c : SessionClass} {player : Bool}
    {actions : List (Action T)} {s : State T}
    (hr : run (step c) (init T player) actions = some s) (hfinished : Finished s) :
    TornDown s ↔ StepsMeet (step c) (fun _ => Accepted) (init T player) actions := by
  have hinit : Stage (init T player) :=
    .connected rfl (fun _ => rfl) rfl ⟨rfl, rfl, rfl⟩
  constructor
  · intro hdown
    have hor : StepsMeet (step c) (fun _ => Accepted) (init T player) actions ∨ Refused s :=
      stepsMeet_or_of_kept (fun _ _ _ stage h => stage_step stage h)
        (fun _ _ _ stage hnot h => refused_of_not stage hnot h)
        (fun _ _ _ _ hrefused h => refused_step hrefused h) hinit hr
    refine hor.resolve_right fun hrefused => ?_
    have hcalled := hdown.called_eq
    rw [hrefused.called_eq] at hcalled
    cases hcalled
  · intro hmeet
    have hkept : ∀ (s : State T) (a : Action T) (s' : State T), Stage s ∧ ¬ Refused s →
        Accepted a → step c s a = some s' → Stage s' ∧ ¬ Refused s' :=
      fun _ _ _ hs haccepted h =>
        ⟨stage_step hs.1 h, fun hrefused => hs.2 (refused_of_step haccepted h hrefused)⟩
    have hend := run_preserves hkept ⟨hinit, fun h => nomatch h.flipped⟩ hmeet hr
    exact (hend.1.finished hfinished).resolve_right hend.2

/-- Two threads call `Disconnect` of an IOCP session. -/
def twoCalls : List (Action Bool) :=
  [.exchange true, .exchange false, .disconnectEx true .pending, .dequeue,
    .processOnDisconnected, .processRelease]

/-- It is torn down once. -/
theorem tornDown_twoCalls : ∃ s, run (step .iocp) (init Bool true) twoCalls = some s ∧
    TornDown s := by
  have h : ((run (step .iocp) (init Bool true) twoCalls).any fun s =>
      s.connected = false ∧ (∀ t, s.pc t = .outside) ∧ s.completion = .none) = true := by
    decide
  obtain ⟨s, hr, hview⟩ := (Option.any_eq_true _ _).mp h
  obtain ⟨hflag, hout, hnone⟩ := of_decide_eq_true hview
  exact ⟨s, hr, (tornDown_iff hr ⟨hflag, hout, hnone⟩).mpr (by decide)⟩

/-- `SetLinger` fails: the session is flagged, registered and owns its player, and its
next `Disconnect` returns at once. -/
theorem setLinger_failure_leaks : ∃ s, run (step .rio) (init Bool true)
      [.exchange true, .setLinger true false, .exchange false] = some s ∧ Finished s ∧
    s.registered = true ∧ s.player = true ∧ ¬ TornDown s := by
  have h : ((run (step .rio) (init Bool true)
      [.exchange true, .setLinger true false, .exchange false]).any fun s =>
      s.connected = false ∧ (∀ t, s.pc t = .outside) ∧ s.completion = .none ∧
        s.registered = true ∧ s.player = true) = true := by
    decide
  obtain ⟨s, hr, hview⟩ := (Option.any_eq_true _ _).mp h
  obtain ⟨hflag, hout, hnone, hregistered, hplayer⟩ := of_decide_eq_true hview
  refine ⟨s, hr, ⟨hflag, hout, hnone⟩, hregistered, hplayer, fun hdown => ?_⟩
  rw [hdown.unregistered] at hregistered
  cases hregistered

end RioIocpServer.Teardown
