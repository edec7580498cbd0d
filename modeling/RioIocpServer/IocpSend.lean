import RioIocpServer.TransitionSystem
import RioIocpServer.ThreadSum

/-!
# The send path of the IOCP sessions

Any thread queues packets with `Send`; the thread that finds `m_bSendRegistered`
clear goes on to `RegisterSend`, and a completion thread running `ProcessSend`
goes on to it again or clears the flag. Each critical section of `m_sendBufLock`,
each access to the flag, to `m_bConnected` and to the shared `m_sendEvent`, and
each `WSASend` is one step. A `WSASend` fails at once or is outstanding until
some thread picks up its completion, which may be the next step. The session
starts right after `ProcessConnect`; `pushed`, `issued`, `sent` and `errors`
record history and are read by no step.
-/

namespace RioIocpServer.IocpSend

open TransitionSystem

/-- Where a thread stands inside `Send`, `RegisterSend` or `ProcessSend`. -/
inductive Pc (P : Type*) where
  /-- Outside. -/
  | idle
  /-- Passed the test of `Send`, about to enter its critical section. -/
  | send (packet : P)
  /-- At the test `!IsConnected()` of `RegisterSend`. -/
  | register
  /-- At the critical section of `RegisterSend`. -/
  | drain
  /-- At the `WSASend` of the buffers collected. -/
  | wsaSend (wsaBuf : List P)
  /-- The `WSASend` failed; at `m_sendBuffer.clear()`. -/
  | failed
  /-- At `m_bSendRegistered.store(false)` after a failure. -/
  | cleared
  /-- At the start of `ProcessSend`. -/
  | processSend (bytesTransferred : ℕ)
  /-- At the test `bytesTransferred == 0`. -/
  | testBytes (bytesTransferred : ℕ)
  /-- At the critical section of `ProcessSend`. -/
  | checkQueue
  deriving DecidableEq

/-- The send side of a session and the threads that use it. -/
structure State (T P : Type*) where
  /-- `m_bConnected`. -/
  connected : Bool
  /-- `m_bSendRegistered`. -/
  sendRegistered : Bool
  /-- `m_sendBufferQueue`, the oldest packet first. -/
  sendBufferQueue : List P
  /-- `m_sendEvent.m_sendBuffer`. -/
  sendBuffer : List P
  /-- Accepted `WSASend` calls whose completion was not picked up. -/
  outstanding : ℕ
  /-- The threads. -/
  threads : T → Pc P
  /-- History: packets in the order they were queued. -/
  pushed : List P
  /-- History: buffers of every `WSASend`. -/
  issued : List (List P)
  /-- History: buffers of every accepted `WSASend`. -/
  sent : List (List P)
  /-- History: texts given to `HandleError`. -/
  errors : List String

/-- A session that was just connected. -/
def init {T P : Type*} : State T P where
  connected := true
  sendRegistered := false
  sendBufferQueue := []
  sendBuffer := []
  outstanding := 0
  threads _ := .idle
  pushed := []
  issued := []
  sent := []
  errors := []

/-- The steps of a thread and of the environment. -/
inductive Action (P : Type*) where
  /-- The test `!IsConnected()` of `Send`. -/
  | sendCheck (packet : P)
  /-- The critical section of `Send`. -/
  | enqueue
  /-- The test `!IsConnected()` of `RegisterSend`. -/
  | registerCheck
  /-- The critical section of `RegisterSend` and the list made of its result. -/
  | drain
  /-- `WSASend`, accepted or failed at once. -/
  | wsaSend (accepted : Bool)
  /-- `m_sendBuffer.clear()` after a failure. -/
  | clear
  /-- `m_bSendRegistered.store(false)` after a failure, and `HandleError`. -/
  | storeFalse
  /-- A completion is picked up. -/
  | complete (bytesTransferred : ℕ)
  /-- `m_sendBuffer.clear()` of `ProcessSend`. -/
  | clearSent
  /-- The test `bytesTransferred == 0`. -/
  | testBytes
  /-- The critical section of `ProcessSend`. -/
  | checkQueue
  /-- A disconnect by someone else. -/
  | disconnect
  deriving DecidableEq

section System

variable {T P : Type*} [DecidableEq T]

/-- The state with one thread moved on. -/
def State.goto (s : State T P) (t : T) (pc : Pc P) : State T P :=
  { s with threads := Function.update s.threads t pc }

@[simp] theorem goto_self (s : State T P) (t : T) (pc : Pc P) : (s.goto t pc).threads t = pc := by
  rw [State.goto]
  exact Function.update_self t pc s.threads

/-- The other threads stay where they are. -/
theorem goto_of_ne (s : State T P) {t u : T} (pc : Pc P) (h : u ≠ t) :
    (s.goto t pc).threads u = s.threads u := by
  rw [State.goto]
  exact Function.update_of_ne h pc s.threads

/-- One step of a thread. -/
def step (s : State T P) : T × Action P → Option (State T P)
  | (t, .sendCheck packet) =>
    match s.threads t with
    | .idle => some (if s.connected = false then s else s.goto t (.send packet))
    | _ => none
  | (t, .enqueue) =>
    match s.threads t with
    | .send packet => some { (s.goto t (if s.sendRegistered = false then .register else .idle)) with
        sendBufferQueue := s.sendBufferQueue ++ [packet]
        sendRegistered := true
        pushed := s.pushed ++ [packet] }
    | _ => none
  | (t, .registerCheck) =>
    match s.threads t with
    | .register => some (s.goto t (if s.connected = false then .idle else .drain))
    | _ => none
  | (t, .drain) =>
    match s.threads t with
    | .drain => some { (s.goto t (.wsaSend (s.sendBuffer ++ s.sendBufferQueue))) with
        sendBuffer := s.sendBuffer ++ s.sendBufferQueue
        sendBufferQueue := [] }
    | _ => none
  | (t, .wsaSend accepted) =>
    match s.threads t with
    | .wsaSend wsaBuf =>
      if accepted = true then some { (s.goto t .idle) with
        outstanding := s.outstanding + 1
        issued := s.issued ++ [wsaBuf]
        sent := s.sent ++ [wsaBuf] }
      else some { (s.goto t .failed) with issued := s.issued ++ [wsaBuf] }
    | _ => none
  | (t, .clear) =>
    match s.threads t with
    | .failed => some { (s.goto t .cleared) with sendBuffer := [] }
    | _ => none
  | (t, .storeFalse) =>
    match s.threads t with
    | .cleared => some { (s.goto t .idle) with
        sendRegistered := false
        errors := s.errors ++ ["WSASend"] }
    | _ => none
  | (t, .complete bytesTransferred) =>
    match s.threads t, s.outstanding with
    | .idle, n + 1 => some { (s.goto t (.processSend bytesTransferred)) with outstanding := n }
    | _, _ => none
  | (t, .clearSent) =>
    match s.threads t with
    | .processSend bytesTransferred => some { (s.goto t (.testBytes bytesTransferred)) with
        sendBuffer := [] }
    | _ => none
  | (t, .testBytes) =>
    match s.threads t with
    | .testBytes bytesTransferred =>
      if bytesTransferred = 0 then some { (s.goto t .idle) with
        connected := false
        errors := s.errors ++ ["ProcessSend::BytesTransferred Error"] }
      else some (s.goto t .checkQueue)
    | _ => none
  | (t, .checkQueue) =>
    match s.threads t with
    | .checkQueue =>
      if s.sendBufferQueue = [] then some { (s.goto t .idle) with sendRegistered := false }
      else some (s.goto t .register)
    | _ => none
  | (_, .disconnect) => some { s with connected := false }

/-- What one step can do, with what it has tested. -/
inductive Moves (s : State T P) (t : T) : Action P → State T P → Prop
  | ignored (packet : P) (ht : s.threads t = .idle) : Moves s t (.sendCheck packet) s
  | checked (packet : P) (ht : s.threads t = .idle) :
      Moves s t (.sendCheck packet) (s.goto t (.send packet))
  | queued (packet : P) (ht : s.threads t = .send packet) (hf : s.sendRegistered = true) :
      Moves s t .enqueue { (s.goto t .idle) with
        sendBufferQueue := s.sendBufferQueue ++ [packet]
        sendRegistered := true
        pushed := s.pushed ++ [packet] }
  | registered (packet : P) (ht : s.threads t = .send packet) (hf : s.sendRegistered = false) :
      Moves s t .enqueue { (s.goto t .register) with
        sendBufferQueue := s.sendBufferQueue ++ [packet]
        sendRegistered := true
        pushed := s.pushed ++ [packet] }
  | dropped (ht : s.threads t = .register) (hc : s.connected = false) :
      Moves s t .registerCheck (s.goto t .idle)
  | entered (ht : s.threads t = .register) (hc : s.connected = true) :
      Moves s t .registerCheck (s.goto t .drain)
  | drained (ht : s.threads t = .drain) :
      Moves s t .drain { (s.goto t (.wsaSend (s.sendBuffer ++ s.sendBufferQueue))) with
        sendBuffer := s.sendBuffer ++ s.sendBufferQueue
        sendBufferQueue := [] }
  | accepted (wsaBuf : List P) (ht : s.threads t = .wsaSend wsaBuf) :
      Moves s t (.wsaSend true) { (s.goto t .idle) with
        outstanding := s.outstanding + 1
        issued := s.issued ++ [wsaBuf]
        sent := s.sent ++ [wsaBuf] }
  | failed (wsaBuf : List P) (ht : s.threads t = .wsaSend wsaBuf) :
      Moves s t (.wsaSend false) { (s.goto t .failed) with issued := s.issued ++ [wsaBuf] }
  | cleared (ht : s.threads t = .failed) :
      Moves s t .clear { (s.goto t .cleared) with sendBuffer := [] }
  | stored (ht : s.threads t = .cleared) : Moves s t .storeFalse { (s.goto t .idle) with
      sendRegistered := false
      errors := s.errors ++ ["WSASend"] }
  | completed (bytesTransferred n : ℕ) (ht : s.threads t = .idle) (ho : s.outstanding = n + 1) :
      Moves s t (.complete bytesTransferred)
        { (s.goto t (.processSend bytesTransferred)) with outstanding := n }
  | clearedSent (bytesTransferred : ℕ) (ht : s.threads t = .processSend bytesTransferred) :
      Moves s t .clearSent { (s.goto t (.testBytes bytesTransferred)) with sendBuffer := [] }
  | zeroBytes (ht : s.threads t = .testBytes 0) : Moves s t .testBytes { (s.goto t .idle) with
      connected := false
      errors := s.errors ++ ["ProcessSend::BytesTransferred Error"] }
  | someBytes (bytesTransferred : ℕ) (ht : s.threads t = .testBytes bytesTransferred) :
      Moves s t .testBytes (s.goto t .checkQueue)
  | emptied (ht : s.threads t = .checkQueue) (hq : s.sendBufferQueue = []) :
      Moves s t .checkQueue { (s.goto t .idle) with sendRegistered := false }
  | again (ht : s.threads t = .checkQueue) (hq : s.sendBufferQueue ≠ []) :
      Moves s t .checkQueue (s.goto t .register)
  | disconnected : Moves s t .disconnect { s with connected := false }

/-- Every enabled step is one of the moves. -/
theorem step_moves {s s' : State T P} {t : T} {a : Action P} (h : step s (t, a) = some s') :
    Moves s t a s' := by
  cases a with
  | sendCheck packet =>
    simp only [step] at h
    split at h
    · split at h <;> cases h
      · exact .ignored packet ‹_›
      · exact .checked packet ‹_›
    · cases h
  | enqueue =>
    simp only [step] at h
    split at h
    · split at h <;> cases h
      · exact .registered _ ‹_› ‹_›
      · exact .queued _ ‹_› (by simpa using ‹¬ s.sendRegistered = false›)
    · cases h
  | registerCheck =>
    simp only [step] at h
    split at h
    · split at h <;> cases h
      · exact .dropped ‹_› ‹_›
      · exact .entered ‹_› (by simpa using ‹¬ s.connected = false›)
    · cases h
  | drain =>
    simp only [step] at h
    split at h <;> cases h
    exact .drained ‹_›
  | wsaSend accepted =>
    simp only [step] at h
    split at h
    · cases accepted <;> cases h
      · exact .failed _ ‹_›
      · exact .accepted _ ‹_›
    · cases h
  | clear =>
    simp only [step] at h
    split at h <;> cases h
    exact .cleared ‹_›
  | storeFalse =>
    simp only [step] at h
    split at h <;> cases h
    exact .stored ‹_›
  | complete bytesTransferred =>
    simp only [step] at h
    split at h <;> cases h
    exact .completed bytesTransferred _ ‹_› ‹_›
  | clearSent =>
    simp only [step] at h
    split at h <;> cases h
    exact .clearedSent _ ‹_›
  | testBytes =>
    simp only [step] at h
    split at h
    · split at h <;> cases h
      · subst ‹_ = 0›
        exact .zeroBytes ‹_›
      · exact .someBytes _ ‹_›
    · cases h
  | checkQueue =>
    simp only [step] at h
    split at h
    · split at h <;> cases h
      · exact .emptied ‹_› ‹_›
      · exact .again ‹_› ‹_›
    · cases h
  | disconnect =>
    cases h
    exact .disconnected

/-- A thread that owns the right to send: past the exchange or handling a
completion, and not done. -/
def Pc.owner : Pc P → ℕ
  | .idle => 0
  | .send _ => 0
  | .register => 1
  | .drain => 1
  | .wsaSend _ => 1
  | .failed => 1
  | .cleared => 1
  | .processSend _ => 1
  | .testBytes _ => 1
  | .checkQueue => 1

/-- What the position of a thread says about the queue and the shared event. -/
def Pc.Sound (queue sendBuffer : List P) : Pc P → Prop
  | .register => queue ≠ [] ∧ sendBuffer = []
  | .drain => queue ≠ [] ∧ sendBuffer = []
  | .wsaSend wsaBuf => wsaBuf ≠ []
  | .cleared => sendBuffer = []
  | .testBytes _ => sendBuffer = []
  | .checkQueue => sendBuffer = []
  | _ => True

/-- The packets taken from the queue and not handed to `WSASend`. -/
structure Holds (threads : T → Pc P) (batch : List P) : Prop where
  /-- A thread before its `WSASend` holds them. -/
  eq_of_wsaSend : ∀ t wsaBuf, threads t = .wsaSend wsaBuf → wsaBuf = batch
  /-- Without such a thread there are none. -/
  eq_nil_or : batch = [] ∨ ∃ t, threads t = .wsaSend batch

/-- The invariant of the send path. -/
structure Inv [Fintype T] (s : State T P) : Prop where
  /-- The flag stands for the only owner or the only outstanding send. -/
  tokens : ∑ t, (s.threads t).owner + s.outstanding ≤ s.sendRegistered.toNat
  /-- Every position is sound. -/
  sound : ∀ t, (s.threads t).Sound s.sendBufferQueue s.sendBuffer
  /-- Without an owner the shared event is empty. -/
  clean : s.sendRegistered = false → s.sendBuffer = []
  /-- The queued packets are handed out in order. -/
  inOrder : ∃ batch, Holds s.threads batch ∧
    s.issued.flatten ++ batch ++ s.sendBufferQueue = s.pushed
  /-- No `WSASend` was empty. -/
  nonempty : ∀ batch ∈ s.issued, batch ≠ []

omit [DecidableEq T] in
/-- A thread that owns nothing says nothing about the shared data. -/
theorem Pc.sound_of_owner_eq_zero {pc : Pc P} (h : pc.owner = 0) (queue sendBuffer : List P) :
    pc.Sound queue sendBuffer := by
  cases pc <;> trivial

/-- Moving a thread that neither was nor gets before its `WSASend`. -/
theorem Holds.update {threads : T → Pc P} {batch : List P} (h : Holds threads batch) {t : T}
    {pc : Pc P} (ht : ∀ wsaBuf, threads t ≠ .wsaSend wsaBuf) (hpc : ∀ wsaBuf, pc ≠ .wsaSend wsaBuf) :
    Holds (Function.update threads t pc) batch := by
  constructor
  · intro u wsaBuf hu
    by_cases hut : u = t
    · subst hut
      rw [Function.update_self] at hu
      exact (hpc wsaBuf hu).elim
    · rw [Function.update_of_ne hut] at hu
      exact h.eq_of_wsaSend u wsaBuf hu
  · rcases h.eq_nil_or with hnil | ⟨u, hu⟩
    · exact .inl hnil
    · refine .inr ⟨u, ?_⟩
      have hut : u ≠ t := fun he => ht batch (he ▸ hu)
      rw [Function.update_of_ne hut]
      exact hu

section Ownership

variable [Fintype T] {s s' : State T P} {t u : T}

/-- Two owners are the same thread. -/
theorem Inv.owner_unique (inv : Inv s) (ht : (s.threads t).owner = 1)
    (hu : (s.threads u).owner = 1) : t = u := by
  have htokens := inv.tokens
  have hflag := s.sendRegistered.toNat_le
  exact ThreadSum.eq_of_sum_le_one (f := Pc.owner) (g := s.threads) (by omega) (by omega) (by omega)

/-- While a thread is an owner the others say nothing about the shared data. -/
theorem Inv.sound_others (inv : Inv s) (ht : (s.threads t).owner = 1) (hu : u ≠ t)
    (queue sendBuffer : List P) : (s.threads u).Sound queue sendBuffer := by
  apply Pc.sound_of_owner_eq_zero
  by_contra hne
  have hone : (s.threads u).owner = 1 := by
    cases hpc : s.threads u <;> rw [hpc] at hne <;> first | rfl | exact (hne rfl).elim
  exact hu (inv.owner_unique hone ht)

omit [DecidableEq T] in
/-- An owner implies the flag and excludes an outstanding send. -/
theorem Inv.registered_of_owner (inv : Inv s) (ht : (s.threads t).owner = 1) :
    s.sendRegistered = true ∧ s.outstanding = 0 ∧ ∑ v, (s.threads v).owner = 1 := by
  have htokens := inv.tokens
  have hle := ThreadSum.le_sum Pc.owner s.threads t
  cases hf : s.sendRegistered <;> rw [hf] at htokens <;>
    simp only [Bool.toNat_true, Bool.toNat_false] at htokens
  · omega
  · exact ⟨rfl, by omega, by omega⟩

/-- A step moves the right to send together with the flag. The right is lost
only where a disconnected session leaves the flag set. -/
theorem tokens_conserved (inv : Inv s) {a : Action P} (h : Moves s t a s') :
    ∑ v, (s'.threads v).owner + s'.outstanding + s.sendRegistered.toNat ≤
        ∑ v, (s.threads v).owner + s.outstanding + s'.sendRegistered.toNat ∧
      (s'.connected = true →
        ∑ v, (s'.threads v).owner + s'.outstanding + s.sendRegistered.toNat =
          ∑ v, (s.threads v).owner + s.outstanding + s'.sendRegistered.toNat) := by
  have hsum := ThreadSum.sum_update Pc.owner s.threads t
  cases h with
  | ignored packet ht => exact ⟨le_rfl, fun _ => rfl⟩
  | checked packet ht =>
    have hs := hsum (.send packet)
    simp only [ht, Pc.owner, State.goto] at hs ⊢
    omega
  | queued packet ht hf =>
    have hs := hsum .idle
    simp only [ht, hf, Pc.owner, State.goto, Bool.toNat_true] at hs ⊢
    omega
  | registered packet ht hf =>
    have hs := hsum .register
    simp only [ht, hf, Pc.owner, State.goto, Bool.toNat_true, Bool.toNat_false] at hs ⊢
    omega
  | dropped ht hc =>
    have hs := hsum .idle
    simp only [ht, Pc.owner, State.goto] at hs ⊢
    refine ⟨by omega, fun hc' => ?_⟩
    rw [hc] at hc'
    cases hc'
  | entered ht hc =>
    have hs := hsum .drain
    simp only [ht, Pc.owner, State.goto] at hs ⊢
    omega
  | drained ht =>
    have hs := hsum (.wsaSend (s.sendBuffer ++ s.sendBufferQueue))
    simp only [ht, Pc.owner, State.goto] at hs ⊢
    omega
  | accepted wsaBuf ht =>
    have hs := hsum .idle
    simp only [ht, Pc.owner, State.goto] at hs ⊢
    omega
  | failed wsaBuf ht =>
    have hs := hsum .failed
    simp only [ht, Pc.owner, State.goto] at hs ⊢
    omega
  | cleared ht =>
    have hs := hsum .cleared
    simp only [ht, Pc.owner, State.goto] at hs ⊢
    omega
  | stored ht =>
    have hown := (inv.registered_of_owner (t := t) (by rw [ht]; rfl)).1
    have hs := hsum .idle
    simp only [ht, hown, Pc.owner, State.goto, Bool.toNat_true, Bool.toNat_false] at hs ⊢
    omega
  | completed bytesTransferred n ht ho =>
    have hs := hsum (.processSend bytesTransferred)
    simp only [ht, ho, Pc.owner, State.goto] at hs ⊢
    omega
  | clearedSent bytesTransferred ht =>
    have hs := hsum (.testBytes bytesTransferred)
    simp only [ht, Pc.owner, State.goto] at hs ⊢
    omega
  | zeroBytes ht =>
    have hs := hsum .idle
    simp only [ht, Pc.owner, State.goto] at hs ⊢
    exact ⟨by omega, fun hc => (nomatch hc)⟩
  | someBytes bytesTransferred ht =>
    have hs := hsum .checkQueue
    simp only [ht, Pc.owner, State.goto] at hs ⊢
    omega
  | emptied ht hq =>
    have hown := (inv.registered_of_owner (t := t) (by rw [ht]; rfl)).1
    have hs := hsum .idle
    simp only [ht, hown, Pc.owner, State.goto, Bool.toNat_true, Bool.toNat_false] at hs ⊢
    omega
  | again ht hq =>
    have hs := hsum .register
    simp only [ht, Pc.owner, State.goto] at hs ⊢
    omega
  | disconnected => exact ⟨le_rfl, fun _ => rfl⟩

/-- A step keeps one owner or outstanding send for the flag. -/
theorem tokens_step (inv : Inv s) {a : Action P} (h : Moves s t a s') :
    ∑ v, (s'.threads v).owner + s'.outstanding ≤ s'.sendRegistered.toNat := by
  have htokens := inv.tokens
  have hmove := (tokens_conserved inv h).1
  omega

omit [DecidableEq T] [Fintype T] in
/-- Queueing a packet keeps a position sound. -/
theorem Pc.Sound.enqueue {pc : Pc P} {queue sendBuffer : List P} (h : pc.Sound queue sendBuffer)
    (packet : P) : pc.Sound (queue ++ [packet]) sendBuffer := by
  cases pc with
  | register => exact ⟨by simp, h.2⟩
  | drain => exact ⟨by simp, h.2⟩
  | _ => exact h

omit [DecidableEq T] [Fintype T] in
/-- Clearing the shared event keeps a position sound. -/
theorem Pc.Sound.clear {pc : Pc P} {queue sendBuffer : List P} (h : pc.Sound queue sendBuffer) :
    pc.Sound queue [] := by
  cases pc with
  | register => exact ⟨h.1, rfl⟩
  | drain => exact ⟨h.1, rfl⟩
  | wsaSend wsaBuf => exact h
  | _ => trivial

omit [Fintype T] in
/-- All positions are sound when the new one and the others are. -/
theorem sound_goto (s : State T P) (t : T) (pc : Pc P) {queue sendBuffer : List P}
    (ht : pc.Sound queue sendBuffer)
    (hothers : ∀ u, u ≠ t → (s.threads u).Sound queue sendBuffer) (u : T) :
    ((s.goto t pc).threads u).Sound queue sendBuffer := by
  by_cases hu : u = t
  · subst hu
    rw [goto_self]
    exact ht
  · rw [goto_of_ne s pc hu]
    exact hothers u hu

/-- A step keeps every position sound. -/
theorem sound_step (inv : Inv s) {a : Action P} (h : Moves s t a s') (u : T) :
    (s'.threads u).Sound s'.sendBufferQueue s'.sendBuffer := by
  have hsound := inv.sound
  have hothers : ∀ v, v ≠ t → (s.threads v).Sound s.sendBufferQueue s.sendBuffer :=
    fun v _ => hsound v
  have ht := hsound t
  cases h with
  | ignored packet hpc => exact hsound u
  | checked packet hpc => exact sound_goto s t (.send packet) trivial hothers u
  | queued packet hpc hf =>
    exact sound_goto s t .idle trivial (fun v hv => (hothers v hv).enqueue packet) u
  | registered packet hpc hf =>
    exact sound_goto s t .register ⟨by simp, inv.clean hf⟩
      (fun v hv => (hothers v hv).enqueue packet) u
  | dropped hpc hc => exact sound_goto s t .idle trivial hothers u
  | entered hpc hc =>
    rw [hpc] at ht
    exact sound_goto s t .drain ht hothers u
  | drained hpc =>
    rw [hpc] at ht
    have hown : (s.threads t).owner = 1 := by rw [hpc]; rfl
    have hne : s.sendBuffer ++ s.sendBufferQueue ≠ [] :=
      fun hnil => ht.1 (List.append_eq_nil_iff.mp hnil).2
    exact sound_goto s t (.wsaSend _) hne (fun v hv => inv.sound_others hown hv _ _) u
  | accepted wsaBuf hpc => exact sound_goto s t .idle trivial hothers u
  | failed wsaBuf hpc => exact sound_goto s t .failed trivial hothers u
  | cleared hpc => exact sound_goto s t .cleared rfl (fun v hv => (hothers v hv).clear) u
  | stored hpc => exact sound_goto s t .idle trivial hothers u
  | completed bytesTransferred n hpc ho =>
    exact sound_goto s t (.processSend bytesTransferred) trivial hothers u
  | clearedSent bytesTransferred hpc =>
    exact sound_goto s t (.testBytes bytesTransferred) rfl (fun v hv => (hothers v hv).clear) u
  | zeroBytes hpc => exact sound_goto s t .idle trivial hothers u
  | someBytes bytesTransferred hpc =>
    rw [hpc] at ht
    exact sound_goto s t .checkQueue ht hothers u
  | emptied hpc hq => exact sound_goto s t .idle trivial hothers u
  | again hpc hq =>
    rw [hpc] at ht
    exact sound_goto s t .register ⟨hq, ht⟩ hothers u
  | disconnected => exact hsound u

/-- A step keeps the shared event empty while nobody owns the flag. -/
theorem clean_step (inv : Inv s) {a : Action P} (h : Moves s t a s')
    (hf : s'.sendRegistered = false) : s'.sendBuffer = [] := by
  have hclean := inv.clean
  have ht := inv.sound t
  cases h with
  | drained hpc =>
    have hown := inv.registered_of_owner (t := t) (by rw [hpc]; rfl)
    simp only [State.goto, hown.1, Bool.true_eq_false] at hf
  | cleared hpc => rfl
  | stored hpc =>
    rw [hpc] at ht
    exact ht
  | clearedSent bytesTransferred hpc => rfl
  | emptied hpc hq =>
    rw [hpc] at ht
    exact ht
  | queued packet hpc hreg => cases hf
  | registered packet hpc hreg => cases hf
  | _ => exact hclean hf

/-- Queued packets stay in order when a thread moves between positions that hold
no packets. -/
theorem inOrder_frame (inv : Inv s) {pc : Pc P} (ht : ∀ wsaBuf, s.threads t ≠ .wsaSend wsaBuf)
    (hpc : ∀ wsaBuf, pc ≠ .wsaSend wsaBuf) (packets : List P) :
    ∃ batch, Holds (s.goto t pc).threads batch ∧
      s.issued.flatten ++ batch ++ (s.sendBufferQueue ++ packets) = s.pushed ++ packets := by
  obtain ⟨batch, holds, horder⟩ := inv.inOrder
  exact ⟨batch, holds.update ht hpc, by rw [← horder, List.append_assoc _ _ packets]⟩

/-- The packets handed to `WSASend` follow those handed over before, and nobody
holds packets then. -/
theorem inOrder_issued (inv : Inv s) {wsaBuf : List P} {pc : Pc P}
    (ht : s.threads t = .wsaSend wsaBuf) (hpc : ∀ wsaBuf, pc ≠ .wsaSend wsaBuf) :
    ∃ batch, Holds (s.goto t pc).threads batch ∧
      (s.issued ++ [wsaBuf]).flatten ++ batch ++ s.sendBufferQueue = s.pushed := by
  obtain ⟨batch, holds, horder⟩ := inv.inOrder
  have hown : (s.threads t).owner = 1 := by rw [ht]; rfl
  refine ⟨[], ⟨?_, .inl rfl⟩, ?_⟩
  · intro u wsaBuf' hu
    by_cases hut : u = t
    · subst hut
      rw [goto_self] at hu
      exact (hpc wsaBuf' hu).elim
    · rw [goto_of_ne s pc hut] at hu
      exact (hut (inv.owner_unique (by rw [hu]; rfl) hown)).elim
  · rw [List.flatten_append, List.flatten_singleton, List.append_nil,
      holds.eq_of_wsaSend t wsaBuf ht]
    exact horder

/-- A step keeps the packets in order. -/
theorem inOrder_step (inv : Inv s) {a : Action P} (h : Moves s t a s') :
    ∃ batch, Holds s'.threads batch ∧
      s'.issued.flatten ++ batch ++ s'.sendBufferQueue = s'.pushed := by
  obtain ⟨batch, holds, horder⟩ := inv.inOrder
  cases h with
  | ignored packet hpc => exact ⟨batch, holds, horder⟩
  | checked packet hpc => exact ⟨batch, holds.update (by simp [hpc]) (by simp), horder⟩
  | queued packet hpc hf => exact inOrder_frame inv (by simp [hpc]) (by simp) [packet]
  | registered packet hpc hf => exact inOrder_frame inv (by simp [hpc]) (by simp) [packet]
  | dropped hpc hc => exact ⟨batch, holds.update (by simp [hpc]) (by simp), horder⟩
  | entered hpc hc => exact ⟨batch, holds.update (by simp [hpc]) (by simp), horder⟩
  | drained hpc =>
    -- no other thread holds packets, and the shared event is empty
    have hown : (s.threads t).owner = 1 := by rw [hpc]; rfl
    have hsound := inv.sound t
    rw [hpc] at hsound
    have hnil : batch = [] := by
      rcases holds.eq_nil_or with hnil | ⟨u, hu⟩
      · exact hnil
      · have hut : u = t := inv.owner_unique (by rw [hu]; rfl) hown
        rw [hut, hpc] at hu
        cases hu
    rw [hnil, List.append_nil] at horder
    refine ⟨s.sendBuffer ++ s.sendBufferQueue, ⟨?_, .inr ⟨t, goto_self s t _⟩⟩, ?_⟩
    · intro u wsaBuf hu
      by_cases hut : u = t
      · subst hut
        exact (Pc.wsaSend.inj ((goto_self s u _).symm.trans hu)).symm
      · have hu' := (goto_of_ne s _ hut).symm.trans hu
        exact (hut (inv.owner_unique (by rw [hu']; rfl) hown)).elim
    · rw [hsound.2, List.nil_append, List.append_nil]
      exact horder
  | accepted wsaBuf hpc => exact inOrder_issued inv hpc (by simp)
  | failed wsaBuf hpc => exact inOrder_issued inv hpc (by simp)
  | cleared hpc => exact ⟨batch, holds.update (by simp [hpc]) (by simp), horder⟩
  | stored hpc => exact ⟨batch, holds.update (by simp [hpc]) (by simp), horder⟩
  | completed bytesTransferred n hpc ho =>
    exact ⟨batch, holds.update (by simp [hpc]) (by simp), horder⟩
  | clearedSent bytesTransferred hpc =>
    exact ⟨batch, holds.update (by simp [hpc]) (by simp), horder⟩
  | zeroBytes hpc => exact ⟨batch, holds.update (by simp [hpc]) (by simp), horder⟩
  | someBytes bytesTransferred hpc =>
    exact ⟨batch, holds.update (by simp [hpc]) (by simp), horder⟩
  | emptied hpc hq => exact ⟨batch, holds.update (by simp [hpc]) (by simp), horder⟩
  | again hpc hq => exact ⟨batch, holds.update (by simp [hpc]) (by simp), horder⟩
  | disconnected => exact ⟨batch, holds, horder⟩

/-- No `WSASend` is issued without buffers. -/
theorem nonempty_step (inv : Inv s) {a : Action P} (h : Moves s t a s') :
    ∀ batch ∈ s'.issued, batch ≠ [] := by
  have hissued : ∀ wsaBuf, s.threads t = .wsaSend wsaBuf →
      ∀ batch ∈ s.issued ++ [wsaBuf], batch ≠ [] := by
    intro wsaBuf hpc batch hb
    have hsound := inv.sound t
    rw [hpc] at hsound
    rcases List.mem_append.mp hb with hb | hb
    · exact inv.nonempty batch hb
    · rw [List.mem_singleton.mp hb]
      exact hsound
  cases h with
  | accepted wsaBuf hpc => exact hissued wsaBuf hpc
  | failed wsaBuf hpc => exact hissued wsaBuf hpc
  | _ => exact inv.nonempty

/-- Every step keeps the invariant. -/
theorem inv_step (inv : Inv s) {a : T × Action P} (h : step s a = some s') : Inv s' := by
  obtain ⟨t, a⟩ := a
  have hm := step_moves h
  exact ⟨tokens_step inv hm, sound_step inv hm, clean_step inv hm, inOrder_step inv hm,
    nonempty_step inv hm⟩

omit [DecidableEq T] in
/-- The initial state satisfies the invariant. -/
theorem inv_init : Inv (init : State T P) where
  tokens := by simp [init, Pc.owner]
  sound _ := trivial
  clean _ := rfl
  inOrder := ⟨[], ⟨fun _ _ h => (nomatch h), .inl rfl⟩, rfl⟩
  nonempty _ h := (List.not_mem_nil h).elim

/-- The invariant holds in every reachable state. -/
theorem inv_reachable (h : Reachable step (init : State T P) s) : Inv s :=
  h.invariant inv_init fun _ _ _ inv hs => inv_step inv hs

end Ownership

/-- What the flag guarantees in every state. -/
structure SingleFlight [Fintype T] (s : State T P) : Prop where
  /-- One thread inside `RegisterSend` or `ProcessSend`, or one outstanding
  `WSASend`, or none. -/
  one_owner : ∑ t, (s.threads t).owner + s.outstanding ≤ 1
  /-- Every `WSASend` was issued with a buffer. -/
  nonempty : ∀ batch ∈ s.issued, batch ≠ []
  /-- The buffers issued are the first packets queued, each once, in order. -/
  inOrder : s.issued.flatten <+: s.pushed

/-- In every interleaving of senders and completion threads at most one send is
under way, no `WSASend` is empty, and the packets are handed over in order. -/
theorem send_single_flight [Fintype T] {s : State T P}
    (h : Reachable step (init : State T P) s) : SingleFlight s := by
  have inv := inv_reachable h
  have hflag := s.sendRegistered.toNat_le
  have htokens := inv.tokens
  obtain ⟨batch, -, horder⟩ := inv.inOrder
  refine ⟨by omega, inv.nonempty, ?_⟩
  rw [← horder, List.append_assoc]
  exact List.prefix_append _ _

/-- Two senders; the second packet is queued while the first is sent. -/
def twoSends : List (Bool × Action ℕ) :=
  [(true, .sendCheck 1), (true, .enqueue), (true, .registerCheck), (true, .drain),
    (false, .sendCheck 2), (false, .enqueue), (true, .wsaSend true), (false, .complete 8),
    (false, .clearSent), (false, .testBytes), (false, .checkQueue), (false, .registerCheck),
    (false, .drain), (false, .wsaSend true)]

/-- The guarantees while the second packet is in flight. -/
theorem send_single_flight_two : ∃ s, run step (init : State Bool ℕ) twoSends = some s ∧
    SingleFlight s := by
  have h : (run step (init : State Bool ℕ) twoSends).isSome = true := by decide
  obtain ⟨s, hs⟩ := Option.isSome_iff_exists.mp h
  exact ⟨s, hs, send_single_flight ⟨twoSends, hs⟩⟩

end System

end RioIocpServer.IocpSend
