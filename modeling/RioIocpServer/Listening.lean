import RioIocpServer.ReceivePath
import RioIocpServer.ThreadSum

/-!
# The outstanding receive of a session

A thread runs `ProcessConnect` once, and any thread may dequeue a completed receive and
run `ProcessRecv`; both end with `RegisterRecv`, which posts the next receive, or not.
What the system answers, how many bytes arrive and what they are is part of the actions,
and a disconnect by another thread, by `OnConnected` or by a packet handler may come at
any time.
-/

namespace RioIocpServer

open CyclicMemory TransitionSystem

namespace RecvSession

/-- What `ProcessRecv` has done when it comes to `RegisterRecv`, or to the error behind
which it disconnects. -/
structure Processed where
  /-- The buffer. -/
  recvBuffer : RingBuffer UInt8
  /-- The packets handed to `OnRecvPacket`. -/
  packets : List (List UInt8)
  /-- The text of the error. -/
  error : Option String

/-- `ProcessRecv` in front of `RegisterRecv`; `none` is an `OnRecv` that does not end. -/
def processBytes (zeroBytes overflow readError : String)
    (onRecv : (ℤ → UInt8) → ℤ → Option (ℤ × List (List UInt8)))
    (recvBuffer : RingBuffer UInt8) (bytesTransferred : ℤ) : Option Processed :=
  if bytesTransferred = 0 then some ⟨recvBuffer, [], some zeroBytes⟩
  else
    match recvBuffer.onWriteBuffer bytesTransferred with
    | (false, _) => some ⟨recvBuffer, [], some overflow⟩
    | (true, written) =>
      let dataSize := written.getDataSize
      match onRecv (fun i => written.buffer (written.getReadOffset + i)) dataSize with
      | none => none
      | some (processLen, packets) =>
        if processLen < 0 ∨ dataSize < processLen then some ⟨written, packets, some readError⟩
        else
          match written.onReadBuffer processLen with
          | (false, _) => some ⟨written, packets, some readError⟩
          | (true, consumed) => some ⟨consumed.adjustPos, packets, none⟩

/-- The end of `ProcessRecv`. -/
def finishRecv (registerRecv : RecvSession → Bool → RecvSession) (s : RecvSession)
    (accepted : Bool) (processed : Processed) : RecvSession :=
  let s := { s with
    recvBuffer := processed.recvBuffer
    posted := none
    handled := s.handled ++ processed.packets }
  match processed.error with
  | some text => (s.handleError text).disconnect
  | none => registerRecv s accepted

/-- `ProcessRecv` is its first part and its end. -/
theorem processRecv_eq (zeroBytes overflow readError : String)
    (onRecv : (ℤ → UInt8) → ℤ → Option (ℤ × List (List UInt8)))
    (registerRecv : RecvSession → Bool → RecvSession) (s : RecvSession) (n : ℤ)
    (accepted : Bool) :
    processRecv zeroBytes overflow readError onRecv registerRecv s n accepted =
      (processBytes zeroBytes overflow readError onRecv s.recvBuffer n).map
        (finishRecv registerRecv s accepted) := by
  unfold processRecv processBytes
  by_cases hzero : n = 0
  · rw [if_pos hzero, if_pos hzero]
    simp [finishRecv]
  · rw [if_neg hzero, if_neg hzero]
    dsimp only
    obtain ⟨fits, written⟩ := s.recvBuffer.onWriteBuffer n
    cases fits with
    | false => simp [finishRecv]
    | true =>
      dsimp only
      cases onRecv (fun i => written.buffer (written.getReadOffset + i)) written.getDataSize with
      | none => rfl
      | some result =>
        dsimp only
        by_cases hlen : result.1 < 0 ∨ written.getDataSize < result.1
        · rw [if_pos hlen, if_pos hlen]
          rfl
        · rw [if_neg hlen, if_neg hlen]
          obtain ⟨read, consumed⟩ := written.onReadBuffer result.1
          cases read <;> rfl

end RecvSession

namespace SessionClass

/-- `ProcessRecv` of the class in front of `RegisterRecv`. -/
def processBytes : SessionClass → RingBuffer UInt8 → ℤ → Option RecvSession.Processed
  | rio => RecvSession.processBytes "bytesTransferred == 0" "Buffer Overflow"
      "RecvBuffer Read Error" RioSession.onRecv
  | iocp => RecvSession.processBytes "ProcessRecv::ByteTransferred Error"
      "ProcessRecv::OnWrite Error" "ProcessRecv::OnRecv Error" IocpSession.onRecv

/-- `ProcessRecv` of either class is its first part and its end. -/
theorem processRecv_eq (c : SessionClass) (s : RecvSession) (n : ℤ) (accepted : Bool) :
    c.processRecv s n accepted = (c.processBytes s.recvBuffer n).map
      (RecvSession.finishRecv c.registerRecv s accepted) := by
  cases c <;> exact RecvSession.processRecv_eq ..

end SessionClass

namespace Listening

/-- What a thread does next for the session. -/
inductive Pc where
  /-- Nothing: it is outside of `ProcessConnect` and `ProcessRecv`. -/
  | outside
  /-- `ProcessRecv` with the byte count of the completion. -/
  | process (bytesTransferred : ℤ)
  /-- The test `IsConnected` of `RegisterRecv`. -/
  | register
  /-- `WSARecv` or `RIOReceive`. -/
  | receive
  /-- `Disconnect` behind a refused `RIOReceive`. -/
  | disconnect
  deriving DecidableEq

/-- A session, its receives and the threads. -/
structure State (T : Type*) where
  /-- `m_bConnected`. -/
  connected : Bool
  /-- `ProcessConnect` has begun. -/
  started : Bool
  /-- The buffer received into. -/
  recvBuffer : RingBuffer UInt8
  /-- The receives posted and not dequeued, the oldest one first. -/
  outstanding : List Window
  /-- The threads. -/
  pc : T → Pc
  /-- History: texts given to `HandleError`. -/
  errors : List String

/-- The steps. -/
inductive Action (T : Type*) where
  /-- `ProcessConnect`, up to `RegisterRecv`. -/
  | processConnect (t : T)
  /-- `Disconnect` by another thread, by `OnConnected` or by a handler. -/
  | disconnect
  /-- A completed receive with its bytes is dequeued. -/
  | complete (t : T) (segment : List UInt8) (bytesTransferred : ℤ)
  /-- `ProcessRecv`, up to `RegisterRecv`. -/
  | process (t : T)
  /-- The test of `RegisterRecv`. -/
  | register (t : T)
  /-- `WSARecv` or `RIOReceive` returns; accepted are success and `ERROR_IO_PENDING`. -/
  | receive (t : T) (accepted : Bool)
  /-- `Disconnect` behind a refused `RIOReceive`. -/
  | disconnectRefused (t : T)

section System

variable {T : Type*} [DecidableEq T]

/-- A session in front of `ProcessConnect`, with a fresh buffer. -/
def init (memory : ℤ → UInt8) : State T where
  connected := false
  started := false
  recvBuffer := RingBuffer.new memory ReceivePath.bufferSize
  outstanding := []
  pc _ := .outside
  errors := []

/-- A thread goes on. -/
def State.goto (s : State T) (t : T) (pc : Pc) : State T :=
  { s with pc := Function.update s.pc t pc }

omit [DecidableEq T] in
/-- `HandleError`. -/
def State.handleError (s : State T) (text : String) : State T :=
  { s with errors := s.errors ++ [text] }

/-- What `RegisterRecv` of a class does behind a refused receive. -/
def afterRefusal : SessionClass → Pc
  | .rio => .disconnect
  | .iocp => .outside

/-- One step. The result of `InitSession` is not looked at in `ProcessConnect`. -/
def step (c : SessionClass) (s : State T) : Action T → Option (State T)
  | .processConnect t =>
    if s.started = false ∧ s.pc t = .outside then
      some ({ s with started := true, connected := true }.goto t .register)
    else none
  | .disconnect => some { s with connected := false }
  | .complete t segment bytesTransferred =>
    match s.outstanding with
    | [] => none
    | window :: rest =>
      if s.pc t = .outside then
        some ({ s with
          outstanding := rest
          recvBuffer := s.recvBuffer.withMemory
            (store s.recvBuffer.buffer window.offset segment) }.goto t
          (.process bytesTransferred))
      else none
  | .process t =>
    match s.pc t with
    | .process bytesTransferred =>
      (c.processBytes s.recvBuffer bytesTransferred).map fun processed =>
        match processed.error with
        | some text => ({ s.handleError text with
            recvBuffer := processed.recvBuffer
            connected := false }.goto t .outside)
        | none => { s with recvBuffer := processed.recvBuffer }.goto t .register
    | _ => none
  | .register t =>
    if s.pc t = .register then
      some (s.goto t (if s.connected = true then .receive else .outside))
    else none
  | .receive t accepted =>
    if s.pc t = .receive then
      if accepted = true then
        let window := ⟨s.recvBuffer.getWriteOffset, s.recvBuffer.getChunkWriteSize⟩
        some ({ s with outstanding := s.outstanding ++ [window] }.goto t .outside)
      else some ((s.handleError c.refusedText).goto t (afterRefusal c))
    else none
  | .disconnectRefused t =>
    if s.pc t = .disconnect then some ({ s with connected := false }.goto t .outside) else none

omit [DecidableEq T] in
/-- A connected session is listening, once. -/
structure Listens (s : State T) : Prop where
  /-- Outside of `ProcessConnect` and `ProcessRecv` a connected session has one receive. -/
  listens : (∀ t, s.pc t = .outside) → s.connected = true → s.outstanding.length = 1
  /-- There are never two receives. -/
  once : s.outstanding.length ≤ 1

omit [DecidableEq T] in
/-- `WSARecv` of a connected session is accepted. -/
def Accepted (c : SessionClass) (s : State T) : Action T → Prop
  | .receive _ accepted => c = .iocp → s.connected = true → accepted = true
  | _ => True

instance (c : SessionClass) (s : State T) : DecidablePred (Accepted c s)
  | .receive _ accepted =>
    inferInstanceAs (Decidable (c = .iocp → s.connected = true → accepted = true))
  | .processConnect _ => isTrue trivial
  | .disconnect => isTrue trivial
  | .complete _ _ _ => isTrue trivial
  | .process _ => isTrue trivial
  | .register _ => isTrue trivial
  | .disconnectRefused _ => isTrue trivial

/-- Where the receiving of a session stands. -/
inductive Stage (s : State T) : Prop
  /-- `ProcessConnect` has not begun. -/
  | fresh (hstarted : s.started = false) (hflag : s.connected = false)
      (hout : ∀ t, s.pc t = .outside) (hnone : s.outstanding = [])
  /-- One thread is inside `ProcessConnect` or `ProcessRecv`. -/
  | inside (t : T) (hstarted : s.started = true) (hpc : s.pc t ≠ .outside)
      (hout : ∀ u, u ≠ t → s.pc u = .outside) (hnone : s.outstanding = [])
  /-- One receive is posted. -/
  | posted (window : Window) (hstarted : s.started = true) (hout : ∀ t, s.pc t = .outside)
      (hone : s.outstanding = [window])
  /-- The session is disconnected, and no receive is left. -/
  | ended (hstarted : s.started = true) (hflag : s.connected = false)
      (hout : ∀ t, s.pc t = .outside) (hnone : s.outstanding = [])

section Steps

variable {c : SessionClass} {s s' : State T} {t : T} {a : Action T} {pc : Pc}

omit [DecidableEq T] in
/-- Every stage is listening. -/
theorem Stage.listens (stage : Stage s) : Listens s := by
  cases stage with
  | fresh _ hflag _ hnone | ended _ hflag _ hnone =>
    refine ⟨fun _ hconnected => ?_, by simp [hnone]⟩
    rw [hflag] at hconnected
    cases hconnected
  | inside t _ hpc _ hnone => exact ⟨fun hout => (hpc (hout t)).elim, by simp [hnone]⟩
  | posted window _ _ hone => exact ⟨fun _ _ => by simp [hone], by simp [hone]⟩

omit [DecidableEq T] in
/-- A thread that is inside is the only one, and no receive is posted. -/
theorem Stage.inside_of (stage : Stage s) (hpc : s.pc t ≠ .outside) :
    s.started = true ∧ (∀ u, u ≠ t → s.pc u = .outside) ∧ s.outstanding = [] := by
  cases stage with
  | inside v hstarted _ hout hnone =>
    obtain rfl := ThreadSum.eq_of_alone hout hpc
    exact ⟨hstarted, hout, hnone⟩
  | fresh _ _ hout | posted _ _ hout | ended _ _ hout => exact (hpc (hout t)).elim

omit [DecidableEq T] in
/-- A receive that is posted is the only one, and nobody is inside. -/
theorem Stage.posted_of (stage : Stage s) {window : Window} {rest : List Window}
    (h : s.outstanding = window :: rest) :
    s.started = true ∧ (∀ u, s.pc u = .outside) ∧ rest = [] := by
  cases stage with
  | posted w hstarted hout hone =>
    rw [hone] at h
    cases h
    exact ⟨hstarted, hout, rfl⟩
  | fresh _ _ _ hnone | inside _ _ _ _ hnone | ended _ _ _ hnone =>
    rw [hnone] at h
    cases h

omit [DecidableEq T] in
/-- In front of `ProcessConnect` nothing is posted. -/
theorem Stage.fresh_of (stage : Stage s) (hfresh : s.started = false) :
    (∀ u, s.pc u = .outside) ∧ s.outstanding = [] := by
  cases stage with
  | fresh _ _ hout hnone => exact ⟨hout, hnone⟩
  | inside _ hstarted | posted _ hstarted | ended hstarted =>
    rw [hfresh] at hstarted
    cases hstarted

omit [DecidableEq T] in
/-- A disconnect leaves the threads and the receives. -/
theorem Stage.disconnect (stage : Stage s) : Stage { s with connected := false } := by
  cases stage with
  | fresh hstarted _ hout hnone => exact .fresh hstarted rfl hout hnone
  | inside t hstarted hpc hout hnone => exact .inside t hstarted hpc hout hnone
  | posted window hstarted hout hone => exact .posted window hstarted hout hone
  | ended hstarted _ hout hnone => exact .ended hstarted rfl hout hnone

/-- A thread that goes on inside stays the only one. -/
theorem stage_goto_inside (hstarted : s.started = true)
    (hout : ∀ u, u ≠ t → s.pc u = .outside) (hnone : s.outstanding = []) (hpc : pc ≠ .outside) :
    Stage (s.goto t pc) := by
  refine .inside t hstarted ?_ (fun u hu => ?_) hnone
  · dsimp only [State.goto]
    rw [Function.update_self]
    exact hpc
  · dsimp only [State.goto]
    rw [Function.update_of_ne hu]
    exact hout u hu

/-- A thread that leaves leaves nobody inside. -/
theorem goto_outside (hout : ∀ u, u ≠ t → s.pc u = .outside) (u : T) :
    (s.goto t .outside).pc u = .outside := ThreadSum.update_alone hout u

/-- A thread that leaves a disconnected session ends its receiving. -/
theorem stage_goto_ended (hstarted : s.started = true) (hflag : s.connected = false)
    (hout : ∀ u, u ≠ t → s.pc u = .outside) (hnone : s.outstanding = []) :
    Stage (s.goto t .outside) :=
  .ended hstarted hflag (goto_outside hout) hnone

/-- `ProcessRecv` comes to `RegisterRecv` or disconnects. -/
theorem stage_process (stage : Stage s) (h : step c s (.process t) = some s') : Stage s' := by
  simp only [step] at h
  split at h
  · rename_i n hpc
    obtain ⟨hstarted, hout, hnone⟩ := stage.inside_of (by rw [hpc]; simp)
    obtain ⟨processed, -, hs'⟩ := Option.map_eq_some_iff.mp h
    split at hs' <;> subst hs'
    · exact stage_goto_ended hstarted rfl hout hnone
    · exact stage_goto_inside hstarted hout hnone (by simp)
  · cases h

/-- `RegisterRecv` posts the next receive, or finds or leaves the session disconnected,
unless `WSARecv` of a connected session is refused. -/
theorem stage_receive {accepted : Bool} (stage : Stage s)
    (haccepted : Accepted c s (.receive t accepted))
    (h : step c s (.receive t accepted) = some s') : Stage s' := by
  simp only [step] at h
  split at h
  · rename_i hpc
    obtain ⟨hstarted, hout, hnone⟩ := stage.inside_of (by rw [hpc]; simp)
    split at h
    · cases h
      exact .posted _ hstarted (goto_outside hout) (congrArg (· ++ [_]) hnone)
    · rename_i hrefused
      cases h
      cases c with
      | rio => exact stage_goto_inside hstarted hout hnone (by simp [afterRefusal])
      | iocp =>
        have hflag : s.connected = false := by
          by_contra hconnected
          exact hrefused (haccepted rfl (by simpa using hconnected))
        exact stage_goto_ended hstarted hflag hout hnone
  · cases h

/-- A refused `WSARecv` leaves a connected session without a receive. -/
theorem deaf_receive {accepted : Bool} (stage : Stage s)
    (hrefused : ¬ Accepted c s (.receive t accepted))
    (h : step c s (.receive t accepted) = some s') : ¬ Listens s' := by
  simp only [Accepted, Classical.not_imp] at hrefused
  obtain ⟨rfl, hconnected, hnot⟩ := hrefused
  simp only [step] at h
  split at h
  · rename_i hpc
    obtain ⟨-, hout, hnone⟩ := stage.inside_of (by rw [hpc]; simp)
    cases h
    intro listens
    have hone : s.outstanding.length = 1 := listens.listens (goto_outside hout) hconnected
    rw [hnone] at hone
    cases hone
  · cases h

/-- A step keeps the stage if it refuses no `WSARecv` of a connected session. -/
theorem stage_step (stage : Stage s) (haccepted : Accepted c s a) (h : step c s a = some s') :
    Stage s' := by
  cases a with
  | processConnect t =>
    simp only [step] at h
    split at h
    · rename_i hfresh
      cases h
      obtain ⟨hout, hnone⟩ := stage.fresh_of hfresh.1
      exact stage_goto_inside rfl (fun u _ => hout u) hnone (by simp)
    · cases h
  | disconnect =>
    cases h
    exact stage.disconnect
  | complete t segment n =>
    simp only [step] at h
    split at h
    · cases h
    · rename_i window rest hposted
      obtain ⟨hstarted, hout, hrest⟩ := stage.posted_of hposted
      split at h <;> cases h
      exact stage_goto_inside hstarted (fun u _ => hout u) hrest (by simp)
  | process t => exact stage_process stage h
  | register t =>
    simp only [step] at h
    split at h
    · rename_i hpc
      cases h
      obtain ⟨hstarted, hout, hnone⟩ := stage.inside_of (by rw [hpc]; simp)
      split
      · exact stage_goto_inside hstarted hout hnone (by simp)
      · exact stage_goto_ended hstarted (by simpa using ‹¬ s.connected = true›) hout hnone
    · cases h
  | receive t accepted => exact stage_receive stage haccepted h
  | disconnectRefused t =>
    simp only [step] at h
    split at h
    · rename_i hpc
      cases h
      obtain ⟨hstarted, hout, hnone⟩ := stage.inside_of (by rw [hpc]; simp)
      exact stage_goto_ended hstarted rfl hout hnone
    · cases h

/-- A step leaves the session listening exactly if it refuses no `WSARecv` of a connected
session. -/
theorem listens_step_iff (stage : Stage s) (h : step c s a = some s') :
    Listens s' ↔ Accepted c s a := by
  constructor
  · intro listens
    by_contra hrefused
    cases a with
    | receive t accepted => exact deaf_receive stage hrefused h listens
    | _ => exact hrefused trivial
  · intro haccepted
    exact (stage_step stage haccepted h).listens

end Steps

end System

/-- In every run from `ProcessConnect` on, with any receives, contents and threads, every
state outside of `ProcessConnect` and `ProcessRecv` in which the session is connected has
exactly one outstanding receive, and no state has two, exactly if no `WSARecv` of a
connected IOCP session is refused. -/
theorem listens_iff {T : Type*} [DecidableEq T] {c : SessionClass} {memory : ℤ → UInt8}
    {actions : List (Action T)} {s : State T} (hr : run (step c) (init memory) actions = some s) :
    Always (step c) Listens (init memory) actions ↔
      StepsMeet (step c) (Accepted c) (init memory) actions := by
  have hinit : Stage (init memory : State T) := .fresh rfl rfl (fun _ => rfl) rfl
  exact always_iff_stepsMeet_of_kept
    (fun _ _ _ stage _ _ haccepted h => stage_step stage haccepted h)
    (fun _ _ _ stage _ _ h => listens_step_iff stage h) hinit hinit.listens stepsMeet_true hr

/-- A RIO session is always listening: it disconnects where `RIOReceive` is refused. -/
theorem rio_listens {T : Type*} [DecidableEq T] {memory : ℤ → UInt8} {actions : List (Action T)}
    {s : State T} (hr : run (step .rio) (init memory) actions = some s) :
    Always (step .rio) Listens (init memory) actions := by
  refine (listens_iff hr).mpr (stepsMeet_of_forall fun a _ s => ?_)
  cases a with
  | receive t accepted => exact nofun
  | _ => trivial

/-- An IOCP session is connected, receives a packet and is closed by its peer. -/
def receiveAndClose : List (Action Bool) :=
  [.processConnect true, .register true, .receive true true,
    .complete false [5, 0, 1, 0, 7] 5, .process false, .register false, .receive false true,
    .complete true [] 0, .process true]

/-- It was listening. -/
theorem listens_receiveAndClose :
    ∃ s, run (step .iocp) (init fun _ => 0) receiveAndClose = some s ∧
      Always (step .iocp) Listens (init fun _ => 0) receiveAndClose := by
  have h : (run (step .iocp) (init fun _ => 0) receiveAndClose).isSome = true := by decide
  obtain ⟨s, hr⟩ := Option.isSome_iff_exists.mp h
  exact ⟨s, hr, (listens_iff hr).mpr (by decide)⟩

/-- The first `WSARecv` is refused: the session is connected and has no receive. -/
theorem refused_deaf : ∃ s, run (step .iocp) (init fun _ => 0)
      [.processConnect true, .register true, .receive true false] = some s ∧
    (∀ t, s.pc t = .outside) ∧ s.connected = true ∧ s.outstanding = [] ∧ ¬ Listens s := by
  have h : ((run (step .iocp) (init fun _ => 0)
      [.processConnect true, .register true, .receive true false]).any fun s =>
      (∀ t, s.pc t = .outside) ∧ s.connected = true ∧ s.outstanding = []) = true := by
    decide
  obtain ⟨s, hr, hview⟩ := (Option.any_eq_true _ _).mp h
  obtain ⟨hout, hconnected, hnone⟩ := of_decide_eq_true hview
  refine ⟨s, hr, hout, hconnected, hnone, fun listens => ?_⟩
  have hone := listens.listens hout hconnected
  rw [hnone] at hone
  cases hone

end Listening

end RioIocpServer
