import RioIocpServer.TransitionSystem
import RioIocpServer.ThreadSum

/-!
# Completions of the IOCP sessions

A session is created for an `AcceptEx` of the listener or for a `ConnectEx` of its own,
and then receives, sends and disconnects. The system completes each operation once, with
or without success, and any worker dequeues the completion with
`GetQueuedCompletionStatus` and dispatches its event to the owner; only the number of
bytes travels on. A call nested in a packet handler is a thread of its own. The fields
`succeeded`, `fault` and `errors` record history; a thread that follows a null pointer
ends the process.
-/

namespace RioIocpServer.IocpDispatch

open TransitionSystem

/-- `IOCP_IO_TYPE`: the operations, and the event of each. -/
inductive IoType where
  /-- `AcceptEx`. -/
  | accept
  /-- `ConnectEx`. -/
  | connect
  /-- `DisconnectEx`. -/
  | disconnect
  /-- `WSARecv`. -/
  | recv
  /-- `WSASend`. -/
  | send
  deriving DecidableEq

/-- The objects that own events. -/
inductive Owner where
  /-- `IocpListener`. -/
  | listener
  /-- `IocpSession`. -/
  | session
  deriving DecidableEq

/-- The owner an event has while its operation is pending. -/
def IoType.owner : IoType → Owner
  | .accept => .listener
  | _ => .session

/-- What `GetQueuedCompletionStatus` returns and stores. -/
structure Result where
  /-- The value returned. -/
  retVal : Bool
  /-- The event dequeued. -/
  event : Option IoType
  /-- The bytes transferred. -/
  bytesTransferred : ℤ
  /-- `WSAGetLastError`. -/
  errCode : ℕ

/-- `WAIT_TIMEOUT`. -/
def waitTimeout : ℕ := 258

/-- What a thread does next for the session. -/
inductive Pc where
  /-- It is outside. -/
  | outside
  /-- The buffer and `OnRecv`, in `ProcessRecv`. -/
  | process
  /-- The test of `RegisterRecv`. -/
  | registerRecv
  /-- `WSARecv`. -/
  | wsaRecv
  /-- The look at the queue, in `ProcessSend`. -/
  | checkQueue
  /-- The critical section of `Send`. -/
  | enqueue
  /-- The test of `RegisterSend`. -/
  | registerSend
  /-- `WSASend`. -/
  | wsaSend
  /-- `DisconnectEx`. -/
  | disconnectEx
  deriving DecidableEq

/-- A session with its events, the service and the threads. -/
structure State (T : Type*) where
  /-- The operation the session was created for has been started. -/
  opened : Bool
  /-- `m_bConnected`. -/
  connected : Bool
  /-- `m_bSendRegistered`. -/
  sendRegistered : Bool
  /-- `m_owner` of the events. -/
  owner : IoType → Option Owner
  /-- The operations accepted by the system and not dequeued. -/
  pending : IoType → ℕ
  /-- The session is in `m_serverSessions`. -/
  registered : Bool
  /-- The calls of `OnConnected`. -/
  onConnected : ℕ
  /-- The threads. -/
  threads : T → Pc
  /-- History: the accept or connect of the session has completed with success. -/
  succeeded : Bool
  /-- History: a null pointer was followed. -/
  fault : Bool
  /-- History: texts given to `HandleError`. -/
  errors : List String

/-- The steps. -/
inductive Action (T : Type*) where
  /-- `RegisterAccept` for the session; attempts refused before leave nothing. -/
  | registerAccept (accepted : Bool)
  /-- `RegisterConnect`, which may return in front of `ConnectEx`. -/
  | registerConnect (reached accepted : Bool)
  /-- `Disconnect` is called. -/
  | disconnect (t : T)
  /-- `DisconnectEx`, in `RegisterDisconnect`. -/
  | disconnectEx (t : T) (accepted : Bool)
  /-- The test of `Send`. -/
  | send (t : T)
  /-- The critical section of `Send`. -/
  | enqueue (t : T)
  /-- The test of `RegisterSend`. -/
  | registerSend (t : T)
  /-- `WSASend`. -/
  | wsaSend (t : T) (accepted : Bool)
  /-- The test of `RegisterRecv`. -/
  | registerRecv (t : T)
  /-- `WSARecv`. -/
  | wsaRecv (t : T) (accepted : Bool)
  /-- The buffer and `OnRecv` of `ProcessRecv`, without an error or with one. -/
  | process (t : T) (readable : Bool)
  /-- The look at the queue of `ProcessSend`. -/
  | checkQueue (t : T) (isEmpty : Bool)
  /-- `IocpCore::Dispatch`, with the answer of `SetUpdateAcceptSocket`. -/
  | dispatch (t : T) (result : Result) (updated : Bool)

section System

variable {T : Type*} [DecidableEq T]

/-- A session that was just created. -/
def init : State T where
  opened := false
  connected := false
  sendRegistered := false
  owner _ := none
  pending _ := 0
  registered := false
  onConnected := 0
  threads _ := .outside
  succeeded := false
  fault := false
  errors := []

namespace State

/-- A thread goes on. -/
def goto (s : State T) (t : T) (pc : Pc) : State T :=
  { s with threads := Function.update s.threads t pc }

omit [DecidableEq T] in
/-- The owner of an event is set or reset. -/
def setOwner (s : State T) (ev : IoType) (owner : Option Owner) : State T :=
  { s with owner := Function.update s.owner ev owner }

omit [DecidableEq T] in
/-- `HandleError`. -/
def handleError (s : State T) (text : String) : State T :=
  { s with errors := s.errors ++ [text] }

omit [DecidableEq T] in
/-- An operation of the session is started: it is accepted, or the owner is reset. -/
def register (s : State T) (ev : IoType) (accepted : Bool) (text : String) : State T :=
  if accepted = true then
    { s.setOwner ev (some ev.owner) with
      pending := Function.update s.pending ev (s.pending ev + 1) }
  else (s.setOwner ev none).handleError text

omit [DecidableEq T] in
/-- `AcceptEx` with an event of the listener, which owns it from `StartAccept` on. -/
def registerAccept (s : State T) (accepted : Bool) : State T :=
  { s.setOwner .accept (some .listener) with
    pending :=
      if accepted = true then Function.update s.pending .accept (s.pending .accept + 1)
      else s.pending }

/-- `Disconnect`, up to `RegisterDisconnect`. -/
def disconnect (s : State T) (t : T) : State T :=
  if s.connected = true then { s with connected := false }.goto t .disconnectEx
  else s.goto t .outside

/-- `ProcessConnect`, up to `RegisterRecv`. -/
def processConnect (s : State T) (t : T) : State T :=
  { s.setOwner .connect none with
    connected := true
    registered := true
    onConnected := s.onConnected + 1 }.goto t .registerRecv

omit [DecidableEq T] in
/-- `ProcessDisconnect`. -/
def processDisconnect (s : State T) : State T :=
  { s.setOwner .disconnect none with registered := false }

/-- The test of `ProcessRecv`. -/
def processRecv (s : State T) (t : T) (bytesTransferred : ℤ) : State T :=
  if bytesTransferred = 0 then
    ((s.setOwner .recv none).handleError "ProcessRecv::ByteTransferred Error").disconnect t
  else (s.setOwner .recv none).goto t .process

/-- The test of `ProcessSend`. -/
def processSend (s : State T) (t : T) (bytesTransferred : ℤ) : State T :=
  if bytesTransferred = 0 then
    ((s.setOwner .send none).handleError "ProcessSend::BytesTransferred Error").disconnect t
  else (s.setOwner .send none).goto t .checkQueue

/-- `IocpSession::Dispatch`. -/
def sessionDispatch (s : State T) (t : T) (ev : IoType) (bytesTransferred : ℤ) : State T :=
  match ev with
  | .connect => s.processConnect t
  | .disconnect => s.processDisconnect
  | .recv => s.processRecv t bytesTransferred
  | .send => s.processSend t bytesTransferred
  | .accept => s.handleError "IocpSession::Dispatch"

/-- `ProcessAccept`; the `RegisterAccept` at its end is for another session. -/
def processAccept (s : State T) (t : T) (updated : Bool) : State T :=
  if updated = false then s.handleError "SetUpdateAcceptSocket" else s.processConnect t

/-- `IocpListener::Dispatch`. -/
def listenerDispatch (s : State T) (t : T) (ev : IoType) (updated : Bool) : State T :=
  if ev ≠ .accept then s.handleError "IocpListener::Dispatch, eventType check"
  else s.processAccept t updated

/-- `iocpEvent->m_owner` and `iocpObject->Dispatch`. -/
def follow (s : State T) (t : T) (result : Result) (updated : Bool) : State T :=
  match result.event with
  | none => { s with fault := true }
  | some ev =>
    match s.owner ev with
    | none => { s with fault := true }
    | some .listener => s.listenerDispatch t ev updated
    | some .session => s.sessionDispatch t ev result.bytesTransferred

/-- `IocpCore::Dispatch`, behind `GetQueuedCompletionStatus`. -/
def coreDispatch (s : State T) (t : T) (result : Result) (updated : Bool) : State T :=
  if result.retVal = true then s.follow t result updated
  else if result.errCode = waitTimeout then s
  else s.follow t result updated

omit [DecidableEq T] in
/-- `GetQueuedCompletionStatus`: an event is dequeued if its operation is pending. -/
def dequeue (s : State T) (result : Result) : Option (State T) :=
  match result.event with
  | none => some s
  | some ev =>
    if 0 < s.pending ev then
      some { s with
        pending := Function.update s.pending ev (s.pending ev - 1)
        succeeded := s.succeeded ||
          (result.retVal && (decide (ev = .accept) || decide (ev = .connect))) }
    else none

end State

/-- One step, while the process runs. -/
def move (s : State T) : Action T → Option (State T)
  | .registerAccept accepted =>
    if s.opened = false then some ({ s with opened := true }.registerAccept accepted) else none
  | .registerConnect reached accepted =>
    if s.opened = false then
      if reached = true then
        some ({ s with opened := true }.register .connect accepted "ConnectEx")
      else some { s with opened := true }
    else none
  | .disconnect t => if s.threads t = .outside then some (s.disconnect t) else none
  | .disconnectEx t accepted =>
    if s.threads t = .disconnectEx then
      some ((s.register .disconnect accepted "DisconnectEx").goto t .outside)
    else none
  | .send t =>
    if s.threads t = .outside then
      some (s.goto t (if s.connected = true then .enqueue else .outside))
    else none
  | .enqueue t =>
    if s.threads t = .enqueue then
      if s.sendRegistered = true then some (s.goto t .outside)
      else some ({ s with sendRegistered := true }.goto t .registerSend)
    else none
  | .registerSend t =>
    if s.threads t = .registerSend then
      some (s.goto t (if s.connected = true then .wsaSend else .outside))
    else none
  | .wsaSend t accepted =>
    if s.threads t = .wsaSend then
      some ({ s.register .send accepted "WSASend" with
        sendRegistered := if accepted = true then s.sendRegistered else false }.goto t .outside)
    else none
  | .registerRecv t =>
    if s.threads t = .registerRecv then
      some (s.goto t (if s.connected = true then .wsaRecv else .outside))
    else none
  | .wsaRecv t accepted =>
    if s.threads t = .wsaRecv then
      some ((s.register .recv accepted "WSARecv").goto t .outside)
    else none
  | .process t readable =>
    if s.threads t = .process then
      if readable = true then some (s.goto t .registerRecv) else some (s.disconnect t)
    else none
  | .checkQueue t isEmpty =>
    if s.threads t = .checkQueue then
      if isEmpty = true then some ({ s with sendRegistered := false }.goto t .outside)
      else some (s.goto t .registerSend)
    else none
  | .dispatch t result updated =>
    if s.threads t = .outside then
      (s.dequeue result).map fun s => s.coreDispatch t result updated
    else none

/-- One step. -/
def step (s : State T) (a : Action T) : Option (State T) :=
  if s.fault = true then none else move s a

omit [DecidableEq T] in
/-- Only a success is taken for a success, and no null pointer was followed. -/
structure Safe (s : State T) : Prop where
  /-- The flag is set for a success. -/
  connected : s.connected = true → s.succeeded = true
  /-- The session is added for a success. -/
  registered : s.registered = true → s.succeeded = true
  /-- `OnConnected` is called for a success. -/
  onConnected : 0 < s.onConnected → s.succeeded = true
  /-- Every event and every owner followed was there. -/
  no_fault : s.fault = false

omit [DecidableEq T] in
/-- No failed connect is dispatched, no failed accept passes `SetUpdateAcceptSocket`, and
only a timeout comes without an event. -/
def Reported : Action T → Prop
  | .dispatch _ result updated =>
    (result.event = none → result.retVal = false ∧ result.errCode = waitTimeout) ∧
      (result.event = some .connect → result.retVal = true ∨ result.errCode = waitTimeout) ∧
      (result.event = some .accept →
        result.retVal = true ∨ result.errCode = waitTimeout ∨ updated = false)
  | _ => True

instance : DecidablePred (Reported : Action T → Prop)
  | .dispatch _ result updated => inferInstanceAs (Decidable
      ((result.event = none → result.retVal = false ∧ result.errCode = waitTimeout) ∧
        (result.event = some .connect → result.retVal = true ∨ result.errCode = waitTimeout) ∧
        (result.event = some .accept →
          result.retVal = true ∨ result.errCode = waitTimeout ∨ updated = false)))
  | .registerAccept _ | .registerConnect _ _ | .disconnect _ | .disconnectEx _ _ | .send _
  | .enqueue _ | .registerSend _ | .wsaSend _ _ | .registerRecv _ | .wsaRecv _ _
  | .process _ _ | .checkQueue _ _ => isTrue trivial

omit [DecidableEq T] in
/-- The session waits for its accept or connect, or has not even started it. -/
def opening (s : State T) : ℕ :=
  (!s.opened).toNat + s.pending .accept + s.pending .connect

/-- A thread on its way to `WSARecv`. -/
def Pc.recvs : Pc → ℕ
  | .process | .registerRecv | .wsaRecv => 1
  | _ => 0

/-- A thread with the right to send. -/
def Pc.sends : Pc → ℕ
  | .checkQueue | .registerSend | .wsaSend => 1
  | _ => 0

/-- A thread on its way to `DisconnectEx`. -/
def Pc.disconnects : Pc → ℕ
  | .disconnectEx => 1
  | _ => 0

/-- The operations one of which receives next. -/
def IoType.recvs : IoType → ℕ
  | .accept | .connect | .recv => 1
  | _ => 0

/-- The operation that sends. -/
def IoType.sends : IoType → ℕ
  | .send => 1
  | _ => 0

/-- The operations one of which disconnects next. -/
def IoType.disconnects : IoType → ℕ
  | .accept | .connect | .disconnect => 1
  | _ => 0

/-- The operations that open the session. -/
def IoType.opens : IoType → ℕ
  | .accept | .connect => 1
  | _ => 0

section Counts

variable [Fintype T] {s s' : State T} {t : T} {ev : IoType} {pc : Pc}

omit [DecidableEq T] in
/-- The receives of the session, those to come included. -/
def recvCount (s : State T) : ℕ := opening s + s.pending .recv + ∑ t, (s.threads t).recvs

omit [DecidableEq T] in
/-- The sends of the session. -/
def sendCount (s : State T) : ℕ := s.pending .send + ∑ t, (s.threads t).sends

omit [DecidableEq T] in
/-- The disconnects of the session, the one to come included. -/
def disconnectCount (s : State T) : ℕ :=
  opening s + s.pending .disconnect + ∑ t, (s.threads t).disconnects + s.connected.toNat

/-- The invariant of the events. -/
structure Inv (s : State T) : Prop where
  /-- There is one receive at most. -/
  recv_le : recvCount s ≤ 1
  /-- The flag stands for the only send. -/
  send_le : sendCount s ≤ s.sendRegistered.toNat
  /-- There is one disconnect at most. -/
  disconnect_le : disconnectCount s ≤ 1
  /-- The event of a pending operation has its owner. -/
  owned : ∀ ev, 0 < s.pending ev → s.owner ev = some ev.owner
  /-- A session that waits for its accept or connect has not succeeded. -/
  fresh : 0 < opening s → s.succeeded = false

/-- What a step does to the counts. -/
structure Keeps (s s' : State T) : Prop where
  /-- No receive is added. -/
  recv_le : recvCount s' ≤ recvCount s
  /-- No send is added beyond the flag. -/
  send_le : sendCount s' + s.sendRegistered.toNat ≤ sendCount s + s'.sendRegistered.toNat
  /-- No disconnect is added. -/
  disconnect_le : disconnectCount s' ≤ disconnectCount s
  /-- No accept or connect is added. -/
  opening_le : opening s' ≤ opening s
  /-- Only the end of the accept or connect is a success. -/
  succeeded_eq : 0 < opening s' → s'.succeeded = s.succeeded
  /-- The event of an operation that is pending keeps its owner or gets it. -/
  owned : ∀ ev, 0 < s'.pending ev →
    0 < s.pending ev ∧ s'.owner ev = s.owner ev ∨ s'.owner ev = some ev.owner

omit [DecidableEq T] in
/-- A step that adds nothing keeps the invariant. -/
theorem Inv.keeps (inv : Inv s) (keeps : Keeps s s') : Inv s' := by
  refine ⟨keeps.recv_le.trans inv.recv_le, ?_, keeps.disconnect_le.trans inv.disconnect_le,
    fun ev hev => ?_, fun hopen => ?_⟩
  · have hsend := inv.send_le
    have hkeeps := keeps.send_le
    omega
  · rcases keeps.owned ev hev with ⟨hpending, howner⟩ | howner
    · rw [howner]
      exact inv.owned ev hpending
    · exact howner
  · rw [keeps.succeeded_eq hopen]
    exact inv.fresh (hopen.trans_le keeps.opening_le)

/-- A thread that goes on changes the counts by its own. -/
theorem goto_counts (s : State T) (t : T) (pc : Pc) :
    recvCount (s.goto t pc) + (s.threads t).recvs = recvCount s + pc.recvs ∧
      sendCount (s.goto t pc) + (s.threads t).sends = sendCount s + pc.sends ∧
      disconnectCount (s.goto t pc) + (s.threads t).disconnects =
        disconnectCount s + pc.disconnects := by
  have hrecvs := ThreadSum.sum_update Pc.recvs s.threads t pc
  have hsends := ThreadSum.sum_update Pc.sends s.threads t pc
  have hdisconnects := ThreadSum.sum_update Pc.disconnects s.threads t pc
  simp only [recvCount, sendCount, disconnectCount, opening, State.goto] at *
  omega

/-- So does a thread that sets or clears the flag on its way. -/
theorem flag_counts (s : State T) (flag : Bool) (t : T) (pc : Pc) :
    recvCount ({ s with sendRegistered := flag }.goto t pc) + (s.threads t).recvs =
        recvCount s + pc.recvs ∧
      sendCount ({ s with sendRegistered := flag }.goto t pc) + (s.threads t).sends =
        sendCount s + pc.sends ∧
      disconnectCount ({ s with sendRegistered := flag }.goto t pc) +
        (s.threads t).disconnects = disconnectCount s + pc.disconnects :=
  goto_counts { s with sendRegistered := flag } t pc

/-- A thread that goes on without a new right adds nothing. -/
theorem keeps_goto (hrecv : pc.recvs ≤ (s.threads t).recvs)
    (hsend : pc.sends ≤ (s.threads t).sends)
    (hdisconnect : pc.disconnects ≤ (s.threads t).disconnects) : Keeps s (s.goto t pc) := by
  obtain ⟨h₁, h₂, h₃⟩ := goto_counts s t pc
  refine ⟨by omega, ?_, by omega, le_rfl, fun _ => rfl, fun ev hev => .inl ⟨hev, rfl⟩⟩
  show sendCount (s.goto t pc) + s.sendRegistered.toNat ≤ sendCount s + s.sendRegistered.toNat
  omega

/-- A thread that sets the flag goes on to send. -/
theorem keeps_setFlag (hclear : s.sendRegistered = false) :
    Keeps s ({ s with sendRegistered := true }.goto t .registerSend) := by
  obtain ⟨h₁, h₂, h₃⟩ := flag_counts s true t .registerSend
  have hpc₁ : Pc.registerSend.recvs = 0 := rfl
  have hpc₂ : Pc.registerSend.sends = 1 := rfl
  have hpc₃ : Pc.registerSend.disconnects = 0 := rfl
  refine ⟨by omega, ?_, by omega, le_rfl, fun _ => rfl, fun ev hev => .inl ⟨hev, rfl⟩⟩
  rw [hclear]
  show sendCount ({ s with sendRegistered := true }.goto t .registerSend) + 0 ≤ _ + 1
  omega

/-- A thread that clears the flag sends no longer. -/
theorem keeps_clearFlag (hsends : (s.threads t).sends = 1) :
    Keeps s ({ s with sendRegistered := false }.goto t .outside) := by
  obtain ⟨h₁, h₂, h₃⟩ := flag_counts s false t .outside
  have hpc₁ : Pc.outside.recvs = 0 := rfl
  have hpc₂ : Pc.outside.sends = 0 := rfl
  have hpc₃ : Pc.outside.disconnects = 0 := rfl
  have hflag := s.sendRegistered.toNat_le
  refine ⟨by omega, ?_, by omega, le_rfl, fun _ => rfl, fun ev hev => .inl ⟨hev, rfl⟩⟩
  show sendCount ({ s with sendRegistered := false }.goto t .outside) + _ ≤ _ + 0
  omega

/-- A `Disconnect` exchanges the flag for the right to call `DisconnectEx`. -/
theorem keeps_disconnect : Keeps s (s.disconnect t) := by
  unfold State.disconnect
  split
  · rename_i hconnected
    obtain ⟨h₁, h₂, h₃⟩ := goto_counts { s with connected := false } t .disconnectEx
    have hrecv : recvCount { s with connected := false } = recvCount s := rfl
    have hsend : sendCount { s with connected := false } = sendCount s := rfl
    have hdisconnect : disconnectCount { s with connected := false } + 1 = disconnectCount s := by
      simp [disconnectCount, opening, hconnected]
    simp only [Pc.recvs, Pc.sends, Pc.disconnects] at h₁ h₂ h₃
    refine ⟨by omega, ?_, by omega, le_rfl, fun _ => rfl, fun ev hev => .inl ⟨hev, rfl⟩⟩
    dsimp only [State.goto] at h₂ ⊢
    omega
  · exact keeps_goto (Nat.zero_le _) (Nat.zero_le _) (Nat.zero_le _)

omit [DecidableEq T] in
/-- An accepted operation adds to its counts. -/
theorem register_counts (ev : IoType) (accepted : Bool) (text : String) :
    recvCount (s.register ev accepted text) = recvCount s + accepted.toNat * ev.recvs ∧
      sendCount (s.register ev accepted text) = sendCount s + accepted.toNat * ev.sends ∧
      disconnectCount (s.register ev accepted text) =
        disconnectCount s + accepted.toNat * ev.disconnects ∧
      opening (s.register ev accepted text) = opening s + accepted.toNat * ev.opens := by
  cases accepted
  · simp [State.register, State.setOwner, State.handleError, recvCount, sendCount,
      disconnectCount, opening]
  · cases ev <;> simp [State.register, State.setOwner, recvCount, sendCount, disconnectCount,
      opening, IoType.recvs, IoType.sends, IoType.disconnects, IoType.opens] <;> omega

omit [DecidableEq T] [Fintype T] in
/-- A pending operation keeps its owner, and the operation started gets one. -/
theorem register_owned (accepted : Bool) (text : String) (hzero : s.pending ev = 0) (e : IoType)
    (he : 0 < (s.register ev accepted text).pending e) :
    0 < s.pending e ∧ (s.register ev accepted text).owner e = s.owner e ∨
      (s.register ev accepted text).owner e = some e.owner := by
  by_cases hev : e = ev
  · subst hev
    cases accepted
    · exact absurd he (by simp [State.register, State.handleError, State.setOwner, hzero])
    · exact .inr (by simp [State.register, State.setOwner])
  · refine .inl ?_
    cases accepted
    · exact ⟨he, Function.update_of_ne hev ..⟩
    · have hpending : (s.register ev true text).pending e = s.pending e :=
        Function.update_of_ne hev ..
      rw [hpending] at he
      exact ⟨he, Function.update_of_ne hev ..⟩

/-- A thread starts the operation it had the right to. -/
theorem keeps_register (accepted : Bool) (text : String) (hzero : s.pending ev = 0)
    (hrecv : ev.recvs = (s.threads t).recvs) (hsend : ev.sends = 0)
    (hdisconnect : ev.disconnects = (s.threads t).disconnects) (hopen : ev.opens = 0) :
    Keeps s ((s.register ev accepted text).goto t .outside) := by
  obtain ⟨r₁, r₂, r₃, r₄⟩ := register_counts (s := s) ev accepted text
  have hthreads : (s.register ev accepted text).threads = s.threads := by
    cases accepted <;> rfl
  have hflag : (s.register ev accepted text).sendRegistered = s.sendRegistered := by
    cases accepted <;> rfl
  have hsucceeded : (s.register ev accepted text).succeeded = s.succeeded := by
    cases accepted <;> rfl
  obtain ⟨h₁, h₂, h₃⟩ := goto_counts (s.register ev accepted text) t .outside
  rw [hthreads] at h₁ h₂ h₃
  have hout : Pc.outside.recvs = 0 ∧ Pc.outside.sends = 0 ∧ Pc.outside.disconnects = 0 :=
    ⟨rfl, rfl, rfl⟩
  have hle := accepted.toNat_le
  have hm₁ := Nat.mul_le_mul_right ev.recvs hle
  have hm₃ := Nat.mul_le_mul_right ev.disconnects hle
  rw [hsend, Nat.mul_zero] at r₂
  rw [hopen, Nat.mul_zero] at r₄
  refine ⟨by omega, ?_, by omega, r₄.le, fun _ => hsucceeded,
    register_owned accepted text hzero⟩
  show _ + s.sendRegistered.toNat ≤ _ + (s.register ev accepted text).sendRegistered.toNat
  rw [hflag]
  omega

/-- So does a thread at `WSASend`, which gives the flag back where it is refused. -/
theorem keeps_wsaSend (inv : Inv s) (accepted : Bool) (hpc : s.threads t = .wsaSend) :
    Keeps s ({ s.register .send accepted "WSASend" with
      sendRegistered := if accepted = true then s.sendRegistered else false }.goto t
        .outside) := by
  have hone := ThreadSum.le_sum Pc.sends s.threads t
  have hsum := ThreadSum.sum_update Pc.sends s.threads t .outside
  have hle := inv.send_le
  have hflag := s.sendRegistered.toNat_le
  have hsends : (s.threads t).sends = 1 := by
    rw [hpc]
    rfl
  have hout : Pc.outside.sends = 0 := rfl
  have hcount : sendCount s = s.pending .send + ∑ t, (s.threads t).sends := rfl
  have hzero : s.pending .send = 0 := by omega
  have hgoto : ∀ u : State T, u.threads = s.threads → u.pending .recv = s.pending .recv →
      u.pending .disconnect = s.pending .disconnect → opening u = opening s →
      u.connected = s.connected →
      recvCount (u.goto t .outside) ≤ recvCount s ∧
        disconnectCount (u.goto t .outside) ≤ disconnectCount s := by
    intro u hthreads hrecv hdisconnect hopening hconnected
    obtain ⟨h₁, -, h₃⟩ := goto_counts u t .outside
    have hu₁ : recvCount u = recvCount s := by
      rw [recvCount, recvCount, hthreads, hrecv, hopening]
    have hu₃ : disconnectCount u = disconnectCount s := by
      rw [disconnectCount, disconnectCount, hthreads, hdisconnect, hopening, hconnected]
    have e₁ : Pc.outside.recvs = 0 := rfl
    have e₃ : Pc.outside.disconnects = 0 := rfl
    omega
  cases accepted
  · obtain ⟨hrecv, hdisconnect⟩ := hgoto { s.register .send false "WSASend" with
      sendRegistered := false } rfl rfl rfl rfl rfl
    refine ⟨hrecv, ?_, hdisconnect, le_rfl, fun _ => rfl,
      register_owned false "WSASend" hzero⟩
    show s.pending .send + ∑ u, (Function.update s.threads t .outside u).sends +
      s.sendRegistered.toNat ≤ sendCount s + 0
    omega
  · obtain ⟨hrecv, hdisconnect⟩ := hgoto { s.register .send true "WSASend" with
      sendRegistered := s.sendRegistered } rfl rfl rfl rfl rfl
    refine ⟨hrecv, ?_, hdisconnect, le_rfl, fun _ => rfl,
      register_owned true "WSASend" hzero⟩
    show s.pending .send + 1 + ∑ u, (Function.update s.threads t .outside u).sends +
      s.sendRegistered.toNat ≤ sendCount s + s.sendRegistered.toNat
    omega

omit [DecidableEq T] in
/-- A session that was not opened has nothing pending that opens it. -/
theorem Inv.unopened (inv : Inv s) (hopened : s.opened = false) :
    s.pending .accept = 0 ∧ s.pending .connect = 0 := by
  have hle := inv.recv_le
  have hcount : recvCount s =
      1 + s.pending .accept + s.pending .connect + s.pending .recv + ∑ t, (s.threads t).recvs := by
    rw [recvCount, opening, hopened]
    rfl
  omega

omit [DecidableEq T] in
/-- `RegisterAccept` starts the accept of the session. -/
theorem keeps_registerAccept (inv : Inv s) (accepted : Bool) (hopened : s.opened = false) :
    Keeps s ({ s with opened := true }.registerAccept accepted) := by
  obtain ⟨haccept, hconnect⟩ := inv.unopened hopened
  have hopening : opening ({ s with opened := true }.registerAccept accepted) ≤ opening s := by
    cases accepted <;> simp [opening, State.registerAccept, State.setOwner, hopened, haccept]
  have hrecv : ({ s with opened := true }.registerAccept accepted).pending .recv =
      s.pending .recv := by
    cases accepted <;> rfl
  have hsend : ({ s with opened := true }.registerAccept accepted).pending .send =
      s.pending .send := by
    cases accepted <;> rfl
  have hdisconnect : ({ s with opened := true }.registerAccept accepted).pending .disconnect =
      s.pending .disconnect := by
    cases accepted <;> rfl
  refine ⟨?_, ?_, ?_, hopening, fun _ => rfl, fun e he => ?_⟩
  · rw [recvCount, recvCount, hrecv]
    exact Nat.add_le_add_right (Nat.add_le_add_right hopening _) _
  · rw [sendCount, sendCount, hsend]
    rfl
  · rw [disconnectCount, disconnectCount, hdisconnect]
    exact Nat.add_le_add_right (Nat.add_le_add_right (Nat.add_le_add_right hopening _) _) _
  · by_cases hev : e = .accept
    · subst hev
      exact .inr rfl
    · refine .inl ⟨?_, Function.update_of_ne hev ..⟩
      cases accepted
      · exact he
      · have hpending : ({ s with opened := true }.registerAccept true).pending e =
            s.pending e := Function.update_of_ne hev ..
        rwa [hpending] at he

omit [DecidableEq T] in
/-- `RegisterConnect` starts the connect of the session, or gives it up. -/
theorem keeps_registerConnect (inv : Inv s) (accepted : Bool) (hopened : s.opened = false) :
    Keeps s ({ s with opened := true }.register .connect accepted "ConnectEx") ∧
      Keeps s { s with opened := true } := by
  obtain ⟨haccept, hconnect⟩ := inv.unopened hopened
  obtain ⟨r₁, r₂, r₃, r₄⟩ := register_counts (s := { s with opened := true }) .connect accepted
    "ConnectEx"
  have o₁ : recvCount { s with opened := true } + 1 = recvCount s := by
    simp only [recvCount, opening, hopened, Bool.not_true, Bool.not_false, Bool.toNat_true,
      Bool.toNat_false]
    omega
  have o₂ : sendCount { s with opened := true } = sendCount s := rfl
  have o₃ : disconnectCount { s with opened := true } + 1 = disconnectCount s := by
    simp only [disconnectCount, opening, hopened, Bool.not_true, Bool.not_false, Bool.toNat_true,
      Bool.toNat_false]
    omega
  have o₄ : opening { s with opened := true } + 1 = opening s := by
    simp only [opening, hopened, Bool.not_true, Bool.not_false, Bool.toNat_true,
      Bool.toNat_false]
    omega
  have hle := accepted.toNat_le
  constructor
  · have hsucceeded : ({ s with opened := true }.register .connect accepted
        "ConnectEx").succeeded = s.succeeded := by
      cases accepted <;> rfl
    have hflag : ({ s with opened := true }.register .connect accepted
        "ConnectEx").sendRegistered = s.sendRegistered := by
      cases accepted <;> rfl
    simp only [IoType.recvs, IoType.sends, IoType.disconnects, IoType.opens] at r₁ r₂ r₃ r₄
    refine ⟨by omega, ?_, by omega, by omega, fun _ => hsucceeded,
      register_owned accepted "ConnectEx" hconnect⟩
    rw [hflag]
    omega
  · exact ⟨by omega, le_rfl, by omega, by omega, fun _ => rfl, fun ev hev => .inl ⟨hev, rfl⟩⟩

/-- What the Process functions do to the counts once an event was dequeued. -/
structure Handles (ev : IoType) (s s' : State T) : Prop where
  /-- The receive may be started again. -/
  recv_le : recvCount s' ≤ recvCount s + ev.recvs
  /-- The send may be started again, or the flag is cleared. -/
  send_le : sendCount s' + s.sendRegistered.toNat ≤
    sendCount s + ev.sends + s'.sendRegistered.toNat
  /-- The session may be disconnected again. -/
  disconnect_le : disconnectCount s' ≤ disconnectCount s + ev.disconnects
  /-- No operation is started. -/
  pending_eq : s'.pending = s.pending
  /-- The session stays opened. -/
  opened_eq : s'.opened = s.opened
  /-- The history stays. -/
  succeeded_eq : s'.succeeded = s.succeeded
  /-- Only owners of events that are not pending are reset. -/
  owner_eq : ∀ e, 0 < s.pending e → s'.owner e = s.owner e

omit [DecidableEq T] [Fintype T] in
/-- The owner of an event that is not pending is reset. -/
theorem setOwner_owner (hzero : s.pending ev = 0) (e : IoType) (he : 0 < s.pending e) :
    (s.setOwner ev none).owner e = s.owner e := by
  refine Function.update_of_ne ?_ ..
  rintro rfl
  omega

omit [DecidableEq T] in
/-- A call that only reports keeps everything. -/
theorem handles_error (ev : IoType) (text : String) : Handles ev s (s.handleError text) :=
  ⟨Nat.le_add_right _ _, Nat.add_le_add_right (Nat.le_add_right _ _) _, Nat.le_add_right _ _,
    rfl, rfl, rfl, fun _ _ => rfl⟩

/-- `ProcessConnect` goes on to `RegisterRecv`. -/
theorem handles_processConnect (hrecv : 1 ≤ ev.recvs) (hdisconnect : 1 ≤ ev.disconnects)
    (hzero : s.pending .connect = 0) :
    Handles ev s (s.processConnect t) := by
  let u : State T := { s.setOwner .connect none with
    connected := true
    registered := true
    onConnected := s.onConnected + 1 }
  obtain ⟨h₁, h₂, h₃⟩ : recvCount (s.processConnect t) + (s.threads t).recvs = recvCount s + 1 ∧
      sendCount (s.processConnect t) + (s.threads t).sends = sendCount s + 0 ∧
      disconnectCount (s.processConnect t) + (s.threads t).disconnects =
        disconnectCount u + 0 := goto_counts u t .registerRecv
  have hu : disconnectCount u ≤ disconnectCount s + 1 := by
    show opening s + s.pending .disconnect + ∑ t, (s.threads t).disconnects + 1 ≤
      opening s + s.pending .disconnect + ∑ t, (s.threads t).disconnects + s.connected.toNat + 1
    omega
  refine ⟨by omega, ?_, by omega, rfl, rfl, rfl, setOwner_owner hzero⟩
  show sendCount (s.processConnect t) + s.sendRegistered.toNat ≤ _ + s.sendRegistered.toNat
  omega

omit [DecidableEq T] in
/-- `ProcessDisconnect` starts nothing. -/
theorem handles_processDisconnect (ev : IoType) (hzero : s.pending .disconnect = 0) :
    Handles ev s s.processDisconnect :=
  ⟨Nat.le_add_right _ _, Nat.add_le_add_right (Nat.le_add_right _ _) _, Nat.le_add_right _ _,
    rfl, rfl, rfl, setOwner_owner hzero⟩

/-- A Process function that disconnects. -/
theorem handles_disconnect (ev : IoType) (text : String) (hzero : s.pending ev = 0) :
    Handles ev s (((s.setOwner ev none).handleError text).disconnect t) := by
  have keeps := keeps_disconnect (s := (s.setOwner ev none).handleError text) (t := t)
  have hfields : (((s.setOwner ev none).handleError text).disconnect t).pending = s.pending ∧
      (((s.setOwner ev none).handleError text).disconnect t).opened = s.opened ∧
      (((s.setOwner ev none).handleError text).disconnect t).succeeded = s.succeeded ∧
      (((s.setOwner ev none).handleError text).disconnect t).owner =
        (s.setOwner ev none).owner := by
    unfold State.disconnect
    split <;> exact ⟨rfl, rfl, rfl, rfl⟩
  obtain ⟨hpending, hopened, hsucceeded, howner⟩ := hfields
  have hsend : sendCount (((s.setOwner ev none).handleError text).disconnect t) +
      s.sendRegistered.toNat ≤ sendCount s +
        (((s.setOwner ev none).handleError text).disconnect t).sendRegistered.toNat :=
    keeps.send_le
  refine ⟨keeps.recv_le.trans (Nat.le_add_right _ _), by omega,
    keeps.disconnect_le.trans (Nat.le_add_right _ _), hpending, hopened, hsucceeded,
    fun e he => ?_⟩
  rw [howner]
  exact setOwner_owner hzero e he

/-- A Process function that goes on to use the right of its event. -/
theorem handles_goto (hrecv : pc.recvs ≤ ev.recvs) (hsend : pc.sends ≤ ev.sends)
    (hdisconnect : pc.disconnects ≤ ev.disconnects) (hzero : s.pending ev = 0) :
    Handles ev s ((s.setOwner ev none).goto t pc) := by
  obtain ⟨h₁, h₂, h₃⟩ : recvCount ((s.setOwner ev none).goto t pc) + (s.threads t).recvs =
        recvCount s + pc.recvs ∧
      sendCount ((s.setOwner ev none).goto t pc) + (s.threads t).sends =
        sendCount s + pc.sends ∧
      disconnectCount ((s.setOwner ev none).goto t pc) + (s.threads t).disconnects =
        disconnectCount s + pc.disconnects := goto_counts (s.setOwner ev none) t pc
  refine ⟨by omega, ?_, by omega, rfl, rfl, rfl, setOwner_owner hzero⟩
  show sendCount ((s.setOwner ev none).goto t pc) + s.sendRegistered.toNat ≤
    _ + s.sendRegistered.toNat
  omega

/-- The state behind `GetQueuedCompletionStatus` with an event. -/
structure Dequeued (ev : IoType) (success : Bool) (s d : State T) : Prop where
  /-- The operation was pending. -/
  pending_pos : 0 < s.pending ev
  /-- One receive less. -/
  recv_eq : recvCount d + ev.recvs = recvCount s
  /-- One send less. -/
  send_eq : sendCount d + ev.sends = sendCount s
  /-- One disconnect less. -/
  disconnect_eq : disconnectCount d + ev.disconnects = disconnectCount s
  /-- One accept or connect less. -/
  opening_eq : opening d + ev.opens = opening s
  /-- The other events stay pending. -/
  pending_le : ∀ e, d.pending e ≤ s.pending e
  /-- Nothing else has changed. -/
  frame : d = { s with pending := d.pending, succeeded := d.succeeded }
  /-- The success of an accept or connect is recorded. -/
  succeeded_eq : d.succeeded = (s.succeeded || (success && decide (ev.opens = 1)))

omit [DecidableEq T] in
/-- `GetQueuedCompletionStatus` takes the operation from the counts. -/
theorem dequeued_of {result : Result} {d : State T} (hev : result.event = some ev)
    (h : s.dequeue result = some d) : Dequeued ev result.retVal s d := by
  simp only [State.dequeue, hev] at h
  split at h
  · rename_i hpos
    cases h
    refine ⟨hpos, ?_, ?_, ?_, ?_, fun e => ?_, rfl, ?_⟩
    · cases ev <;> simp [recvCount, opening, IoType.recvs] <;> omega
    · cases ev <;> simp [sendCount, IoType.sends]
      omega
    · cases ev <;> simp [disconnectCount, opening, IoType.disconnects] <;> omega
    · cases ev <;> simp [opening, IoType.opens] <;> omega
    · by_cases he : e = ev
      · subst he
        simp
      · simp [Function.update_of_ne he]
    · cases ev <;> simp [IoType.opens]
  · cases h

omit [DecidableEq T] in
/-- What remains pending of the dequeued operation is nothing. -/
theorem Dequeued.pending_zero {success : Bool} {d : State T} (hd : Dequeued ev success s d)
    (inv : Inv s) : d.pending ev = 0 ∧ (1 ≤ ev.opens → d.pending .connect = 0) := by
  have hrecv := inv.recv_le
  have hsend := inv.send_le
  have hdisconnect := inv.disconnect_le
  have hflag := s.sendRegistered.toNat_le
  have h₁ := hd.recv_eq
  have h₂ := hd.send_eq
  have h₃ := hd.disconnect_eq
  cases ev with
  | accept | connect | recv =>
    have hcount : recvCount d = 0 := by
      simp only [IoType.recvs] at h₁
      omega
    simp only [recvCount, opening] at hcount
    exact ⟨by omega, fun _ => by omega⟩
  | disconnect =>
    have hcount : disconnectCount d = 0 := by
      simp only [IoType.disconnects] at h₃
      omega
    simp only [disconnectCount] at hcount
    exact ⟨by omega, fun h => by simp [IoType.opens] at h⟩
  | send =>
    have hcount : sendCount d = 0 := by
      simp only [IoType.sends] at h₂
      omega
    simp only [sendCount] at hcount
    exact ⟨by omega, fun h => by simp [IoType.opens] at h⟩

/-- What `IocpCore::Dispatch` calls for an event whose owner is set. -/
def handler (d : State T) (t : T) (ev : IoType) (bytesTransferred : ℤ) (updated : Bool) :
    State T :=
  match ev with
  | .accept => d.processAccept t updated
  | .connect => d.processConnect t
  | .disconnect => d.processDisconnect
  | .recv => d.processRecv t bytesTransferred
  | .send => d.processSend t bytesTransferred

omit [Fintype T] in
/-- The event is dispatched to its handler. -/
theorem follow_eq {d : State T} {result : Result} (hev : result.event = some ev)
    (howner : d.owner ev = some ev.owner) (updated : Bool) :
    d.follow t result updated = handler d t ev result.bytesTransferred updated := by
  cases ev <;> simp [State.follow, hev, howner, IoType.owner, State.listenerDispatch,
    State.sessionDispatch, handler]

/-- Every handler may use the right of its event once more. -/
theorem handles_handler (hzero : s.pending ev = 0)
    (hconnect : 1 ≤ ev.opens → s.pending .connect = 0) (bytesTransferred : ℤ)
    (updated : Bool) : Handles ev s (handler s t ev bytesTransferred updated) := by
  cases ev with
  | accept =>
    dsimp only [handler, State.processAccept]
    split
    · exact handles_error _ _
    · exact handles_processConnect le_rfl le_rfl (hconnect le_rfl)
  | connect => exact handles_processConnect le_rfl le_rfl hzero
  | disconnect => exact handles_processDisconnect _ hzero
  | recv =>
    dsimp only [handler, State.processRecv]
    split
    · exact handles_disconnect _ _ hzero
    · exact handles_goto le_rfl le_rfl le_rfl hzero
  | send =>
    dsimp only [handler, State.processSend]
    split
    · exact handles_disconnect _ _ hzero
    · exact handles_goto le_rfl le_rfl le_rfl hzero

omit [DecidableEq T] in
/-- Dequeuing an event and handling it keeps the invariant. -/
theorem Dequeued.keeps {success : Bool} {d : State T} (hd : Dequeued ev success s d)
    (inv : Inv s) (handles : Handles ev d s') : Keeps s s' := by
  have hle : opening s ≤ 1 := by
    have hrecv := inv.recv_le
    have hcount : recvCount s = opening s + s.pending .recv + ∑ t, (s.threads t).recvs := rfl
    omega
  have hopening : opening s' = opening d := by
    rw [opening, opening, handles.opened_eq, handles.pending_eq]
  have hflag : d.sendRegistered = s.sendRegistered := by rw [hd.frame]
  have howner : d.owner = s.owner := by rw [hd.frame]
  have h₁ := hd.recv_eq
  have h₂ := hd.send_eq
  have h₃ := hd.disconnect_eq
  have h₄ := hd.opening_eq
  have r₁ := handles.recv_le
  have r₂ := handles.send_le
  have r₃ := handles.disconnect_le
  rw [hflag] at r₂
  refine ⟨by omega, by omega, by omega, by omega, fun hopen => ?_, fun e he => ?_⟩
  · -- the accept or connect is still pending: another operation was dequeued
    have hopens : ev.opens ≠ 1 := by omega
    rw [handles.succeeded_eq, hd.succeeded_eq, decide_eq_false hopens, Bool.and_false,
      Bool.or_false]
  · rw [handles.pending_eq] at he
    rw [handles.owner_eq e he, howner]
    exact .inl ⟨he.trans_le (hd.pending_le e), rfl⟩

omit [Fintype T] in
/-- A dispatch without an event leaves the state, or ends the process. -/
theorem coreDispatch_none {result : Result} (hev : result.event = none) (updated : Bool) :
    s.coreDispatch t result updated =
      if result.retVal = false ∧ result.errCode = waitTimeout then s
      else { s with fault := true } := by
  unfold State.coreDispatch State.follow
  rw [hev]
  cases result.retVal <;> simp

/-- A dispatch with an event runs its handler, or drops it with `WAIT_TIMEOUT`. -/
theorem coreDispatch_some {result : Result} {d : State T} (inv : Inv s)
    (hev : result.event = some ev) (hd : Dequeued ev result.retVal s d) (updated : Bool) :
    d.coreDispatch t result updated =
      if result.retVal = false ∧ result.errCode = waitTimeout then d
      else handler d t ev result.bytesTransferred updated := by
  have howner : d.owner ev = some ev.owner := by
    rw [hd.frame]
    exact inv.owned ev hd.pending_pos
  unfold State.coreDispatch
  rw [follow_eq hev howner]
  cases result.retVal <;> simp

/-- A dispatch keeps the invariant, whatever was dequeued. -/
theorem inv_dispatch (inv : Inv s) {result : Result} {updated : Bool}
    (h : move s (.dispatch t result updated) = some s') : Inv s' := by
  simp only [move] at h
  split at h
  · obtain ⟨d, hd, rfl⟩ := Option.map_eq_some_iff.mp h
    cases hev : result.event with
    | none =>
      simp only [State.dequeue, hev] at hd
      cases hd
      rw [coreDispatch_none hev]
      split
      · exact inv
      · exact ⟨inv.recv_le, inv.send_le, inv.disconnect_le, inv.owned, inv.fresh⟩
    | some ev =>
      have hdequeued := dequeued_of hev hd
      obtain ⟨hzero, hconnect⟩ := hdequeued.pending_zero inv
      rw [coreDispatch_some inv hev hdequeued]
      split
      · refine inv.keeps (hdequeued.keeps inv ?_)
        exact ⟨Nat.le_add_right _ _, Nat.add_le_add_right (Nat.le_add_right _ _) _,
          Nat.le_add_right _ _, rfl, rfl, rfl, fun _ _ => rfl⟩
      · exact inv.keeps (hdequeued.keeps inv (handles_handler hzero hconnect _ _))
  · cases h

omit [DecidableEq T] in
/-- A thread at `WSARecv` or `DisconnectEx` has the only right to it. -/
theorem pending_zero_of_thread (inv : Inv s) :
    (s.threads t = .wsaRecv → s.pending .recv = 0) ∧
      (s.threads t = .disconnectEx → s.pending .disconnect = 0) := by
  have h₁ := ThreadSum.le_sum Pc.recvs s.threads t
  have h₃ := ThreadSum.le_sum Pc.disconnects s.threads t
  have hrecv := inv.recv_le
  have hdisconnect := inv.disconnect_le
  simp only [recvCount, disconnectCount] at hrecv hdisconnect
  constructor <;> intro hpc
  · have hone : (s.threads t).recvs = 1 := by
      rw [hpc]
      rfl
    omega
  · have hone : (s.threads t).disconnects = 1 := by
      rw [hpc]
      rfl
    omega

/-- Every step keeps the invariant. -/
theorem inv_move (inv : Inv s) {a : Action T} (h : move s a = some s') : Inv s' := by
  cases a with
  | registerAccept accepted =>
    simp only [move] at h
    split at h <;> cases h
    exact inv.keeps (keeps_registerAccept inv accepted ‹_›)
  | registerConnect reached accepted =>
    simp only [move] at h
    split at h
    · split at h <;> cases h
      · exact inv.keeps (keeps_registerConnect inv accepted ‹_›).1
      · exact inv.keeps (keeps_registerConnect inv accepted ‹_›).2
    · cases h
  | disconnect t =>
    simp only [move] at h
    split at h <;> cases h
    exact inv.keeps keeps_disconnect
  | disconnectEx t accepted =>
    simp only [move] at h
    split at h <;> cases h
    rename_i hpc
    refine inv.keeps (keeps_register accepted _ ((pending_zero_of_thread inv).2 hpc) ?_ rfl ?_ rfl)
    · rw [hpc]
      rfl
    · rw [hpc]
      rfl
  | send t =>
    simp only [move] at h
    split at h <;> cases h
    refine inv.keeps (keeps_goto ?_ ?_ ?_) <;> split <;> exact Nat.zero_le _
  | enqueue t =>
    simp only [move] at h
    split at h
    · split at h <;> cases h
      · exact inv.keeps (keeps_goto (Nat.zero_le _) (Nat.zero_le _) (Nat.zero_le _))
      · rename_i hpc hset
        exact inv.keeps (keeps_setFlag (by simpa using hset))
    · cases h
  | registerSend t =>
    simp only [move] at h
    split at h <;> cases h
    rename_i hpc
    refine inv.keeps (keeps_goto ?_ ?_ ?_) <;> rw [hpc] <;> split <;> decide
  | wsaSend t accepted =>
    simp only [move] at h
    split at h <;> cases h
    exact inv.keeps (keeps_wsaSend inv accepted ‹_›)
  | registerRecv t =>
    simp only [move] at h
    split at h <;> cases h
    rename_i hpc
    refine inv.keeps (keeps_goto ?_ ?_ ?_) <;> rw [hpc] <;> split <;> decide
  | wsaRecv t accepted =>
    simp only [move] at h
    split at h <;> cases h
    rename_i hpc
    refine inv.keeps (keeps_register accepted _ ((pending_zero_of_thread inv).1 hpc) ?_ rfl ?_ rfl)
    · rw [hpc]
      rfl
    · rw [hpc]
      rfl
  | process t readable =>
    simp only [move] at h
    split at h
    · rename_i hpc
      split at h <;> cases h
      · refine inv.keeps (keeps_goto ?_ ?_ ?_) <;> rw [hpc] <;> decide
      · exact inv.keeps keeps_disconnect
    · cases h
  | checkQueue t isEmpty =>
    simp only [move] at h
    split at h
    · rename_i hpc
      split at h <;> cases h
      · refine inv.keeps (keeps_clearFlag ?_)
        rw [hpc]
        rfl
      · refine inv.keeps (keeps_goto ?_ ?_ ?_) <;> rw [hpc] <;> decide
    · cases h
  | dispatch t result updated => exact inv_dispatch inv h

section Safety

omit [DecidableEq T] [Fintype T] in
/-- Safety is kept where nothing is announced and no pointer is followed. -/
theorem Safe.frame (safe : Safe s) (hconnected : s'.connected = true → s.connected = true)
    (hregistered : s'.registered = true → s.registered = true)
    (hcalled : s'.onConnected = s.onConnected)
    (hsucceeded : s.succeeded = true → s'.succeeded = true) (hfault : s'.fault = s.fault) :
    Safe s' := by
  refine ⟨fun h => hsucceeded (safe.connected (hconnected h)),
    fun h => hsucceeded (safe.registered (hregistered h)), fun h => ?_,
    hfault.trans safe.no_fault⟩
  rw [hcalled] at h
  exact hsucceeded (safe.onConnected h)

omit [Fintype T] in
/-- `Disconnect` announces nothing. -/
theorem Safe.disconnect (safe : Safe s) : Safe (s.disconnect t) := by
  unfold State.disconnect
  split
  · exact safe.frame nofun id rfl id rfl
  · exact safe.frame id id rfl id rfl

omit [DecidableEq T] [Fintype T] in
/-- Neither does an operation that is started. -/
theorem Safe.register (safe : Safe s) (accepted : Bool) (text : String) :
    Safe (s.register ev accepted text) := by
  cases accepted <;> exact safe.frame id id rfl id rfl

omit [Fintype T] in
/-- `ProcessConnect` announces a success. -/
theorem Safe.processConnect (safe : Safe s) (hsucceeded : s.succeeded = true) :
    Safe (s.processConnect t) :=
  ⟨fun _ => hsucceeded, fun _ => hsucceeded, fun _ => hsucceeded, safe.no_fault⟩

omit [Fintype T] in
/-- The other handlers announce nothing. -/
theorem Safe.handler (safe : Safe s) (bytesTransferred : ℤ) (updated : Bool)
    (hconnect : ev = .connect → s.succeeded = true)
    (haccept : ev = .accept → updated = true → s.succeeded = true) :
    Safe (handler s t ev bytesTransferred updated) := by
  cases ev with
  | accept =>
    dsimp only [IocpDispatch.handler, State.processAccept]
    split
    · exact safe.frame id id rfl id rfl
    · exact safe.processConnect (haccept rfl (by simpa using ‹¬ updated = false›))
  | connect => exact safe.processConnect (hconnect rfl)
  | disconnect => exact safe.frame id nofun rfl id rfl
  | recv | send =>
    dsimp only [IocpDispatch.handler, State.processRecv, State.processSend]
    split
    · refine Safe.disconnect ?_
      exact safe.frame id id rfl id rfl
    · exact safe.frame id id rfl id rfl

omit [DecidableEq T] in
/-- `GetQueuedCompletionStatus` announces nothing. -/
theorem Dequeued.safe {success : Bool} {d : State T} (hd : Dequeued ev success s d)
    (safe : Safe s) : Safe d := by
  have hsucceeded : s.succeeded = true → d.succeeded = true := by
    intro h
    rw [hd.succeeded_eq, h, Bool.true_or]
  rw [hd.frame]
  exact safe.frame id id rfl hsucceeded rfl

omit [DecidableEq T] in
/-- A session is opened by one accept or connect, whose completion says whether it has
succeeded. -/
theorem Dequeued.succeeded_of_opens {success : Bool} {d : State T}
    (hd : Dequeued ev success s d) (inv : Inv s) (hopens : ev.opens = 1) :
    d.succeeded = success := by
  have hfresh : s.succeeded = false := by
    refine inv.fresh ?_
    have heq := hd.opening_eq
    omega
  rw [hd.succeeded_eq, hfresh, hopens]
  simp

/-- A handler announces only a success exactly if its event is no failed connect and no
failed accept whose socket is updated. -/
theorem safe_handler_iff {success : Bool} {d : State T} (inv : Inv s) (safe : Safe s)
    (hd : Dequeued ev success s d) (bytesTransferred : ℤ) (updated : Bool) :
    Safe (handler d t ev bytesTransferred updated) ↔
      (ev = .connect → success = true) ∧
        (ev = .accept → success = true ∨ updated = false) := by
  constructor
  · intro hhandled
    constructor
    · rintro rfl
      rw [← hd.succeeded_of_opens inv rfl]
      exact hhandled.connected rfl
    · rintro rfl
      cases updated with
      | false => exact .inr rfl
      | true =>
        left
        rw [← hd.succeeded_of_opens inv rfl]
        exact hhandled.connected rfl
  · rintro ⟨hconnect, haccept⟩
    refine (hd.safe safe).handler _ _ (fun hev => ?_) fun hev hupdated => ?_
    · subst hev
      rw [hd.succeeded_of_opens inv rfl]
      exact hconnect rfl
    · subst hev
      rw [hd.succeeded_of_opens inv rfl]
      exact (haccept rfl).resolve_right (by rw [hupdated]; simp)

/-- A dispatch is safe exactly if it is reported as it should be. -/
theorem safe_dispatch_iff (inv : Inv s) (safe : Safe s) {result : Result} {updated : Bool}
    (h : move s (.dispatch t result updated) = some s') :
    Safe s' ↔ Reported (.dispatch t result updated) := by
  simp only [move] at h
  split at h
  · obtain ⟨d, hd, rfl⟩ := Option.map_eq_some_iff.mp h
    cases hev : result.event with
    | none =>
      simp only [State.dequeue, hev] at hd
      cases hd
      rw [coreDispatch_none hev, Reported, hev]
      split
      · rename_i htimeout
        exact ⟨fun _ => ⟨fun _ => htimeout, nofun, nofun⟩, fun _ => safe⟩
      · rename_i hfault
        exact ⟨fun hsafe => absurd hsafe.no_fault (by simp), fun hr => (hfault (hr.1 rfl)).elim⟩
    | some ev =>
      have hdequeued := dequeued_of hev hd
      rw [coreDispatch_some inv hev hdequeued, Reported, hev]
      split
      · rename_i htimeout
        exact ⟨fun _ => ⟨nofun, fun _ => .inr htimeout.2, fun _ => .inr (.inl htimeout.2)⟩,
          fun _ => hdequeued.safe safe⟩
      · rename_i hdropped
        have hsuccess : result.retVal = true ∨ result.errCode = waitTimeout →
            result.retVal = true := by
          rintro (hretVal | herrCode)
          · exact hretVal
          · by_contra hretVal
            exact hdropped ⟨by simpa using hretVal, herrCode⟩
        rw [safe_handler_iff inv safe hdequeued]
        constructor
        · rintro ⟨hconnect, haccept⟩
          exact ⟨nofun, fun heq => .inl (hconnect (Option.some.inj heq)),
            fun heq => (haccept (Option.some.inj heq)).imp_right .inr⟩
        · rintro ⟨-, hconnect, haccept⟩
          refine ⟨fun heq => hsuccess (hconnect (congrArg some heq)), fun heq => ?_⟩
          exact (or_assoc.mpr (haccept (congrArg some heq))).imp_left hsuccess
  · cases h

/-- A step is safe exactly if what it dispatches is reported as it should be. -/
theorem safe_step_iff (inv : Inv s) (safe : Safe s) {a : Action T} (h : step s a = some s') :
    Safe s' ↔ Reported a := by
  rw [step, if_neg (by rw [safe.no_fault]; simp)] at h
  cases a with
  | dispatch t result updated => exact safe_dispatch_iff inv safe h
  | registerAccept accepted =>
    simp only [move] at h
    split at h <;> cases h
    exact iff_of_true (safe.frame id id rfl id rfl) trivial
  | registerConnect reached accepted =>
    simp only [move] at h
    split at h
    · split at h <;> cases h
      · refine iff_of_true (Safe.register ?_ _ _) trivial
        exact safe.frame id id rfl id rfl
      · exact iff_of_true (safe.frame id id rfl id rfl) trivial
    · cases h
  | disconnect t =>
    simp only [move] at h
    split at h <;> cases h
    exact iff_of_true safe.disconnect trivial
  | disconnectEx t accepted | wsaRecv t accepted | wsaSend t accepted =>
    simp only [move] at h
    split at h <;> cases h
    exact iff_of_true ((safe.register accepted _).frame id id rfl id rfl) trivial
  | send t | registerSend t | registerRecv t =>
    simp only [move] at h
    split at h <;> cases h
    exact iff_of_true (safe.frame id id rfl id rfl) trivial
  | enqueue t | checkQueue t isEmpty =>
    simp only [move] at h
    split at h
    · split at h <;> cases h <;> exact iff_of_true (safe.frame id id rfl id rfl) trivial
    · cases h
  | process t readable =>
    simp only [move] at h
    split at h
    · split at h <;> cases h
      · exact iff_of_true (safe.frame id id rfl id rfl) trivial
      · exact iff_of_true safe.disconnect trivial
    · cases h

end Safety

omit [DecidableEq T] in
/-- A session that was just created satisfies the invariant. -/
theorem inv_init : Inv (init : State T) := by
  constructor <;> simp [init, recvCount, sendCount, disconnectCount, opening, Pc.recvs, Pc.sends,
    Pc.disconnects]

end Counts

end System

/-- In every run of a session, with any number of workers and any results of
`GetQueuedCompletionStatus` and of `SetUpdateAcceptSocket`: the flag is set, the session
added and `OnConnected` called only for an accept or connect that completed with success,
and every event and every owner followed is there, exactly if no failed connect is
dispatched, `SetUpdateAcceptSocket` fails for every failed accept, and no call fails
without an event, other than by its timeout. -/
theorem dispatch_safe_iff {T : Type*} [DecidableEq T] [Fintype T] {actions : List (Action T)}
    {s : State T} (hr : run step init actions = some s) :
    Always step Safe init actions ↔ StepsMeet step (fun _ => Reported) init actions := by
  have hinv : ∀ (s : State T) (a : Action T) (s' : State T), Inv s → True →
      step s a = some s' → Inv s' := by
    intro s a s' inv _ h
    rw [step] at h
    split at h
    · cases h
    · exact inv_move inv h
  exact always_iff_stepsMeet hinv (fun _ _ _ inv safe _ h => safe_step_iff inv safe h) inv_init
    ⟨nofun, nofun, nofun, rfl⟩ stepsMeet_true hr

/-- A client connects, receives and sends, with a timeout in between. -/
def connectAndReceive : List (Action Bool) :=
  [.registerConnect true true, .dispatch true ⟨false, none, 0, waitTimeout⟩ false,
    .dispatch true ⟨true, some .connect, 0, 0⟩ false, .registerRecv true, .wsaRecv true true,
    .send false, .enqueue false, .registerSend false, .wsaSend false true,
    .dispatch false ⟨true, some .send, 8, 0⟩ false, .checkQueue false true,
    .dispatch true ⟨false, some .recv, 0, 64⟩ false, .disconnectEx true true,
    .dispatch false ⟨true, some .disconnect, 0, 0⟩ false]

/-- A session is accepted, receives and is disconnected. -/
def acceptAndReceive : List (Action Bool) :=
  [.registerAccept true, .dispatch true ⟨true, some .accept, 0, 0⟩ true, .registerRecv true,
    .wsaRecv true true, .dispatch false ⟨true, some .recv, 8, 0⟩ false, .process false true,
    .registerRecv false, .wsaRecv false true, .dispatch true ⟨true, some .recv, 0, 0⟩ false,
    .disconnectEx true true, .dispatch false ⟨true, some .disconnect, 0, 0⟩ false]

/-- An accept fails, and `SetUpdateAcceptSocket` notices it. -/
def failedAccept : List (Action Bool) :=
  [.registerAccept true, .dispatch true ⟨false, some .accept, 0, 64⟩ false]

/-- The dispatches of these runs are safe. -/
theorem dispatch_safe_runs :
    (∃ s, run step init connectAndReceive = some s ∧ Always step Safe init connectAndReceive) ∧
    (∃ s, run step init acceptAndReceive = some s ∧ Always step Safe init acceptAndReceive) ∧
    ∃ s, run step init failedAccept = some s ∧ Always step Safe init failedAccept := by
  have hsafe : ∀ actions : List (Action Bool), (run step init actions).isSome = true →
      StepsMeet step (fun _ => Reported) init actions →
        ∃ s, run step init actions = some s ∧ Always step Safe init actions := by
    intro actions hrun hreported
    obtain ⟨s, hr⟩ := Option.isSome_iff_exists.mp hrun
    exact ⟨s, hr, (dispatch_safe_iff hr).mpr hreported⟩
  exact ⟨hsafe _ (by decide) (by decide), hsafe _ (by decide) (by decide),
    hsafe _ (by decide) (by decide)⟩

/-- A refused connect is dispatched: the session is connected, added and announced. -/
theorem failed_connect_announced : ∃ s, run step init
      [.registerConnect true true,
        .dispatch true ⟨false, some .connect, 0, 1225⟩ false] = some s ∧
    s.connected = true ∧ s.registered = true ∧ s.onConnected = 1 ∧ s.succeeded = false ∧
      ¬ Safe s := by
  have h : ((run step init [.registerConnect true true,
      .dispatch true ⟨false, some .connect, 0, 1225⟩ false]).any fun s : State Bool =>
      s.connected = true ∧ s.registered = true ∧ s.onConnected = 1 ∧ s.succeeded = false) =
      true := by
    decide
  obtain ⟨s, hr, hview⟩ := (Option.any_eq_true _ _).mp h
  obtain ⟨hconnected, hregistered, hcalled, hfailed⟩ := of_decide_eq_true hview
  refine ⟨s, hr, hconnected, hregistered, hcalled, hfailed, fun safe => ?_⟩
  rw [safe.connected hconnected] at hfailed
  cases hfailed

end RioIocpServer.IocpDispatch
