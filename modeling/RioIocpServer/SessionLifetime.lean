import RioIocpServer.SharedPtr
import RioIocpServer.TransitionSystem
import Mathlib.Data.Finset.Card

/-!
# The lifetime of RIO sessions and of their events

A request is posted with the address of an event, the `RioRecvEvent` inside the session or
a `RioSendEvent` of its own, and whoever handles the completion reads the event behind the
address and its `m_owner`. The accept thread and the core thread post requests, the core
thread handles completions and sends under the lock of its sessions, and other threads
copy, release and close sessions meanwhile. The addresses of destroyed sessions and events
are used again. One core is followed, and the accept thread with the sessions that it adds
to this core. How often a session sends, what the received bytes are and what the calls of
the service return is left open.
-/

namespace RioIocpServer.SessionLifetime

open TransitionSystem SharedPtr

/-- The event that a request is posted with. -/
inductive Context (S E : Type*) where
  /-- `m_recvEvent` of a session. -/
  | recv (x : S)
  /-- A `RioSendEvent`. -/
  | send (e : E)
  deriving DecidableEq

/-- Where a thread stands in `RioSession::Disconnect`. -/
inductive Stage where
  /-- At the `exchange` of `m_bConnected`. -/
  | exchange
  /-- At `SetLinger`. -/
  | setLinger
  /-- The socket is closed and `OnDisconnected` was called; at `ReleaseSession`. -/
  | release
  deriving DecidableEq

/-- Where the accept thread stands in `RioServer::Accept`. -/
inductive AcceptPc (S : Type*) where
  /-- At `SocketCore::Accept`. -/
  | accept
  /-- At `AddSession`. -/
  | addSession (x : S)
  /-- At the store of `m_bConnected` in `ProcessConnect`. -/
  | processConnect (x : S)
  /-- At `InitSession`. -/
  | initSession (x : S)
  /-- At `RegisterRecv`. -/
  | registerRecv (x : S)
  /-- At `RIOReceive`. -/
  | rioReceive (x : S)
  /-- In a `Disconnect` called by `RegisterRecv`. -/
  | disconnect (x : S) (stage : Stage)
  /-- At the end, with the local `session`. -/
  | returning (x : S)
  /-- An accept has failed, and the loop is left. -/
  | stopped
  deriving DecidableEq

/-- Where the core thread stands. -/
inductive CorePc (S E : Type*) where
  /-- Before `DeferredSend`. -/
  | idle
  /-- In the loop over `m_sessions`, with those visited. -/
  | deferredSend (visited : Finset S)
  /-- In `SendDeferred` of a session. -/
  | sendDeferred (x : S) (visited : Finset S)
  /-- At `RIOSend` in `RegisterSend`, with a new event. -/
  | rioSend (x : S) (e : E) (visited : Finset S)
  /-- At `RIODequeueCompletion` in `Dispatch`. -/
  | dispatch
  /-- In the loop over `m_results`, with those that are left. -/
  | results (rest : List (Context S E))
  /-- In `RioSession::Dispatch` of the local `session` with the event. -/
  | dispatched (x : S) (c : Context S E) (rest : List (Context S E))
  /-- In `OnRecv`. -/
  | onRecv (x : S) (rest : List (Context S E))
  /-- At `RegisterRecv`. -/
  | registerRecv (x : S) (rest : List (Context S E))
  /-- At `RIOReceive`. -/
  | rioReceive (x : S) (rest : List (Context S E))
  /-- At the end of the round. -/
  | returning (x : S) (rest : List (Context S E))
  /-- In a `Disconnect`, with what comes after it. -/
  | disconnect (x : S) (stage : Stage) (after : CorePc S E)
  deriving DecidableEq

/-- A core with its sessions, the events and the threads. -/
structure State (S E : Type*) where
  /-- The sessions. -/
  objects : Objects S
  /-- The `RioSendEvent`s. -/
  events : Finset E
  /-- `m_owner` of the events. -/
  owner : Context S E → Option S
  /-- `m_sessions` of the core. -/
  sessions : Finset S
  /-- `m_sessionLock` is held by the core thread. -/
  sessionLock : Bool
  /-- `m_bConnected` of the sessions. -/
  connected : S → Bool
  /-- `m_bAllocated` of the sessions. -/
  allocated : S → Bool
  /-- The requests posted and not completed. -/
  inFlight : List (Context S E)
  /-- The completion queue. -/
  completionQueue : List (Context S E)
  /-- The accept thread. -/
  acceptPc : AcceptPc S
  /-- The core thread. -/
  corePc : CorePc S E
  /-- The references to a session in players, jobs and other threads. -/
  outside : S → ℕ
  /-- The other threads at `SetLinger` of a session. -/
  atSetLinger : S → ℕ
  /-- The other threads at `ReleaseSession` of a session. -/
  atRelease : S → ℕ
  /-- An object was used that had been destroyed. -/
  dangling : Bool
  /-- The texts reported by `RioCore::Dispatch`. -/
  errors : List String

/-- How a `RIOSend` ends. -/
inductive SendResult where
  /-- The request is posted. -/
  | posted
  /-- It fails with `WSAENOBUFS`. -/
  | noBufs
  /-- It fails otherwise. -/
  | failed

/-- The steps. -/
inductive Action (S E : Type*) where
  /-- A session is made at a free address, and `SocketCore::Accept` returns. -/
  | accept (x : S) (ok : Bool)
  /-- The accept thread goes on, with the result of the call it is at. -/
  | acceptNext (ok : Bool)
  /-- `DeferredSend` takes the lock. -/
  | lock
  /-- The loop over `m_sessions` comes to a session. -/
  | visit (x : S)
  /-- `RegisterSend` makes an event at a free address. -/
  | newEvent (e : E)
  /-- `RIOSend` returns. -/
  | rioSend (result : SendResult)
  /-- `SendDeferred` calls `Disconnect`: a commit or `OnSendBuffer` has failed. -/
  | sendFails
  /-- `SendDeferred` returns. -/
  | sendsDone
  /-- `DeferredSend` ends. -/
  | unlock
  /-- `RIODequeueCompletion` returns `n` results, none also if it fails. -/
  | dequeue (n : ℕ)
  /-- The core thread goes on, with the result of the call it is at. -/
  | coreNext (ok : Bool)
  /-- A handler calls `Disconnect`. -/
  | handlerDisconnect
  /-- A request completes. -/
  | complete (c : Context S E)
  /-- A reference to a session is copied. -/
  | copy (x : S)
  /-- One is released. -/
  | drop (x : S)
  /-- Another thread calls `Disconnect`: `m_bConnected.exchange(false)`. -/
  | exchange (x : S)
  /-- `SetLinger` returns to it. -/
  | setLinger (x : S) (ok : Bool)
  /-- It is done with `ReleaseSession`. -/
  | release (x : S)

/-- No session was accepted. -/
def init {S E : Type*} : State S E where
  objects := .init
  events := ∅
  owner _ := none
  sessions := ∅
  sessionLock := false
  connected _ := false
  allocated _ := false
  inFlight := []
  completionQueue := []
  acceptPc := .accept
  corePc := .idle
  outside _ := 0
  atSetLinger _ := 0
  atRelease _ := 0
  dangling := false
  errors := []

section System

variable {S E : Type*} [DecidableEq S] [DecidableEq E]

/-- A session is used. -/
def State.touch (s : State S E) (x : S) : State S E :=
  { s with dangling := s.dangling || !s.objects.alive x }

/-- The event behind an address is there. -/
def State.exists (s : State S E) : Context S E → Bool
  | .recv x => s.objects.alive x
  | .send e => e ∈ s.events

/-- An event is used. -/
def State.touchEvent (s : State S E) (c : Context S E) : State S E :=
  { s with dangling := s.dangling || !s.exists c }

/-- The assignment to `m_owner` of an event. -/
def State.assign (s : State S E) (c : Context S E) (owner : Option S) : State S E :=
  let copied := owner.elim s.objects s.objects.copy
  { s with
    objects := (s.owner c).elim copied copied.release
    owner := Function.update s.owner c owner }

/-- `new RioSendEvent()`. -/
def State.newEvent (s : State S E) (e : E) : State S E :=
  { s with
    events := insert e s.events
    owner := Function.update s.owner (.send e) none }

/-- `delete(sendEvent)`. -/
def State.deleteEvent (s : State S E) (e : E) : State S E :=
  { s with
    events := s.events.erase e
    dangling := s.dangling || !decide (e ∈ s.events) }

/-- `RioCore::AddSession`. -/
def State.addSession (s : State S E) (x : S) : State S E :=
  { s with
    sessions := insert x s.sessions
    objects := if x ∈ s.sessions then s.objects else s.objects.copy x }

/-- `RioCore::ReleaseSession`. -/
def State.releaseSession (s : State S E) (x : S) : State S E :=
  { s with
    sessions := s.sessions.erase x
    objects := if x ∈ s.sessions then s.objects.release x else s.objects }

/-- One step of `Disconnect`, with the stage after it. -/
def State.disconnect (s : State S E) (x : S) (ok : Bool) : Stage → Option (State S E × Option Stage)
  | .exchange =>
    if s.connected x = true then
      some ({ s.touch x with connected := Function.update s.connected x false }, some .setLinger)
    else some (s.touch x, none)
  | .setLinger => some (s.touch x, if ok = true then some .release else none)
  | .release => if s.sessionLock = true then none else some ((s.touch x).releaseSession x, none)

/-- A step of the accept thread. -/
def State.acceptNext (s : State S E) (ok : Bool) : Option (State S E) :=
  match s.acceptPc with
  | .addSession x =>
    if s.sessionLock = true then none
    else some { s.addSession x with acceptPc := .processConnect x }
  | .processConnect x =>
    some { s.touch x with
      connected := Function.update s.connected x true
      acceptPc := .initSession x }
  | .initSession x =>
    some { s.touch x with
      allocated := Function.update s.allocated x ok
      acceptPc := .registerRecv x }
  | .registerRecv x =>
    if s.connected x = true then
      some { (s.touch x).assign (.recv x) (some x) with acceptPc := .rioReceive x }
    else some { s.touch x with acceptPc := .returning x }
  | .rioReceive x =>
    if ok = true then
      some { s.touch x with inFlight := s.inFlight ++ [.recv x], acceptPc := .returning x }
    else some { (s.touch x).assign (.recv x) none with acceptPc := .disconnect x .exchange }
  | .disconnect x stage =>
    (s.disconnect x ok stage).map fun (s', stage') =>
      { s' with acceptPc := stage'.elim (.returning x) (.disconnect x) }
  | .returning x => some { s with objects := s.objects.release x, acceptPc := .accept }
  | _ => none

/-- A step of the core thread in `Dispatch`, or in a `Disconnect`. -/
def State.coreNext (s : State S E) (ok : Bool) : Option (State S E) :=
  match s.corePc with
  | .results [] => some { s with corePc := .idle }
  | .results (c :: rest) =>
    if s.exists c = true then
      match s.owner c with
      | none => some { s with errors := s.errors ++ ["Session Nullptr"], corePc := .results rest }
      | some x => some { s.touch x with
          objects := s.objects.copy x
          corePc := .dispatched x c rest }
    else some { s with dangling := true, corePc := .results rest }
  | .dispatched x (.recv y) rest =>
    some { ((s.touchEvent (.recv y)).touch x).assign (.recv x) none with
      corePc := if ok = true then .onRecv x rest else .disconnect x .exchange (.returning x rest) }
  | .dispatched x (.send e) rest =>
    some { (((s.touchEvent (.send e)).touch x).assign (.send e) none).deleteEvent e with
      corePc := if ok = true then .returning x rest
        else .disconnect x .exchange (.returning x rest) }
  | .onRecv x rest =>
    some { s.touch x with
      corePc := if ok = true then .registerRecv x rest
        else .disconnect x .exchange (.returning x rest) }
  | .registerRecv x rest =>
    if s.connected x = true then
      some { (s.touch x).assign (.recv x) (some x) with corePc := .rioReceive x rest }
    else some { s.touch x with corePc := .returning x rest }
  | .rioReceive x rest =>
    if ok = true then
      some { s.touch x with inFlight := s.inFlight ++ [.recv x], corePc := .returning x rest }
    else some { (s.touch x).assign (.recv x) none with
      corePc := .disconnect x .exchange (.returning x rest) }
  | .returning x rest => some { s with objects := s.objects.release x, corePc := .results rest }
  | .disconnect x stage after =>
    (s.disconnect x ok stage).map fun (s', stage') =>
      { s' with corePc := stage'.elim after fun stage => .disconnect x stage after }
  | _ => none

/-- One step. -/
def step (s : State S E) : Action S E → Option (State S E)
  | .accept x ok =>
    if s.acceptPc = .accept ∧ s.objects.alive x = false then
      if ok = true then
        some { s with
          objects := s.objects.make x
          connected := Function.update s.connected x false
          allocated := Function.update s.allocated x false
          owner := Function.update s.owner (.recv x) none
          acceptPc := .addSession x }
      else some { s with acceptPc := .stopped }
    else none
  | .acceptNext ok => s.acceptNext ok
  | .lock =>
    if s.corePc = .idle ∧ s.sessionLock = false then
      some { s with sessionLock := true, corePc := .deferredSend ∅ }
    else none
  | .visit x =>
    match s.corePc with
    | .deferredSend visited =>
      if x ∈ s.sessions ∧ x ∉ visited then
        some { s.touch x with
          corePc := if s.connected x = true ∧ s.allocated x = true then .sendDeferred x visited
            else .deferredSend (insert x visited) }
      else none
    | _ => none
  | .newEvent e =>
    match s.corePc with
    | .sendDeferred x visited =>
      if s.connected x = true ∧ e ∉ s.events then
        some { ((s.touch x).newEvent e).assign (.send e) (some x) with
          corePc := .rioSend x e visited }
      else none
    | _ => none
  | .rioSend result =>
    match s.corePc with
    | .rioSend x e visited =>
      match result with
      | .posted =>
        some { s.touch x with
          inFlight := s.inFlight ++ [.send e]
          corePc := .sendDeferred x visited }
      | .noBufs =>
        some { ((s.touch x).assign (.send e) none).deleteEvent e with
          corePc := .sendDeferred x visited }
      | .failed =>
        some { ((s.touch x).assign (.send e) none).deleteEvent e with
          corePc := .disconnect x .exchange (.sendDeferred x visited) }
    | _ => none
  | .sendFails =>
    match s.corePc with
    | .sendDeferred x visited =>
      some { s.touch x with corePc := .disconnect x .exchange (.sendDeferred x visited) }
    | _ => none
  | .sendsDone =>
    match s.corePc with
    | .sendDeferred x visited => some { s.touch x with corePc := .deferredSend (insert x visited) }
    | _ => none
  | .unlock =>
    match s.corePc with
    | .deferredSend visited =>
      if s.sessions ⊆ visited then some { s with sessionLock := false, corePc := .dispatch }
      else none
    | _ => none
  | .dequeue n =>
    match s.corePc with
    | .dispatch =>
      if n ≤ 512 then
        some { s with
          completionQueue := s.completionQueue.drop n
          corePc := .results (s.completionQueue.take n) }
      else none
    | _ => none
  | .coreNext ok => s.coreNext ok
  | .handlerDisconnect =>
    match s.corePc with
    | .onRecv x rest => some { s with corePc := .disconnect x .exchange (.onRecv x rest) }
    | _ => none
  | .complete c =>
    if c ∈ s.inFlight then
      some { s with
        inFlight := s.inFlight.erase c
        completionQueue := s.completionQueue ++ [c] }
    else none
  | .copy x =>
    if s.objects.alive x = true then
      some { s with
        objects := s.objects.copy x
        outside := Function.update s.outside x (s.outside x + 1) }
    else none
  | .drop x =>
    if 0 < s.outside x then
      some { s with
        objects := s.objects.release x
        outside := Function.update s.outside x (s.outside x - 1) }
    else none
  | .exchange x =>
    if 0 < s.outside x then
      if s.connected x = true then
        some { s.touch x with
          objects := s.objects.copy x
          connected := Function.update s.connected x false
          atSetLinger := Function.update s.atSetLinger x (s.atSetLinger x + 1) }
      else some (s.touch x)
    else none
  | .setLinger x ok =>
    if 0 < s.atSetLinger x then
      if ok = true then
        some { s.touch x with
          atSetLinger := Function.update s.atSetLinger x (s.atSetLinger x - 1)
          atRelease := Function.update s.atRelease x (s.atRelease x + 1) }
      else
        some { s.touch x with
          objects := s.objects.release x
          atSetLinger := Function.update s.atSetLinger x (s.atSetLinger x - 1) }
    else none
  | .release x =>
    if 0 < s.atRelease x ∧ s.sessionLock = false then
      some { (s.touch x).releaseSession x with
        objects := (s.releaseSession x).objects.release x
        atRelease := Function.update s.atRelease x (s.atRelease x - 1) }
    else none

end System

section Positions

variable {S E : Type*}

/-- The session in the local variable of the accept thread. -/
def AcceptPc.session : AcceptPc S → Option S
  | .accept | .stopped => none
  | .addSession x | .processConnect x | .initSession x | .registerRecv x | .rioReceive x
  | .disconnect x _ | .returning x => some x

/-- The session in the local variable of `RioCore::Dispatch`. -/
def CorePc.session : CorePc S E → Option S
  | .dispatched x _ _ | .onRecv x _ | .registerRecv x _ | .rioReceive x _ | .returning x _ => some x
  | .disconnect _ _ after => after.session
  | _ => none

/-- The core thread is in `DeferredSend`. -/
def CorePc.deferred : CorePc S E → Bool
  | .deferredSend _ | .sendDeferred _ _ | .rioSend _ _ _ => true
  | .disconnect _ _ after => after.deferred
  | _ => false

/-- The event the accept thread is about to post. -/
def AcceptPc.tokens : AcceptPc S → List (Context S E)
  | .rioReceive x => [.recv x]
  | _ => []

/-- The events the core thread is about to post or to handle. -/
def CorePc.tokens : CorePc S E → List (Context S E)
  | .rioSend _ e _ => [.send e]
  | .results rest => rest
  | .dispatched _ c rest => c :: rest
  | .rioReceive x rest => .recv x :: rest
  | .onRecv _ rest | .registerRecv _ rest | .returning _ rest => rest
  | .disconnect _ _ after => after.tokens
  | _ => []

/-- An event with an owner counts once. -/
def owned : Option S → ℕ
  | none => 0
  | some _ => 1

variable [DecidableEq S]

/-- The accept thread will register the first receive of a session. -/
def AcceptPc.turn (x : S) : AcceptPc S → ℕ
  | .addSession y | .processConnect y | .initSession y | .registerRecv y => if y = x then 1 else 0
  | _ => 0

/-- The core thread handles a receive of a session and may register the next one. -/
def CorePc.turn (x : S) : CorePc S E → ℕ
  | .onRecv y _ | .registerRecv y _ => if y = x then 1 else 0
  | .disconnect _ _ after => after.turn x
  | _ => 0

variable [DecidableEq E]

/-- How often an event is posted, completed, or in the hands of a thread. -/
def State.tokenCount (s : State S E) (c : Context S E) : ℕ :=
  s.inFlight.count c + s.completionQueue.count c + s.acceptPc.tokens.count c +
    s.corePc.tokens.count c

/-- The turns to register a receive of a session, and the receive itself. -/
def State.turns (s : State S E) (x : S) : ℕ :=
  s.acceptPc.turn x + s.corePc.turn x + owned (s.owner (.recv x))

/-- The `RioSendEvent`s that refer to a session. -/
def State.sendRefs (s : State S E) (x : S) : ℕ :=
  (s.events.filter fun e => s.owner (.send e) = some x).card

/-- A local variable that refers to a session. -/
def holds (session : Option S) (x : S) : ℕ := if session = some x then 1 else 0

/-- The references to a session. -/
def State.refs (s : State S E) (x : S) : ℕ :=
  (if x ∈ s.sessions then 1 else 0) + holds s.acceptPc.session x + holds s.corePc.session x +
    owned (s.owner (.recv x)) + s.sendRefs x + s.outside x + s.atSetLinger x + s.atRelease x

/-- What the core thread relies on where it stands. -/
def State.CoreOk (s : State S E) : CorePc S E → Prop
  | .sendDeferred x _ => x ∈ s.sessions
  | .rioSend x e _ => x ∈ s.sessions ∧ s.owner (.send e) = some x
  | .dispatched x c _ => s.owner c = some x
  | .disconnect x _ after =>
    (after.session = some x ∨ after.deferred = true ∧ x ∈ s.sessions) ∧ s.CoreOk after
  | _ => True

/-- The invariant. -/
structure Inv (s : State S E) : Prop where
  /-- The use counts count the references. -/
  counted : Counted s.objects s.refs
  /-- An event has an owner exactly while it is posted, completed or in the hands of a
  thread, and then it is there once. -/
  tokens : ∀ c, s.tokenCount c = owned (s.owner c)
  /-- The `RioSendEvent`s are those with an owner. -/
  sends : ∀ e, s.owner (.send e) ≠ none ↔ e ∈ s.events
  /-- The owner of a `m_recvEvent` is its session. -/
  recvs : ∀ x y, s.owner (.recv x) = some y → y = x
  /-- A receive is registered by the one thread whose turn it is. -/
  turn : ∀ x, s.turns x ≤ 1
  /-- The core thread can rely on what it has found. -/
  core : s.CoreOk s.corePc
  /-- The lock is held in `DeferredSend`. -/
  lock : s.sessionLock = s.corePc.deferred
  /-- No object was used that had been destroyed. -/
  dangling : s.dangling = false
  /-- Nothing was reported. -/
  errors : s.errors = []

end Positions

section Moves

variable {S E : Type*} [DecidableEq S] [DecidableEq E]

/-- What a step of a sound state can do. The flags of the sessions make no difference for
their lifetime. -/
inductive Moves (s : State S E) : State S E → Prop
  | accepted {connected allocated : S → Bool} (x : S) (hpc : s.acceptPc = .accept)
      (hx : s.objects.alive x = false) :
      Moves s { s with
        objects := s.objects.make x
        connected := connected
        allocated := allocated
        owner := Function.update s.owner (.recv x) none
        acceptPc := .addSession x }
  | acceptMoved {connected allocated : S → Bool} (pc : AcceptPc S)
      (hsession : pc.session = s.acceptPc.session)
      (htokens : pc.tokens = (s.acceptPc.tokens : List (Context S E)))
      (hturn : ∀ x, pc.turn x ≤ s.acceptPc.turn x) :
      Moves s { s with connected := connected, allocated := allocated, acceptPc := pc }
  | coreMoved {connected : S → Bool} (pc : CorePc S E) (hsession : pc.session = s.corePc.session)
      (htokens : pc.tokens = s.corePc.tokens) (hturn : ∀ x, pc.turn x ≤ s.corePc.turn x)
      (hok : s.CoreOk pc) :
      Moves s { s with connected := connected, sessionLock := pc.deferred, corePc := pc }
  | sessionAdded {x : S} (hpc : s.acceptPc = .addSession x) :
      Moves s { s.addSession x with acceptPc := .processConnect x }
  | acceptReleases {x : S} {stage : Stage} (hpc : s.acceptPc = .disconnect x stage)
      (hlock : s.sessionLock = false) :
      Moves s { s.releaseSession x with acceptPc := .returning x }
  | coreReleases {x : S} {stage : Stage} {after : CorePc S E}
      (hpc : s.corePc = .disconnect x stage after) (hlock : s.sessionLock = false) :
      Moves s { s.releaseSession x with corePc := after }
  | acceptRegisters {x : S} (hpc : s.acceptPc = .registerRecv x) :
      Moves s { s with
        objects := s.objects.copy x
        owner := Function.update s.owner (.recv x) (some x)
        acceptPc := .rioReceive x }
  | coreRegisters {x : S} {rest : List (Context S E)} (hpc : s.corePc = .registerRecv x rest) :
      Moves s { s with
        objects := s.objects.copy x
        owner := Function.update s.owner (.recv x) (some x)
        corePc := .rioReceive x rest }
  | acceptPosted {x : S} (hpc : s.acceptPc = .rioReceive x) :
      Moves s { s with inFlight := s.inFlight ++ [.recv x], acceptPc := .returning x }
  | corePosted {x : S} {rest : List (Context S E)} (hpc : s.corePc = .rioReceive x rest) :
      Moves s { s with inFlight := s.inFlight ++ [.recv x], corePc := .returning x rest }
  | acceptRefused {x : S} (hpc : s.acceptPc = .rioReceive x) :
      Moves s { s with
        objects := s.objects.release x
        owner := Function.update s.owner (.recv x) none
        acceptPc := .disconnect x .exchange }
  | coreHandles {x : S} {rest : List (Context S E)} (pc : CorePc S E)
      (howner : s.owner (.recv x) = some x) (htokens : s.corePc.tokens = .recv x :: rest)
      (hsession : pc.session = s.corePc.session) (hrest : pc.tokens = rest)
      (hturn : ∀ z, pc.turn z ≤ if x = z then 1 else 0) (hok : s.CoreOk pc)
      (hdeferred : pc.deferred = s.corePc.deferred) :
      Moves s { s with
        objects := s.objects.release x
        owner := Function.update s.owner (.recv x) none
        corePc := pc }
  | acceptReturned {x : S} (hpc : s.acceptPc = .returning x) :
      Moves s { s with objects := s.objects.release x, acceptPc := .accept }
  | coreReturned {x : S} {rest : List (Context S E)} (hpc : s.corePc = .returning x rest) :
      Moves s { s with objects := s.objects.release x, corePc := .results rest }
  | taken {c : Context S E} {x : S} {rest : List (Context S E)}
      (hpc : s.corePc = .results (c :: rest)) (howner : s.owner c = some x) :
      Moves s { s with objects := s.objects.copy x, corePc := .dispatched x c rest }
  | dequeued (n : ℕ) (hpc : s.corePc = .dispatch) :
      Moves s { s with
        completionQueue := s.completionQueue.drop n
        corePc := .results (s.completionQueue.take n) }
  | completed {c : Context S E} (hc : c ∈ s.inFlight) :
      Moves s { s with
        inFlight := s.inFlight.erase c
        completionQueue := s.completionQueue ++ [c] }
  | eventMade {x : S} {e : E} {visited : Finset S} (hpc : s.corePc = .sendDeferred x visited)
      (he : e ∉ s.events) :
      Moves s { s with
        objects := s.objects.copy x
        events := insert e s.events
        owner := Function.update s.owner (.send e) (some x)
        corePc := .rioSend x e visited }
  | sendPosted {x : S} {e : E} {visited : Finset S} (hpc : s.corePc = .rioSend x e visited) :
      Moves s { s with inFlight := s.inFlight ++ [.send e], corePc := .sendDeferred x visited }
  | eventDeleted {x : S} {e : E} {rest : List (Context S E)} (pc : CorePc S E)
      (howner : s.owner (.send e) = some x) (htokens : s.corePc.tokens = .send e :: rest)
      (hsession : pc.session = s.corePc.session) (hrest : pc.tokens = rest)
      (hturn : ∀ z, pc.turn z = 0) (hok : s.CoreOk pc)
      (hdeferred : pc.deferred = s.corePc.deferred) :
      Moves s { s with
        objects := s.objects.release x
        events := s.events.erase e
        owner := Function.update s.owner (.send e) none
        corePc := pc }
  | copied (x : S) (hx : s.objects.alive x = true) :
      Moves s { s with
        objects := s.objects.copy x
        outside := Function.update s.outside x (s.outside x + 1) }
  | dropped {x : S} (hx : 0 < s.outside x) :
      Moves s { s with
        objects := s.objects.release x
        outside := Function.update s.outside x (s.outside x - 1) }
  | exchanged {connected : S → Bool} {x : S} (hx : 0 < s.outside x) :
      Moves s { s with
        objects := s.objects.copy x
        connected := connected
        atSetLinger := Function.update s.atSetLinger x (s.atSetLinger x + 1) }
  | lingered {x : S} (hx : 0 < s.atSetLinger x) :
      Moves s { s with
        atSetLinger := Function.update s.atSetLinger x (s.atSetLinger x - 1)
        atRelease := Function.update s.atRelease x (s.atRelease x + 1) }
  | givenUp {x : S} (hx : 0 < s.atSetLinger x) :
      Moves s { s with
        objects := s.objects.release x
        atSetLinger := Function.update s.atSetLinger x (s.atSetLinger x - 1) }
  | released {x : S} (hx : 0 < s.atRelease x) (hlock : s.sessionLock = false) :
      Moves s { s.releaseSession x with
        objects := (s.releaseSession x).objects.release x
        atRelease := Function.update s.atRelease x (s.atRelease x - 1) }
  | nothing : Moves s s

variable {s s' : State S E} {x : S}

/-- A session of the core is there. -/
theorem Inv.alive_of_mem (inv : Inv s) (hx : x ∈ s.sessions) :
    s.objects.alive x = true := by
  refine inv.counted.alive ?_
  rw [State.refs, if_pos hx]
  omega

/-- So is the one in the local variable of the accept thread. -/
theorem Inv.alive_of_accept (inv : Inv s) (hx : s.acceptPc.session = some x) :
    s.objects.alive x = true := by
  refine inv.counted.alive ?_
  rw [State.refs, holds, if_pos hx]
  omega

/-- And the one in the local variable of the core thread. -/
theorem Inv.alive_of_core (inv : Inv s) (hx : s.corePc.session = some x) :
    s.objects.alive x = true := by
  refine inv.counted.alive ?_
  rw [State.refs, holds, holds, if_pos hx]
  omega

/-- A session that another thread refers to is there. -/
theorem Inv.alive_of_outside (inv : Inv s) (hx : 0 < s.outside x) :
    s.objects.alive x = true := by
  refine inv.counted.alive ?_
  rw [State.refs]
  omega

/-- So is one that another thread closes. -/
theorem Inv.alive_of_setLinger (inv : Inv s) (hx : 0 < s.atSetLinger x) :
    s.objects.alive x = true := by
  refine inv.counted.alive ?_
  rw [State.refs]
  omega

/-- And one that it has closed. -/
theorem Inv.alive_of_release (inv : Inv s) (hx : 0 < s.atRelease x) :
    s.objects.alive x = true := by
  refine inv.counted.alive ?_
  rw [State.refs]
  omega

/-- A session whose receive has an owner is there. -/
theorem Inv.alive_of_recv (inv : Inv s) {y : S} (hx : s.owner (.recv x) = some y) :
    s.objects.alive x = true := by
  refine inv.counted.alive ?_
  rw [State.refs, hx, owned]
  omega

/-- A session with an event is there. -/
theorem Inv.alive_of_send (inv : Inv s) {e : E} (he : s.owner (.send e) = some x) :
    s.objects.alive x = true := by
  have hmem : e ∈ s.events := (inv.sends e).mp (by rw [he]; exact Option.some_ne_none x)
  have hpos : 0 < s.sendRefs x :=
    Finset.card_pos.mpr ⟨e, Finset.mem_filter.mpr ⟨hmem, by simp [he]⟩⟩
  refine inv.counted.alive ?_
  rw [State.refs]
  omega

/-- The owner of an event is there. -/
theorem Inv.alive_of_owner (inv : Inv s) {c : Context S E} (hc : s.owner c = some x) :
    s.objects.alive x = true := by
  cases c with
  | recv y =>
    obtain rfl := inv.recvs y x hc
    exact inv.alive_of_recv hc
  | send e => exact inv.alive_of_send hc

/-- An event that is posted, completed or in the hands of a thread has an owner. -/
theorem Inv.owner_of_token (inv : Inv s) {c : Context S E} (hc : 0 < s.tokenCount c) :
    ∃ x, s.owner c = some x := by
  refine Option.ne_none_iff_exists'.mp fun hnone => ?_
  rw [inv.tokens c, hnone] at hc
  exact Nat.lt_irrefl 0 hc

/-- So has one the core thread is about to post or to handle. -/
theorem Inv.owner_of_core (inv : Inv s) {c : Context S E} (hc : c ∈ s.corePc.tokens) :
    ∃ x, s.owner c = some x := by
  have hpos := List.count_pos_iff.mpr hc
  refine inv.owner_of_token ?_
  rw [State.tokenCount]
  omega

/-- An event with an owner is there. -/
theorem Inv.exists_of_owner (inv : Inv s) {c : Context S E} (hc : s.owner c = some x) :
    s.exists c = true := by
  cases c with
  | recv y => exact inv.alive_of_recv hc
  | send e =>
    have hmem := (inv.sends e).mp (by rw [hc]; exact Option.some_ne_none x)
    simpa [State.exists] using hmem

/-- A receive about to be posted or handled is owned by its session. -/
theorem Inv.recv_of_core (inv : Inv s) (hc : .recv x ∈ s.corePc.tokens) :
    s.owner (.recv x) = some x := by
  obtain ⟨y, hy⟩ := inv.owner_of_core hc
  rw [hy, inv.recvs x y hy]

/-- So is the first one. -/
theorem Inv.recv_of_accept (inv : Inv s) (hpc : s.acceptPc = .rioReceive x) :
    s.owner (.recv x) = some x := by
  have hpos : 0 < s.tokenCount (.recv x) := by
    rw [State.tokenCount, hpc, AcceptPc.tokens, List.count_singleton_self]
    omega
  obtain ⟨y, hy⟩ := inv.owner_of_token hpos
  rw [hy, inv.recvs x y hy]

/-- Where a thread may register the receive of a session, its event has no owner. -/
theorem Inv.owner_of_turn (inv : Inv s) (hturn : 0 < s.acceptPc.turn x + s.corePc.turn x) :
    s.owner (.recv x) = none := by
  have hle := inv.turn x
  rw [State.turns] at hle
  cases howner : s.owner (.recv x) with
  | none => rfl
  | some y =>
    rw [howner, owned] at hle
    omega

/-- The event of a session that is not there has no owner. -/
theorem Inv.owner_of_not_alive (inv : Inv s) (hx : s.objects.alive x = false) :
    s.owner (.recv x) = none := by
  cases howner : s.owner (.recv x) with
  | none => rfl
  | some y =>
    rw [inv.alive_of_recv howner] at hx
    cases hx

omit [DecidableEq S] [DecidableEq E] in
/-- To use an object that is there does nothing. -/
theorem touch_eq (inv : s.dangling = false) (hx : s.objects.alive x = true) : s.touch x = s := by
  rw [State.touch, hx]
  simp [← inv]

omit [DecidableEq S] in
/-- To use an event that is there does nothing either. -/
theorem touchEvent_eq {c : Context S E} (inv : s.dangling = false) (hc : s.exists c = true) :
    s.touchEvent c = s := by
  rw [State.touchEvent, hc]
  simp [← inv]

/-- An event without an owner gets one. -/
theorem assign_some {c : Context S E} (hc : s.owner c = none) : s.assign c (some x) = { s with
    objects := s.objects.copy x
    owner := Function.update s.owner c (some x) } := by
  rw [State.assign, hc]
  rfl

/-- An event loses its owner. -/
theorem assign_none {c : Context S E} (hc : s.owner c = some x) : s.assign c none = { s with
    objects := s.objects.release x
    owner := Function.update s.owner c none } := by
  rw [State.assign, hc]
  rfl

omit [DecidableEq S] in
/-- An event that is there is deleted. -/
theorem deleteEvent_eq {e : E} (he : e ∈ s.events) :
    s.deleteEvent e = { s with events := s.events.erase e } := by
  rw [State.deleteEvent]
  simp [he]

/-- The core thread moves on where it holds the lock or does not. -/
theorem Inv.coreMoved (inv : Inv s) {connected : S → Bool} {pc : CorePc S E}
    (hsession : pc.session = s.corePc.session) (htokens : pc.tokens = s.corePc.tokens)
    (hturn : ∀ x, pc.turn x ≤ s.corePc.turn x) (hok : s.CoreOk pc)
    (hdeferred : pc.deferred = s.corePc.deferred) :
    Moves s { s with connected := connected, corePc := pc } := by
  have hmoves : Moves s { s with
      connected := connected
      sessionLock := pc.deferred
      corePc := pc } := .coreMoved pc hsession htokens hturn hok
  rwa [hdeferred, ← inv.lock] at hmoves

omit [DecidableEq E] in
/-- A step of `Disconnect` changes the flag, or takes the session from the core. -/
theorem disconnect_cases {ok : Bool} {stage : Stage} {stage' : Option Stage}
    (hdangling : s.dangling = false) (hx : s.objects.alive x = true)
    (h : s.disconnect x ok stage = some (s', stage')) :
    (∃ connected, s' = { s with connected := connected }) ∨
      s.sessionLock = false ∧ stage' = none ∧ s' = s.releaseSession x := by
  cases stage with
  | exchange =>
    simp only [State.disconnect, touch_eq hdangling hx] at h
    split at h <;> cases h
    · exact .inl ⟨_, rfl⟩
    · exact .inl ⟨s.connected, rfl⟩
  | setLinger =>
    simp only [State.disconnect, touch_eq hdangling hx] at h
    cases h
    exact .inl ⟨s.connected, rfl⟩
  | release =>
    simp only [State.disconnect, touch_eq hdangling hx] at h
    split at h
    · cases h
    · cases h
      exact .inr ⟨Bool.eq_false_of_not_eq_true ‹_›, rfl, rfl⟩

/-- The steps of the accept thread are moves. -/
theorem acceptNext_moves (inv : Inv s) {ok : Bool} (h : s.acceptNext ok = some s') :
    Moves s s' := by
  unfold State.acceptNext at h
  split at h
  · split at h
    · cases h
    · cases h
      exact .sessionAdded ‹_›
  · rename_i x hpc
    cases h
    rw [touch_eq inv.dangling (inv.alive_of_accept (by rw [hpc]; rfl))]
    refine .acceptMoved _ (by rw [hpc]; rfl) (by rw [hpc]; rfl) fun z => by rw [hpc]; rfl
  · rename_i x hpc
    cases h
    rw [touch_eq inv.dangling (inv.alive_of_accept (by rw [hpc]; rfl))]
    refine .acceptMoved _ (by rw [hpc]; rfl) (by rw [hpc]; rfl) fun z => by rw [hpc]; rfl
  · rename_i x hpc
    have howner : s.owner (.recv x) = none :=
      inv.owner_of_turn (by rw [hpc, AcceptPc.turn, if_pos rfl]; omega)
    rw [touch_eq inv.dangling (inv.alive_of_accept (by rw [hpc]; rfl))] at h
    split at h <;> cases h
    · rw [assign_some howner]
      exact .acceptRegisters hpc
    · exact .acceptMoved _ (by rw [hpc]; rfl) (by rw [hpc]; rfl) fun z => Nat.zero_le _
  · rename_i x hpc
    rw [touch_eq inv.dangling (inv.alive_of_accept (by rw [hpc]; rfl))] at h
    split at h <;> cases h
    · exact .acceptPosted hpc
    · rw [assign_none (inv.recv_of_accept hpc)]
      exact .acceptRefused hpc
  · rename_i x stage hpc
    obtain ⟨⟨s₁, stage'⟩, hclose, rfl⟩ := Option.map_eq_some_iff.mp h
    have hx := inv.alive_of_accept (x := x) (by rw [hpc]; rfl)
    rcases disconnect_cases inv.dangling hx hclose with ⟨connected, rfl⟩ | ⟨hlock, rfl, rfl⟩
    · refine .acceptMoved _ ?_ ?_ fun z => ?_ <;> rw [hpc] <;> cases stage' <;> rfl
    · exact .acceptReleases hpc hlock
  · rename_i x hpc
    cases h
    exact .acceptReturned hpc
  · cases h

/-- The core thread handles a send. -/
theorem eventDeleted (inv : Inv s) {e : E} {rest : List (Context S E)} {pc : CorePc S E}
    (howner : s.owner (.send e) = some x) (htokens : s.corePc.tokens = .send e :: rest)
    (hsession : pc.session = s.corePc.session) (hrest : pc.tokens = rest)
    (hturn : ∀ z, pc.turn z = 0) (hok : s.CoreOk pc) (hdeferred : pc.deferred = s.corePc.deferred) :
    Moves s { (s.assign (.send e) none).deleteEvent e with corePc := pc } := by
  have hmem : e ∈ s.events := (inv.sends e).mp (by rw [howner]; exact Option.some_ne_none x)
  have hdeleted : (s.assign (.send e) none).deleteEvent e = { s with
      objects := s.objects.release x
      events := s.events.erase e
      owner := Function.update s.owner (.send e) none } := by
    rw [assign_none howner]
    exact deleteEvent_eq hmem
  rw [hdeleted]
  exact .eventDeleted pc howner htokens hsession hrest hturn hok hdeferred

/-- The steps of the core thread in `Dispatch` are moves. -/
theorem coreNext_moves (inv : Inv s) {ok : Bool} (h : s.coreNext ok = some s') : Moves s s' := by
  have hcore := inv.core
  unfold State.coreNext at h
  split at h
  · rename_i hpc
    cases h
    exact inv.coreMoved (by rw [hpc]; rfl) (by rw [hpc]; rfl) (fun z => Nat.zero_le _) trivial
      (by rw [hpc]; rfl)
  · rename_i c rest hpc
    obtain ⟨x, hx⟩ := inv.owner_of_core (c := c) (by rw [hpc]; exact List.mem_cons_self)
    rw [if_pos (inv.exists_of_owner hx), hx] at h
    dsimp only at h
    cases h
    rw [touch_eq inv.dangling (inv.alive_of_owner hx)]
    exact .taken hpc hx
  · rename_i x y rest hpc
    cases h
    rw [hpc] at hcore
    obtain rfl := inv.recvs y x hcore
    rw [touchEvent_eq inv.dangling (inv.exists_of_owner hcore),
      touch_eq inv.dangling (inv.alive_of_core (by rw [hpc]; rfl)), assign_none hcore]
    refine .coreHandles _ hcore (by rw [hpc]; rfl) ?_ ?_ (fun z => ?_) ?_ ?_ <;> try rw [hpc]
    all_goals cases ok <;>
      first | rfl | trivial | exact le_rfl | exact Nat.zero_le _ | exact ⟨.inl rfl, trivial⟩
  · rename_i x e rest hpc
    cases h
    rw [hpc] at hcore
    rw [touchEvent_eq inv.dangling (inv.exists_of_owner hcore),
      touch_eq inv.dangling (inv.alive_of_core (by rw [hpc]; rfl))]
    refine eventDeleted inv hcore (by rw [hpc]; rfl) ?_ ?_ (fun z => ?_) ?_ ?_ <;>
      try rw [hpc]
    all_goals cases ok <;> first | rfl | trivial | exact ⟨.inl rfl, trivial⟩
  · rename_i x rest hpc
    cases h
    rw [touch_eq inv.dangling (inv.alive_of_core (by rw [hpc]; rfl))]
    refine inv.coreMoved ?_ ?_ (fun z => ?_) ?_ ?_ <;> try rw [hpc]
    all_goals cases ok <;>
      first | rfl | trivial | exact Nat.zero_le _ | exact ⟨.inl rfl, trivial⟩
  · rename_i x rest hpc
    have hx := inv.alive_of_core (x := x) (by rw [hpc]; rfl)
    have howner : s.owner (.recv x) = none :=
      inv.owner_of_turn (by rw [hpc, CorePc.turn, if_pos rfl]; omega)
    rw [touch_eq inv.dangling hx] at h
    split at h <;> cases h
    · rw [assign_some howner]
      exact .coreRegisters hpc
    · exact inv.coreMoved (by rw [hpc]; rfl) (by rw [hpc]; rfl) (fun z => Nat.zero_le _) trivial
        (by rw [hpc]; rfl)
  · rename_i x rest hpc
    rw [touch_eq inv.dangling (inv.alive_of_core (by rw [hpc]; rfl))] at h
    split at h <;> cases h
    · exact .corePosted hpc
    · have howner := inv.recv_of_core (x := x) (by rw [hpc]; exact List.mem_cons_self)
      rw [assign_none howner]
      exact .coreHandles _ howner (by rw [hpc]; rfl) (by rw [hpc]; rfl) rfl
        (fun z => Nat.zero_le _) ⟨.inl rfl, trivial⟩ (by rw [hpc]; rfl)
  · rename_i x rest hpc
    cases h
    exact .coreReturned hpc
  · rename_i x stage after hpc
    obtain ⟨⟨s₁, stage'⟩, hclose, rfl⟩ := Option.map_eq_some_iff.mp h
    rw [hpc] at hcore
    have hx : s.objects.alive x = true := by
      rcases hcore.1 with hlocal | ⟨-, hmem⟩
      · exact inv.alive_of_core (by rw [hpc]; exact hlocal)
      · exact inv.alive_of_mem hmem
    rcases disconnect_cases inv.dangling hx hclose with ⟨connected, rfl⟩ | ⟨hlock, rfl, rfl⟩
    · refine inv.coreMoved ?_ ?_ (fun z => ?_) ?_ ?_ <;> try rw [hpc]
      all_goals cases stage' <;> first | rfl | exact le_rfl | exact hcore.2 | exact hcore
    · exact .coreReleases hpc hlock
  · cases h

/-- Every step of a sound state is one of the moves. -/
theorem step_moves (inv : Inv s) {a : Action S E} (h : step s a = some s') : Moves s s' := by
  have hcore := inv.core
  cases a with
  | accept x ok =>
    simp only [step] at h
    split at h
    · obtain ⟨hpc, hx⟩ := ‹s.acceptPc = .accept ∧ s.objects.alive x = false›
      split at h <;> cases h
      · exact .accepted x hpc hx
      · refine .acceptMoved _ ?_ ?_ fun z => ?_ <;> rw [hpc] <;> rfl
    · cases h
  | acceptNext ok => exact acceptNext_moves inv h
  | lock =>
    simp only [step] at h
    split at h
    · obtain ⟨hpc, -⟩ := ‹s.corePc = .idle ∧ s.sessionLock = false›
      cases h
      refine .coreMoved (.deferredSend ∅) ?_ ?_ (fun z => ?_) trivial <;> rw [hpc] <;> rfl
    · cases h
  | visit x =>
    simp only [step] at h
    split at h
    · rename_i visited hpc
      split at h
      · obtain ⟨hx, -⟩ := ‹x ∈ s.sessions ∧ x ∉ visited›
        cases h
        rw [touch_eq inv.dangling (inv.alive_of_mem hx)]
        refine inv.coreMoved ?_ ?_ (fun z => ?_) ?_ ?_ <;> try rw [hpc]
        all_goals split <;> first | rfl | exact hx | trivial
      · cases h
    · cases h
  | newEvent e =>
    simp only [step] at h
    split at h
    · rename_i x visited hpc
      rw [hpc] at hcore
      split at h
      · obtain ⟨-, he⟩ := ‹s.connected x = true ∧ e ∉ s.events›
        cases h
        have hnew : (s.newEvent e).assign (.send e) (some x) = { s with
            objects := s.objects.copy x
            events := insert e s.events
            owner := Function.update s.owner (.send e) (some x) } := by
          rw [assign_some (by simp [State.newEvent]), State.newEvent]
          simp
        rw [touch_eq inv.dangling (inv.alive_of_mem hcore), hnew]
        exact .eventMade hpc he
      · cases h
    · cases h
  | rioSend result =>
    simp only [step] at h
    split at h
    · rename_i x e visited hpc
      rw [hpc] at hcore
      rw [touch_eq inv.dangling (inv.alive_of_mem hcore.1)] at h
      cases result with
      | posted =>
        cases h
        exact .sendPosted hpc
      | noBufs =>
        cases h
        exact eventDeleted inv hcore.2 (by rw [hpc]; rfl) (by rw [hpc]; rfl) rfl (fun z => rfl)
          hcore.1 (by rw [hpc]; rfl)
      | failed =>
        cases h
        exact eventDeleted inv hcore.2 (by rw [hpc]; rfl) (by rw [hpc]; rfl) rfl (fun z => rfl)
          ⟨.inr ⟨rfl, hcore.1⟩, hcore.1⟩ (by rw [hpc]; rfl)
    · cases h
  | sendFails =>
    simp only [step] at h
    split at h
    · rename_i x visited hpc
      cases h
      rw [hpc] at hcore
      rw [touch_eq inv.dangling (inv.alive_of_mem hcore)]
      refine inv.coreMoved ?_ ?_ (fun z => ?_) ⟨.inr ⟨rfl, hcore⟩, hcore⟩ ?_ <;> rw [hpc] <;> rfl
    · cases h
  | sendsDone =>
    simp only [step] at h
    split at h
    · rename_i x visited hpc
      cases h
      rw [hpc] at hcore
      rw [touch_eq inv.dangling (inv.alive_of_mem hcore)]
      refine inv.coreMoved ?_ ?_ (fun z => ?_) trivial ?_ <;> rw [hpc] <;> rfl
    · cases h
  | unlock =>
    simp only [step] at h
    split at h
    · rename_i visited hpc
      split at h
      · cases h
        refine .coreMoved .dispatch ?_ ?_ (fun z => ?_) trivial <;> rw [hpc] <;> rfl
      · cases h
    · cases h
  | dequeue n =>
    simp only [step] at h
    split at h
    · split at h
      · cases h
        exact .dequeued n ‹_›
      · cases h
    · cases h
  | coreNext ok => exact coreNext_moves inv h
  | handlerDisconnect =>
    simp only [step] at h
    split at h
    · rename_i x rest hpc
      cases h
      refine inv.coreMoved ?_ ?_ (fun z => ?_) ⟨.inl rfl, trivial⟩ ?_ <;> rw [hpc] <;> rfl
    · cases h
  | complete c =>
    simp only [step] at h
    split at h
    · cases h
      exact .completed ‹_›
    · cases h
  | copy x =>
    simp only [step] at h
    split at h
    · cases h
      exact .copied x ‹_›
    · cases h
  | drop x =>
    simp only [step] at h
    split at h
    · cases h
      exact .dropped ‹_›
    · cases h
  | exchange x =>
    simp only [step] at h
    split at h
    · rw [touch_eq inv.dangling (inv.alive_of_outside ‹_›)] at h
      split at h <;> cases h
      · exact .exchanged ‹_›
      · exact .nothing
    · cases h
  | setLinger x ok =>
    simp only [step] at h
    split at h
    · rw [touch_eq inv.dangling (inv.alive_of_setLinger ‹_›)] at h
      split at h <;> cases h
      · exact .lingered ‹_›
      · exact .givenUp ‹_›
    · cases h
  | release x =>
    simp only [step] at h
    split at h
    · obtain ⟨hx, hlock⟩ := ‹0 < s.atRelease x ∧ s.sessionLock = false›
      cases h
      rw [touch_eq inv.dangling (inv.alive_of_release hx)]
      exact .released hx hlock
    · cases h

end Moves

section Invariant

variable {S E : Type*} [DecidableEq S] [DecidableEq E] {s s' : State S E} {x : S}

/-- There are no sessions and no events at first. -/
theorem inv_init : Inv (init : State S E) where
  counted := counted_init.same fun x => by
    simp [State.refs, State.sendRefs, init, AcceptPc.session, CorePc.session, holds, owned]
  tokens c := by simp [State.tokenCount, init, AcceptPc.tokens, CorePc.tokens, owned]
  sends e := by simp [init]
  recvs x y h := by cases h
  turn x := by simp [State.turns, init, AcceptPc.turn, CorePc.turn, owned]
  core := trivial
  lock := rfl
  dangling := rfl
  errors := rfl

omit [DecidableEq S] [DecidableEq E] in
/-- The core thread can rely on what it has found while it has the lock, and on the events
in its hands. -/
theorem coreOk_mono {pc : CorePc S E} (h : s.CoreOk pc)
    (hsessions : pc.deferred = true → ∀ x ∈ s.sessions, x ∈ s'.sessions)
    (howner : ∀ c ∈ pc.tokens, s'.owner c = s.owner c) : s'.CoreOk pc := by
  induction pc with
  | sendDeferred x visited => exact hsessions rfl x h
  | rioSend x e visited =>
    exact ⟨hsessions rfl x h.1, (howner _ List.mem_cons_self).trans h.2⟩
  | dispatched x c rest => exact (howner _ List.mem_cons_self).trans h
  | disconnect x stage after ih =>
    exact ⟨h.1.imp_right fun hmem => ⟨hmem.1, hsessions hmem.1 x hmem.2⟩,
      ih h.2 hsessions howner⟩
  | _ => trivial

/-- An event that is in the hands of the core thread once is not in what is left. -/
theorem Inv.not_mem_rest (inv : Inv s) {c : Context S E} {rest : List (Context S E)}
    (htokens : s.corePc.tokens = c :: rest) : c ∉ rest := by
  intro hmem
  have hpos := List.count_pos_iff.mpr hmem
  have hcount := inv.tokens c
  rw [State.tokenCount, htokens, List.count_cons_self] at hcount
  cases howner : s.owner c <;> rw [howner, owned] at hcount <;> omega

/-- An event of the accept thread is not in the hands of the core thread. -/
theorem Inv.not_mem_core (inv : Inv s) (hpc : s.acceptPc = .rioReceive x) :
    .recv x ∉ s.corePc.tokens := by
  intro hmem
  have hpos := List.count_pos_iff.mpr hmem
  have hcount := inv.tokens (.recv x)
  rw [State.tokenCount, hpc, AcceptPc.tokens, List.count_singleton_self] at hcount
  cases howner : s.owner (.recv x) <;> rw [howner, owned] at hcount <;> omega

/-- Neither is one without an owner. -/
theorem Inv.not_mem_of_none (inv : Inv s) {c : Context S E} (hc : s.owner c = none) :
    c ∉ s.corePc.tokens := by
  intro hmem
  obtain ⟨x, hx⟩ := inv.owner_of_core hmem
  rw [hc] at hx
  cases hx

omit [DecidableEq S] [DecidableEq E] in
/-- Other events keep their owners. -/
theorem owner_update [DecidableEq (Context S E)] {c : Context S E} {owner : Option S}
    {cs : List (Context S E)} (hc : c ∉ cs) :
    ∀ d ∈ cs, Function.update s.owner c owner d = s.owner d := by
  intro d hd
  refine Function.update_of_ne (fun heq => ?_) _ _
  rw [heq] at hd
  exact hc hd

/-- A step leaves what the core thread can rely on. -/
theorem core_step (inv : Inv s) (h : Moves s s') : s'.CoreOk s'.corePc := by
  have hcore := inv.core
  cases h with
  | accepted x hpc hx =>
    have hnone := inv.owner_of_not_alive hx
    exact coreOk_mono hcore (fun _ _ hy => hy) (owner_update (inv.not_mem_of_none hnone))
  | coreMoved pc hsession htokens hturn hok =>
    exact coreOk_mono hok (fun _ _ hy => hy) fun _ _ => rfl
  | sessionAdded hpc =>
    exact coreOk_mono hcore (fun _ y hy => Finset.mem_insert_of_mem hy) fun _ _ => rfl
  | acceptReleases hpc hlock =>
    have hfree : s.corePc.deferred = false := inv.lock.symm.trans hlock
    exact coreOk_mono hcore (fun h => Bool.noConfusion (hfree.symm.trans h)) fun _ _ => rfl
  | coreReleases hpc hlock =>
    rw [hpc] at hcore
    refine coreOk_mono hcore.2 (fun hdeferred => ?_) fun _ _ => rfl
    have hnot := inv.lock
    rw [hlock, hpc, CorePc.deferred, hdeferred] at hnot
    cases hnot
  | acceptRegisters hpc =>
    have hnone := inv.owner_of_turn (x := _) (by rw [hpc, AcceptPc.turn, if_pos rfl]; omega)
    exact coreOk_mono hcore (fun _ _ hy => hy) (owner_update (inv.not_mem_of_none hnone))
  | acceptRefused hpc =>
    exact coreOk_mono hcore (fun _ _ hy => hy) (owner_update (inv.not_mem_core hpc))
  | coreHandles pc howner htokens hsession hrest hturn hok hdeferred =>
    refine coreOk_mono hok (fun _ _ hy => hy) (owner_update ?_)
    rw [hrest]
    exact inv.not_mem_rest htokens
  | taken hpc howner => exact howner
  | eventMade hpc he =>
    rw [hpc] at hcore
    exact ⟨hcore, Function.update_self _ _ _⟩
  | sendPosted hpc =>
    rw [hpc] at hcore
    exact hcore.1
  | eventDeleted pc howner htokens hsession hrest hturn hok hdeferred =>
    refine coreOk_mono hok (fun _ _ hy => hy) (owner_update ?_)
    rw [hrest]
    exact inv.not_mem_rest htokens
  | released hx hlock =>
    have hfree : s.corePc.deferred = false := inv.lock.symm.trans hlock
    exact coreOk_mono hcore (fun h => Bool.noConfusion (hfree.symm.trans h)) fun _ _ => rfl
  | _ => first | trivial | exact coreOk_mono hcore (fun _ _ hy => hy) fun _ _ => rfl

/-- The lock is held in `DeferredSend`, nothing is used after its destruction, and nothing
is reported. -/
theorem flags_step (inv : Inv s) (h : Moves s s') :
    s'.sessionLock = s'.corePc.deferred ∧ s'.dangling = false ∧ s'.errors = [] := by
  have hlock := inv.lock
  have hdangling := inv.dangling
  have herrors := inv.errors
  cases h with
  | coreMoved pc hsession htokens hturn hok => exact ⟨rfl, hdangling, herrors⟩
  | coreHandles pc howner htokens hsession hrest hturn hok hdeferred =>
    exact ⟨hlock.trans hdeferred.symm, hdangling, herrors⟩
  | eventDeleted pc howner htokens hsession hrest hturn hok hdeferred =>
    exact ⟨hlock.trans hdeferred.symm, hdangling, herrors⟩
  | coreReleases hpc hfree => exact ⟨hlock.trans (by rw [hpc]; rfl), hdangling, herrors⟩
  | coreRegisters hpc => exact ⟨hlock.trans (by rw [hpc]; rfl), hdangling, herrors⟩
  | corePosted hpc => exact ⟨hlock.trans (by rw [hpc]; rfl), hdangling, herrors⟩
  | coreReturned hpc => exact ⟨hlock.trans (by rw [hpc]; rfl), hdangling, herrors⟩
  | taken hpc howner => exact ⟨hlock.trans (by rw [hpc]; rfl), hdangling, herrors⟩
  | dequeued n hpc => exact ⟨hlock.trans (by rw [hpc]; rfl), hdangling, herrors⟩
  | eventMade hpc he => exact ⟨hlock.trans (by rw [hpc]; rfl), hdangling, herrors⟩
  | sendPosted hpc => exact ⟨hlock.trans (by rw [hpc]; rfl), hdangling, herrors⟩
  | _ => exact ⟨hlock, hdangling, herrors⟩

/-- What a step does to the events that are posted, completed or in the hands of a thread,
and to their owners. -/
inductive Passes (s s' : State S E) : Prop
  /-- They go from hand to hand. -/
  | keeps (howner : s'.owner = s.owner) (htokens : ∀ c, s'.tokenCount c = s.tokenCount c)
  /-- One is added and gets an owner. -/
  | gives (c : Context S E) (x : S) (hnone : s.owner c = none)
      (howner : s'.owner = Function.update s.owner c (some x))
      (htokens : ∀ d, s'.tokenCount d = s.tokenCount d + if d = c then 1 else 0)
      (hrecv : ∀ y, c = .recv y → x = y)
  /-- One loses its owner and is gone. -/
  | takes (c : Context S E) (x : S) (hsome : s.owner c = some x)
      (howner : s'.owner = Function.update s.owner c none)
      (htokens : ∀ d, s.tokenCount d = s'.tokenCount d + if d = c then 1 else 0)

/-- The first event of a list and the rest. -/
theorem count_cons_event (c d : Context S E) (rest : List (Context S E)) :
    (c :: rest).count d = rest.count d + if d = c then 1 else 0 := by
  rw [List.count_cons]
  by_cases h : d = c
  · rw [if_pos h, if_pos (beq_iff_eq.mpr h.symm)]
  · rw [if_neg h, if_neg fun heq => h (beq_iff_eq.mp heq).symm]

/-- Every step passes the events on. -/
theorem moves_passes (inv : Inv s) (h : Moves s s') : Passes s s' := by
  cases h with
  | accepted x hpc hx =>
    have hnone := inv.owner_of_not_alive hx
    refine .keeps ?_ fun c => by simp only [State.tokenCount, hpc, AcceptPc.tokens]
    exact Function.update_eq_self_iff.mpr hnone.symm
  | acceptMoved pc hsession htokens hturn =>
    exact .keeps rfl fun c => by simp only [State.tokenCount, htokens]
  | coreMoved pc hsession htokens hturn hok =>
    exact .keeps rfl fun c => by simp only [State.tokenCount, htokens]
  | sessionAdded hpc =>
    exact .keeps rfl fun c => by
      simp only [State.tokenCount, State.addSession, hpc, AcceptPc.tokens]
  | acceptReleases hpc hlock =>
    exact .keeps rfl fun c => by
      simp only [State.tokenCount, State.releaseSession, hpc, AcceptPc.tokens]
  | coreReleases hpc hlock =>
    exact .keeps rfl fun c => by
      simp only [State.tokenCount, State.releaseSession, hpc, CorePc.tokens]
  | @acceptRegisters x hpc =>
    refine .gives (.recv x) x (inv.owner_of_turn ?_) rfl (fun d => ?_) fun y hy => by cases hy; rfl
    · rw [hpc, AcceptPc.turn, if_pos rfl]
      omega
    · simp only [State.tokenCount, hpc, AcceptPc.tokens, count_cons_event]
      omega
  | @coreRegisters x rest hpc =>
    refine .gives (.recv x) x (inv.owner_of_turn ?_) rfl (fun d => ?_) fun y hy => by cases hy; rfl
    · rw [hpc, CorePc.turn, if_pos rfl]
      omega
    · simp only [State.tokenCount, hpc, CorePc.tokens, count_cons_event]
      omega
  | acceptPosted hpc =>
    refine .keeps rfl fun c => ?_
    simp only [State.tokenCount, hpc, AcceptPc.tokens, List.count_append, List.count_nil]
    omega
  | corePosted hpc =>
    refine .keeps rfl fun c => ?_
    simp only [State.tokenCount, hpc, CorePc.tokens, List.count_append, count_cons_event,
      List.count_nil]
    omega
  | @acceptRefused x hpc =>
    refine .takes (.recv x) x (inv.recv_of_accept hpc) rfl fun d => ?_
    simp only [State.tokenCount, hpc, AcceptPc.tokens, count_cons_event]
    omega
  | @coreHandles x rest pc howner htokens hsession hrest hturn hok hdeferred =>
    refine .takes (.recv x) x howner rfl fun d => ?_
    simp only [State.tokenCount, htokens, hrest, count_cons_event]
    omega
  | acceptReturned hpc =>
    exact .keeps rfl fun c => by simp only [State.tokenCount, hpc, AcceptPc.tokens]
  | coreReturned hpc =>
    exact .keeps rfl fun c => by simp only [State.tokenCount, hpc, CorePc.tokens]
  | taken hpc howner =>
    exact .keeps rfl fun c => by simp only [State.tokenCount, hpc, CorePc.tokens]
  | dequeued n hpc =>
    refine .keeps rfl fun c => ?_
    have hsplit : s.completionQueue.count c =
        (s.completionQueue.take n).count c + (s.completionQueue.drop n).count c := by
      rw [← List.count_append, List.take_append_drop]
    simp only [State.tokenCount, hpc, CorePc.tokens, List.count_nil, hsplit]
    omega
  | @completed c hc =>
    refine .keeps rfl fun d => ?_
    have hpos := List.count_pos_iff.mpr hc
    simp only [State.tokenCount, List.count_append, List.count_erase, count_cons_event,
      List.count_nil]
    by_cases hd : d = c
    · subst hd
      simp only [beq_self_eq_true, if_true]
      omega
    · rw [if_neg hd, if_neg fun heq => hd (beq_iff_eq.mp heq).symm]
      omega
  | @eventMade x e visited hpc he =>
    refine .gives (.send e) x ?_ rfl (fun d => ?_) fun y hy => by cases hy
    · by_contra hsome
      exact he ((inv.sends e).mp hsome)
    · simp only [State.tokenCount, hpc, CorePc.tokens, count_cons_event]
      omega
  | sendPosted hpc =>
    refine .keeps rfl fun c => ?_
    simp only [State.tokenCount, hpc, CorePc.tokens, List.count_append, List.count_nil]
    omega
  | @eventDeleted x e rest pc howner htokens hsession hrest hturn hok hdeferred =>
    refine .takes (.send e) x howner rfl fun d => ?_
    simp only [State.tokenCount, htokens, hrest, count_cons_event]
    omega
  | _ => exact .keeps rfl fun _ => rfl

/-- An event keeps to its one place. -/
theorem tokens_step (inv : Inv s) (h : Passes s s') (c : Context S E) :
    s'.tokenCount c = owned (s'.owner c) := by
  have hcount := inv.tokens c
  cases h with
  | keeps howner htokens => rw [howner, htokens, hcount]
  | gives d x hnone howner htokens hrecv =>
    rw [howner, htokens]
    by_cases hc : c = d
    · subst hc
      rw [Function.update_self, hcount, hnone, if_pos rfl]
      rfl
    · rw [Function.update_of_ne hc, if_neg hc, hcount, Nat.add_zero]
  | takes d x hsome howner htokens =>
    rw [htokens c] at hcount
    rw [howner]
    by_cases hc : c = d
    · subst hc
      rw [if_pos rfl, hsome, owned] at hcount
      rw [Function.update_self, owned]
      omega
    · rw [if_neg hc, Nat.add_zero] at hcount
      rw [Function.update_of_ne hc, hcount]

/-- The owner of a `m_recvEvent` stays its session. -/
theorem recvs_step (inv : Inv s) (h : Passes s s') {x y : S} (hy : s'.owner (.recv x) = some y) :
    y = x := by
  cases h with
  | keeps howner htokens =>
    rw [howner] at hy
    exact inv.recvs x y hy
  | gives c z hnone howner htokens hrecv =>
    rw [howner] at hy
    by_cases hc : .recv x = c
    · rw [hc, Function.update_self] at hy
      cases hy
      exact hrecv x hc.symm
    · rw [Function.update_of_ne hc] at hy
      exact inv.recvs x y hy
  | takes c z hsome howner htokens =>
    rw [howner] at hy
    by_cases hc : .recv x = c
    · rw [hc, Function.update_self] at hy
      cases hy
    · rw [Function.update_of_ne hc] at hy
      exact inv.recvs x y hy

/-- The owner of a `RioSendEvent` does not change with that of a `m_recvEvent`. -/
theorem owner_send_update {owner : Option S} (e : E) :
    Function.update s.owner (.recv x) owner (.send e) = s.owner (.send e) :=
  Function.update_of_ne (by simp) _ _

/-- And the other way round. -/
theorem owner_recv_update {owner : Option S} (e : E) :
    Function.update s.owner (.send e) owner (.recv x) = s.owner (.recv x) :=
  Function.update_of_ne (by simp) _ _

/-- The `RioSendEvent`s stay those with an owner. -/
theorem sends_step (inv : Inv s) (h : Moves s s') (e : E) :
    s'.owner (.send e) ≠ none ↔ e ∈ s'.events := by
  have hold := inv.sends e
  cases h with
  | accepted x hpc hx => simpa only [owner_send_update] using hold
  | acceptRegisters hpc => simpa only [owner_send_update] using hold
  | coreRegisters hpc => simpa only [owner_send_update] using hold
  | acceptRefused hpc => simpa only [owner_send_update] using hold
  | coreHandles pc howner htokens hsession hrest hturn hok hdeferred =>
    simpa only [owner_send_update] using hold
  | @eventMade x e' visited hpc he =>
    by_cases heq : e = e'
    · subst heq
      simp
    · simp [heq, hold]
  | @eventDeleted x e' rest pc howner htokens hsession hrest hturn hok hdeferred =>
    by_cases heq : e = e'
    · subst heq
      simp
    · simp [heq, hold]
  | _ => exact hold

/-- A new session has had no turn yet. -/
theorem turns_of_new (inv : Inv s) (hpc : s.acceptPc = .accept) (hx : s.objects.alive x = false) :
    s.turns x = 0 := by
  have hnone := inv.owner_of_not_alive hx
  have hturn : ∀ pc : CorePc S E, pc.session ≠ some x → pc.turn x = 0 := by
    intro pc hsession
    induction pc with
    | onRecv y rest => exact if_neg fun heq => hsession (by rw [heq]; rfl)
    | registerRecv y rest => exact if_neg fun heq => hsession (by rw [heq]; rfl)
    | disconnect y stage after ih => exact ih hsession
    | _ => rfl
  have hcore : s.corePc.turn x = 0 := hturn s.corePc fun hsession => by
    rw [inv.alive_of_core hsession] at hx
    cases hx
  rw [State.turns, hpc, hcore, hnone]
  rfl

/-- The turn to register a receive is passed on, and taken with the registration. -/
theorem turn_step (inv : Inv s) (h : Moves s s') (y : S) : s'.turns y ≤ 1 := by
  have hold : s.turns y ≤ 1 := inv.turn y
  cases h with
  | @accepted connected allocated x hpc hx =>
    have hnew := turns_of_new inv hpc hx
    by_cases hy : y = x
    · subst hy
      simp only [State.turns, hpc, AcceptPc.turn, Function.update_self, if_true, owned] at hnew ⊢
      omega
    · simp only [State.turns, hpc, AcceptPc.turn] at hold ⊢
      rw [Function.update_of_ne (by simpa using hy), if_neg (Ne.symm hy)]
      exact hold
  | acceptMoved pc hsession htokens hturn =>
    have hle := hturn y
    simp only [State.turns] at hold ⊢
    omega
  | coreMoved pc hsession htokens hturn hok =>
    have hle := hturn y
    simp only [State.turns] at hold ⊢
    omega
  | @acceptRegisters x hpc =>
    simp only [State.turns, hpc, AcceptPc.turn] at hold ⊢
    by_cases hy : y = x
    · subst hy
      rw [Function.update_self, owned]
      rw [if_pos rfl] at hold
      omega
    · rw [Function.update_of_ne (by simpa using hy)]
      omega
  | @coreRegisters x rest hpc =>
    simp only [State.turns, hpc, CorePc.turn] at hold ⊢
    by_cases hy : y = x
    · subst hy
      rw [Function.update_self, owned]
      rw [if_pos rfl] at hold
      omega
    · rw [Function.update_of_ne (by simpa using hy)]
      omega
  | @acceptRefused x hpc =>
    simp only [State.turns, hpc, AcceptPc.turn] at hold ⊢
    by_cases hy : y = x
    · subst hy
      rw [Function.update_self, owned]
      omega
    · rw [Function.update_of_ne (by simpa using hy)]
      exact hold
  | @coreHandles x rest pc howner htokens hsession hrest hturn hok hdeferred =>
    have hle := hturn y
    simp only [State.turns] at hold ⊢
    by_cases hy : y = x
    · subst hy
      rw [howner, owned] at hold
      rw [Function.update_self, owned]
      rw [if_pos rfl] at hle
      omega
    · rw [Function.update_of_ne (by simpa using hy)]
      rw [if_neg (Ne.symm hy)] at hle
      omega
  | eventMade hpc he =>
    simp only [State.turns, hpc, CorePc.turn, owner_recv_update] at hold ⊢
    exact hold
  | eventDeleted pc howner htokens hsession hrest hturn hok hdeferred =>
    simp only [State.turns, hturn, owner_recv_update] at hold ⊢
    omega
  | sessionAdded hpc =>
    simpa only [State.turns, State.addSession, hpc, AcceptPc.turn] using hold
  | acceptReleases hpc hlock =>
    simpa only [State.turns, State.releaseSession, hpc, AcceptPc.turn] using hold
  | coreReleases hpc hlock =>
    simpa only [State.turns, State.releaseSession, hpc, CorePc.turn] using hold
  | acceptPosted hpc => simpa only [State.turns, hpc, AcceptPc.turn] using hold
  | corePosted hpc => simpa only [State.turns, hpc, CorePc.turn] using hold
  | acceptReturned hpc => simpa only [State.turns, hpc, AcceptPc.turn] using hold
  | coreReturned hpc => simpa only [State.turns, hpc, CorePc.turn] using hold
  | taken hpc howner => simpa only [State.turns, hpc, CorePc.turn] using hold
  | dequeued n hpc => simpa only [State.turns, hpc, CorePc.turn] using hold
  | sendPosted hpc => simpa only [State.turns, hpc, CorePc.turn] using hold
  | _ => exact hold

/-- A new event is one more that refers to its session. -/
theorem sendRefs_insert {e : E} (he : e ∉ s.events) (y : S) :
    ((insert e s.events).filter fun d =>
        Function.update s.owner (.send e) (some x) (.send d) = some y).card =
      s.sendRefs y + if y = x then 1 else 0 := by
  have hrest : (s.events.filter fun d =>
      Function.update s.owner (.send e) (some x) (.send d) = some y).card = s.sendRefs y := by
    refine congrArg Finset.card (Finset.filter_congr fun d hd => ?_)
    rw [Function.update_of_ne fun heq => he (by cases heq; exact hd)]
  rw [Finset.filter_insert, Function.update_self]
  by_cases hy : y = x
  · subst hy
    rw [if_pos rfl, if_pos rfl, Finset.card_insert_of_notMem (by simp [he]), hrest]
  · rw [if_neg fun heq => hy (Option.some.inj heq).symm, if_neg hy, hrest, Nat.add_zero]

/-- A deleted event is one less. -/
theorem sendRefs_erase {e : E} (he : e ∈ s.events) (howner : s.owner (.send e) = some x) (y : S) :
    s.sendRefs y = ((s.events.erase e).filter fun d =>
        Function.update s.owner (.send e) none (.send d) = some y).card +
      if y = x then 1 else 0 := by
  have hrest : (s.events.erase e).filter (fun d =>
      Function.update s.owner (.send e) none (.send d) = some y) =
      (s.events.filter fun d => s.owner (.send d) = some y).erase e := by
    ext d
    by_cases hd : d = e
    · simp [hd]
    · simp [hd]
  rw [hrest, State.sendRefs]
  by_cases hy : y = x
  · subst hy
    have hmem : e ∈ s.events.filter fun d => s.owner (.send d) = some y :=
      Finset.mem_filter.mpr ⟨he, by simp [howner]⟩
    rw [if_pos rfl, Finset.card_erase_of_mem hmem]
    have hpos := Finset.card_pos.mpr ⟨e, hmem⟩
    omega
  · rw [if_neg hy, Finset.erase_eq_of_notMem, Nat.add_zero]
    intro hmem
    have howned := (Finset.mem_filter.mp hmem).2
    rw [howner] at howned
    exact hy (Option.some.inj howned).symm

omit [DecidableEq E] in
/-- A session is added to the core, once. -/
theorem addSession_refs (y : S) : (if y ∈ insert x s.sessions then 1 else 0) =
    (if y ∈ s.sessions then 1 else 0) + if x ∈ s.sessions then 0 else if y = x then 1 else 0 := by
  by_cases hy : y = x
  · subst hy
    by_cases hx : y ∈ s.sessions <;> simp [hx]
  · by_cases hx : x ∈ s.sessions <;> simp [hy, hx]

omit [DecidableEq E] in
/-- It is released by the core, once. -/
theorem releaseSession_refs (y : S) : (if y ∈ s.sessions then 1 else 0) =
    (if y ∈ s.sessions.erase x then 1 else 0) +
      if x ∈ s.sessions then if y = x then 1 else 0 else 0 := by
  by_cases hy : y = x
  · subst hy
    by_cases hx : y ∈ s.sessions <;> simp [hx]
  · by_cases hx : x ∈ s.sessions <;> simp [hy]

omit [DecidableEq S] in
/-- The event of a session gets an owner. -/
theorem owned_some [DecidableEq S] (hnone : s.owner (.recv x) = none) (y : S) :
    owned (Function.update s.owner (.recv x) (some x) (.recv y)) =
      owned (s.owner (.recv y)) + if y = x then 1 else 0 := by
  by_cases hy : y = x
  · subst hy
    rw [Function.update_self, hnone, if_pos rfl]
    rfl
  · rw [Function.update_of_ne (by simpa using hy), if_neg hy, Nat.add_zero]

/-- It loses its owner. -/
theorem owned_none (hsome : s.owner (.recv x) = some x) (y : S) :
    owned (s.owner (.recv y)) =
      owned (Function.update s.owner (.recv x) none (.recv y)) + if y = x then 1 else 0 := by
  by_cases hy : y = x
  · subst hy
    rw [Function.update_self, hsome, if_pos rfl]
    rfl
  · rw [Function.update_of_ne (by simpa using hy), if_neg hy, Nat.add_zero]

/-- A local variable refers to its session. -/
theorem holds_some (y : S) : holds (some x) y = if y = x then 1 else 0 := by
  by_cases hy : y = x
  · subst hy
    rw [holds, if_pos rfl, if_pos rfl]
  · rw [holds, if_neg fun heq => hy (Option.some.inj heq).symm, if_neg hy]

/-- A local variable that is empty refers to nothing. -/
theorem holds_none (y : S) : holds none y = 0 := if_neg (by simp)

/-- A count goes up for one session. -/
theorem update_add_one (f : S → ℕ) (y : S) :
    Function.update f x (f x + 1) y = f y + if y = x then 1 else 0 := by
  by_cases hy : y = x
  · subst hy
    rw [Function.update_self, if_pos rfl]
  · rw [Function.update_of_ne hy, if_neg hy, Nat.add_zero]

/-- A count goes down for one session. -/
theorem update_sub_one {f : S → ℕ} (hx : 0 < f x) (y : S) :
    f y = Function.update f x (f x - 1) y + if y = x then 1 else 0 := by
  by_cases hy : y = x
  · subst hy
    rw [Function.update_self, if_pos rfl]
    omega
  · rw [Function.update_of_ne hy, if_neg hy, Nat.add_zero]

omit [DecidableEq E] in
/-- The set of the core refers to an added session. -/
theorem counted_addSession {refs refs' : S → ℕ} (h : Counted s.objects refs)
    (hx : s.objects.alive x = true) (hrefs : ∀ y, refs' y = refs y +
      if x ∈ s.sessions then 0 else if y = x then 1 else 0) :
    Counted (s.addSession x).objects refs' := by
  by_cases hmem : x ∈ s.sessions
  · simp only [State.addSession, if_pos hmem] at hrefs ⊢
    exact h.same hrefs
  · simp only [State.addSession, if_neg hmem] at hrefs ⊢
    exact h.copy hx hrefs

omit [DecidableEq E] in
/-- It does not refer to a released one. -/
theorem counted_releaseSession {refs refs' : S → ℕ} (h : Counted s.objects refs)
    (hrefs : ∀ y, refs y = refs' y + if x ∈ s.sessions then if y = x then 1 else 0 else 0) :
    Counted (s.releaseSession x).objects refs' := by
  by_cases hmem : x ∈ s.sessions
  · simp only [State.releaseSession, if_pos hmem] at hrefs ⊢
    exact h.release hrefs
  · simp only [State.releaseSession, if_neg hmem] at hrefs ⊢
    exact h.same fun y => (hrefs y).symm

/-- A step keeps the use counts right. -/
theorem counted_step (inv : Inv s) (h : Moves s s') : Counted s'.objects s'.refs := by
  have hcounted := inv.counted
  cases h with
  | @accepted connected allocated x hpc hx =>
    have howner : Function.update s.owner (.recv x) none = s.owner :=
      Function.update_eq_self_iff.mpr (inv.owner_of_not_alive hx).symm
    refine hcounted.make hx fun y => ?_
    simp only [State.refs, State.sendRefs, howner, hpc, AcceptPc.session, holds_some, holds_none]
    omega
  | acceptMoved pc hsession htokens hturn =>
    exact hcounted.same fun y => by simp only [State.refs, State.sendRefs, hsession]
  | coreMoved pc hsession htokens hturn hok =>
    exact hcounted.same fun y => by simp only [State.refs, State.sendRefs, hsession]
  | @sessionAdded x hpc =>
    refine counted_addSession hcounted (inv.alive_of_accept (by rw [hpc]; rfl)) fun y => ?_
    simp only [State.refs, State.sendRefs, State.addSession, hpc, AcceptPc.session,
      addSession_refs y]
    omega
  | @acceptReleases x stage hpc hlock =>
    refine counted_releaseSession hcounted fun y => ?_
    have hset := releaseSession_refs (s := s) (x := x) y
    simp only [State.refs, State.sendRefs, State.releaseSession, hpc, AcceptPc.session]
    omega
  | @coreReleases x stage after hpc hlock =>
    refine counted_releaseSession hcounted fun y => ?_
    have hset := releaseSession_refs (s := s) (x := x) y
    simp only [State.refs, State.sendRefs, State.releaseSession, hpc, CorePc.session]
    omega
  | @acceptRegisters x hpc =>
    have hnone := inv.owner_of_turn (x := x) (by rw [hpc, AcceptPc.turn, if_pos rfl]; omega)
    refine hcounted.copy (inv.alive_of_accept (by rw [hpc]; rfl)) fun y => ?_
    simp only [State.refs, State.sendRefs, hpc, AcceptPc.session, owner_send_update,
      owned_some hnone]
    omega
  | @coreRegisters x rest hpc =>
    have hnone := inv.owner_of_turn (x := x) (by rw [hpc, CorePc.turn, if_pos rfl]; omega)
    refine hcounted.copy (inv.alive_of_core (by rw [hpc]; rfl)) fun y => ?_
    simp only [State.refs, State.sendRefs, hpc, CorePc.session, owner_send_update,
      owned_some hnone]
    omega
  | acceptPosted hpc =>
    exact hcounted.same fun y => by simp only [State.refs, State.sendRefs, hpc, AcceptPc.session]
  | corePosted hpc =>
    exact hcounted.same fun y => by simp only [State.refs, State.sendRefs, hpc, CorePc.session]
  | @acceptRefused x hpc =>
    refine hcounted.release fun y => ?_
    simp only [State.refs, State.sendRefs, hpc, AcceptPc.session, owner_send_update,
      owned_none (inv.recv_of_accept hpc) y]
    omega
  | @coreHandles x rest pc howner htokens hsession hrest hturn hok hdeferred =>
    refine hcounted.release fun y => ?_
    simp only [State.refs, State.sendRefs, hsession, owner_send_update, owned_none howner y]
    omega
  | @acceptReturned x hpc =>
    refine hcounted.release fun y => ?_
    simp only [State.refs, State.sendRefs, hpc, AcceptPc.session, holds_some, holds_none]
    omega
  | @coreReturned x rest hpc =>
    refine hcounted.release fun y => ?_
    simp only [State.refs, State.sendRefs, hpc, CorePc.session, holds_some, holds_none]
    omega
  | @taken c x rest hpc howner =>
    refine hcounted.copy (inv.alive_of_owner howner) fun y => ?_
    simp only [State.refs, State.sendRefs, hpc, CorePc.session, holds_some, holds_none]
    omega
  | dequeued n hpc =>
    exact hcounted.same fun y => by simp only [State.refs, State.sendRefs, hpc, CorePc.session]
  | completed hc => exact hcounted
  | @eventMade x e visited hpc he =>
    have hcore := inv.core
    rw [hpc] at hcore
    refine hcounted.copy (inv.alive_of_mem hcore) fun y => ?_
    have hsend := sendRefs_insert (x := x) he y
    simp only [State.refs, hpc, CorePc.session, owner_recv_update]
    rw [State.sendRefs, hsend]
    omega
  | sendPosted hpc =>
    exact hcounted.same fun y => by simp only [State.refs, State.sendRefs, hpc, CorePc.session]
  | @eventDeleted x e rest pc howner htokens hsession hrest hturn hok hdeferred =>
    have hmem := (inv.sends e).mp (by rw [howner]; exact Option.some_ne_none x)
    refine hcounted.release fun y => ?_
    have hsend := sendRefs_erase hmem howner y
    simp only [State.refs, hsession, owner_recv_update]
    rw [hsend]
    simp only [State.sendRefs]
    omega
  | copied x hx =>
    refine hcounted.copy hx fun y => ?_
    simp only [State.refs, State.sendRefs, update_add_one]
    omega
  | @dropped x hx =>
    refine hcounted.release fun y => ?_
    have hless := update_sub_one hx y
    simp only [State.refs, State.sendRefs]
    omega
  | @exchanged connected x hx =>
    refine hcounted.copy (hcounted.alive (by rw [State.refs]; omega)) fun y => ?_
    simp only [State.refs, State.sendRefs, update_add_one]
    omega
  | @lingered x hx =>
    refine hcounted.same fun y => ?_
    have hless := update_sub_one hx y
    simp only [State.refs, State.sendRefs, update_add_one]
    omega
  | @givenUp x hx =>
    refine hcounted.release fun y => ?_
    have hless := update_sub_one hx y
    simp only [State.refs, State.sendRefs]
    omega
  | @released x hx hlock =>
    have hreleased : Counted (s.releaseSession x).objects (s.releaseSession x).refs := by
      refine counted_releaseSession hcounted fun y => ?_
      have hset := releaseSession_refs (s := s) (x := x) y
      rw [State.releaseSession]
      simp only [State.refs, State.sendRefs]
      omega
    have hat : (s.releaseSession x).atRelease = s.atRelease := rfl
    generalize s.releaseSession x = released at hreleased hat ⊢
    refine hreleased.release fun y => ?_
    have hless := update_sub_one hx y
    simp only [State.refs, State.sendRefs, hat]
    omega
  | nothing => exact hcounted

/-- A step keeps the invariant. -/
theorem inv_step (inv : Inv s) {a : Action S E} (h : step s a = some s') : Inv s' := by
  have hmoves := step_moves inv h
  have hpasses := moves_passes inv hmoves
  obtain ⟨hlock, hdangling, herrors⟩ := flags_step inv hmoves
  exact ⟨counted_step inv hmoves, tokens_step inv hpasses, sends_step inv hmoves,
    fun _ _ hy => recvs_step inv hpasses hy, turn_step inv hmoves, core_step inv hmoves, hlock,
    hdangling, herrors⟩

/-- The invariant holds in every reachable state. -/
theorem inv_reachable (h : Reachable step init s) : Inv s :=
  h.invariant inv_init fun _ _ _ inv hs => inv_step inv hs

end Invariant

section Soundness

variable {S E : Type*}

/-- The requests that a thread is about to post, those posted, and the results that no
thread has handled. -/
def State.requests (s : State S E) : List (Context S E) :=
  s.inFlight ++ s.completionQueue ++ s.acceptPc.tokens ++ s.corePc.tokens

variable [DecidableEq S]

/-- Sessions and events live as long as they are used, and no longer. -/
structure Sound (s : State S E) : Prop where
  /-- No session and no event was used after its end. -/
  dangling : s.dangling = false
  /-- No result comes without a session. -/
  errors : s.errors = []
  /-- No two requests share an event. -/
  requests_nodup : s.requests.Nodup
  /-- The session that a request refers to is there, with its buffers. -/
  alive_of_request : ∀ c ∈ s.requests, ∃ x, s.owner c = some x ∧ s.objects.alive x = true
  /-- A receive refers to the session that its event is in. -/
  owner_recv : ∀ x, .recv x ∈ s.requests → s.owner (.recv x) = some x
  /-- The `RioSendEvent`s are those of the requests: none is lost. -/
  mem_events_iff : ∀ e, e ∈ s.events ↔ .send e ∈ s.requests
  /-- A session is there as long as its core, a request, a local variable of the accept or
  the core thread, or anybody else refers to it: another thread, a player by its
  `m_ownerSession`, a job. Its own `m_recvEvent` does not keep it. -/
  alive_iff : ∀ x, s.objects.alive x = true ↔ x ∈ s.sessions ∨
    (∃ c ∈ s.requests, s.owner c = some x) ∨ s.acceptPc.session = some x ∨
    s.corePc.session = some x ∨ 0 < s.outside x + s.atSetLinger x + s.atRelease x

variable [DecidableEq E] {s : State S E} {x : S}

/-- The requests are counted place by place. -/
theorem count_requests (c : Context S E) : s.requests.count c = s.tokenCount c := by
  simp only [State.requests, State.tokenCount, List.count_append]

/-- The requests are those whose events have an owner. -/
theorem Inv.mem_requests_iff (inv : Inv s) {c : Context S E} :
    c ∈ s.requests ↔ s.owner c ≠ none := by
  rw [← List.count_pos_iff, count_requests, inv.tokens c]
  cases s.owner c <;> simp [owned]

/-- A session that is there is referred to. -/
theorem Inv.exists_ref (inv : Inv s) (hx : s.objects.alive x = true) : x ∈ s.sessions ∨
    (∃ c ∈ s.requests, s.owner c = some x) ∨ s.acceptPc.session = some x ∨
    s.corePc.session = some x ∨ 0 < s.outside x + s.atSetLinger x + s.atRelease x := by
  by_contra! hnot
  obtain ⟨hsessions, hrequests, haccept, hcore, hothers⟩ := hnot
  have hpos := (inv.counted.alive_iff x).mp hx
  have hrecv : owned (s.owner (.recv x)) = 0 := by
    cases howner : s.owner (.recv x) with
    | none => rfl
    | some y =>
      obtain rfl := inv.recvs x y howner
      have hmem := inv.mem_requests_iff.mpr (by rw [howner]; exact Option.some_ne_none y)
      exact absurd howner (hrequests _ hmem)
  have hsend : s.sendRefs x = 0 := by
    refine Finset.card_eq_zero.mpr (Finset.filter_eq_empty_iff.mpr fun e _ howner => ?_)
    have hmem := inv.mem_requests_iff.mpr (by rw [howner]; exact Option.some_ne_none x)
    exact hrequests _ hmem howner
  rw [State.refs, if_neg hsessions, holds, if_neg haccept, holds, if_neg hcore, hrecv,
    hsend] at hpos
  omega

/-- A state with the invariant is sound. -/
theorem Inv.sound (inv : Inv s) : Sound s where
  dangling := inv.dangling
  errors := inv.errors
  requests_nodup := List.nodup_iff_count_le_one.mpr fun c => by
    rw [count_requests, inv.tokens c]
    cases s.owner c <;> simp [owned]
  alive_of_request c hc := by
    obtain ⟨x, hx⟩ := Option.ne_none_iff_exists'.mp (inv.mem_requests_iff.mp hc)
    exact ⟨x, hx, inv.alive_of_owner hx⟩
  owner_recv x hx := by
    obtain ⟨y, hy⟩ := Option.ne_none_iff_exists'.mp (inv.mem_requests_iff.mp hx)
    rw [hy, inv.recvs x y hy]
  mem_events_iff e := (inv.sends e).symm.trans inv.mem_requests_iff.symm
  alive_iff x := by
    refine ⟨inv.exists_ref, ?_⟩
    rintro (hx | ⟨c, -, hx⟩ | hx | hx | hx)
    · exact inv.alive_of_mem hx
    · exact inv.alive_of_owner hx
    · exact inv.alive_of_accept hx
    · exact inv.alive_of_core hx
    · refine inv.counted.alive ?_
      rw [State.refs]
      omega

end Soundness

/-- However the accept thread, the core thread and other threads that copy, release and close
sessions are interleaved with the completions, and whichever calls fail: no session and no
`RioSendEvent` is used after its end, the buffers of a request stay registered until its
result is handled, no event is lost or posted twice, and a session ends, so that its address
can be used again, when its core, its requests, the threads and whoever else holds it, a
player or a job, no longer refer to it. -/
theorem sessionLifetime_sound {S E : Type*} [DecidableEq S] [DecidableEq E] {s : State S E}
    (h : Reachable step init s) : Sound s :=
  (inv_reachable h).sound

/-- A session sends, is closed by its client while another thread refers to it, and ends;
the next one has its address and that of its event. -/
def addressReused : List (Action Unit Unit) :=
  [.accept () true, .acceptNext true, .acceptNext true, .acceptNext true, .acceptNext true,
    .acceptNext true, .acceptNext true, .copy (), .lock, .visit (), .newEvent (),
    .rioSend .posted, .sendsDone, .unlock, .complete (.send ()), .complete (.recv ()),
    .dequeue 2, .coreNext true, .coreNext true, .coreNext true, .coreNext true, .coreNext false,
    .coreNext true, .coreNext true, .coreNext true, .coreNext true, .drop (), .accept () true,
    .acceptNext true, .acceptNext true, .acceptNext true, .acceptNext true, .acceptNext true,
    .coreNext true, .lock, .visit (), .newEvent (), .rioSend .posted]

/-- Both have a request posted. -/
theorem sessionLifetime_sound_reused : ∃ s : State Unit Unit,
    run step init addressReused = some s ∧ s.inFlight = [.recv (), .send ()] ∧ Sound s := by
  have h : ((run step (init : State Unit Unit) addressReused).any fun s =>
      s.inFlight = [.recv (), .send ()]) = true := by
    decide +kernel
  obtain ⟨s, hr, hview⟩ := (Option.any_eq_true _ _).mp h
  exact ⟨s, hr, of_decide_eq_true hview, sessionLifetime_sound ⟨_, hr⟩⟩

end RioIocpServer.SessionLifetime
