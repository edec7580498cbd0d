import RioIocpServer.RioCore

/-!
# Sessions that are being initialised

`Accept` puts a session into the set of its core before `ProcessConnect` connects and
initialises it, so that the core thread meets it at every stage. `ProcessConnect` drops
the result of `InitSession`, and `RegisterRecv` tests `m_bConnected` only, so that
`RIOReceive` is called for a session that could not be initialised as well. All system
calls may succeed or fail, and other threads may send and disconnect at any time. The
steps of `DeferredSend` and of the dispatched sends are those of the core; the server
keeps its cores, so that `m_rioCore.lock()` is never null.
-/

namespace RioIocpServer.SessionInit

open TransitionSystem RioSend RioCore

/-- A `RIO_BUFFERID` or `RIO_RQ`. -/
inductive Handle where
  /-- Not assigned since the construction. -/
  | null
  /-- `RIO_INVALID_BUFFERID` or `RIO_INVALID_RQ`. -/
  | invalid
  /-- What a call that succeeded has returned. -/
  | valid
  deriving DecidableEq

/-- What `InitSession` provides. -/
structure Resources where
  /-- `m_recvBuffer` and `m_sendBuffer` are allocated. -/
  buffers : Bool
  /-- `m_recvBufId`. -/
  recvBufId : Handle
  /-- `m_sendBufId`. -/
  sendBufId : Handle
  /-- `m_requestQueue`. -/
  requestQueue : Handle
  deriving DecidableEq

namespace Resources

/-- A session that was constructed. -/
def new : Resources := ⟨false, .null, .null, .null⟩

/-- Both buffers are allocated and registered and the request queue is created. -/
def Ready (r : Resources) : Prop := r = ⟨true, .valid, .valid, .valid⟩

/-- One of the calls of `InitSession` has failed. -/
def Failed (r : Resources) : Prop :=
  r.recvBufId = .invalid ∨ r.sendBufId = .invalid ∨ r.requestQueue = .invalid

instance (r : Resources) : Decidable r.Ready := inferInstanceAs (Decidable (r = _))

instance (r : Resources) : Decidable r.Failed := inferInstanceAs (Decidable (_ ∨ _))

/-- Whatever has failed is not ready. -/
theorem Failed.not_ready {r : Resources} (h : r.Failed) : ¬ r.Ready := by
  rintro rfl
  rcases h with h | h | h <;> cases h

end Resources

/-- Where the accept thread stands in `Accept`. -/
inductive AcceptPc (S : Type*) where
  /-- In front of `AddSession`, or outside. -/
  | outside
  /-- At the assignment of `m_bConnected`. -/
  | processConnect (x : S)
  /-- At the first `RIORegisterBuffer` of `AllocBuffer`. -/
  | registerRecvBuffer (x : S)
  /-- At the second one. -/
  | registerSendBuffer (x : S)
  /-- At `CreateRequestQueue`. -/
  | createRequestQueue (x : S)
  /-- At the assignment of `m_bAllocated`. -/
  | allocated (x : S)
  /-- At `OnConnected`. -/
  | onConnected (x : S)
  /-- At the test of `RegisterRecv`. -/
  | registerRecv (x : S)
  /-- At its `RIOReceive`. -/
  | receive (x : S)
  /-- At the `Disconnect` behind it. -/
  | disconnect (x : S)
  /-- At `ReleaseSession`. -/
  | release (x : S)
  deriving DecidableEq

/-- Where the core thread stands in `ProcessRecv`. -/
inductive RecvPc (S : Type*) where
  /-- Outside. -/
  | outside
  /-- In front of `RegisterRecv`. -/
  | process (x : S)
  /-- At the `RIOReceive` of `RegisterRecv`. -/
  | receive (x : S)
  /-- At a `Disconnect`. -/
  | disconnect (x : S)
  deriving DecidableEq

/-- The calls that take a request queue. -/
inductive Request where
  /-- `RIOReceive`. -/
  | receive
  /-- `RIOSend` with `RIO_MSG_DEFER`. -/
  | send
  /-- `RIOSend` with `RIO_MSG_COMMIT_ONLY`. -/
  | commit
  deriving DecidableEq

/-- A call that was made. -/
structure Call (S : Type*) where
  /-- What was called. -/
  request : Request
  /-- For which session. -/
  session : S
  /-- What the session had at that time. -/
  resources : Resources

/-- The core with its sessions and threads. -/
structure State (S T : Type*) where
  /-- The set of sessions, their send sides and the core thread in `DeferredSend`. -/
  core : Core S T
  /-- What the sessions have. -/
  resources : S → Resources
  /-- The accept thread. -/
  accept : AcceptPc S
  /-- The sessions given to `AddSession`. -/
  added : S → Bool
  /-- The core thread in `ProcessRecv`. -/
  recv : RecvPc S
  /-- A receive is outstanding. -/
  receives : S → Bool
  /-- Another thread is in `Disconnect`, at `ReleaseSession`. -/
  releasing : S → Bool
  /-- History: the calls made. -/
  calls : List (Call S)

/-- The steps. -/
inductive Action (S T : Type*) where
  /-- `Accept` of a new session up to `AddSession`. -/
  | addSession (x : S)
  /-- The next step of the accept thread, with the answer to the system call it makes. -/
  | accept (answer : Bool)
  /-- A step of the core thread outside of `ProcessRecv`. -/
  | core (a : RioCore.Action S T)
  /-- The core thread dequeues a receive. -/
  | processRecv (x : S)
  /-- The next step of the core thread in `ProcessRecv`, with the answer to the system call
  it makes, or whether it comes to `RegisterRecv` at all. -/
  | recv (answer : Bool)
  /-- The test of `Send` in another thread. -/
  | sendCheck (x : S) (t : T) (packet : List UInt8)
  /-- The `push` of `Send`. -/
  | sendPush (x : S) (t : T)
  /-- `Disconnect` in another thread or in `OnConnected`, with the answer of `SetLinger`. -/
  | disconnect (x : S) (linger : Bool)
  /-- The `ReleaseSession` of that `Disconnect`. -/
  | release (x : S)

/-- The steps of the core that the core thread does outside of `ProcessRecv`. -/
def OfCoreThread {S T : Type*} : RioCore.Action S T → Bool
  | .deferredSend => true
  | .iterate _ => true
  | .inside _ _ => true
  | .advance => true
  | .dispatch _ .complete _ => true
  | .lock => true
  | .erase => true
  | _ => false

/-- The `RIOSend` a step of `SendDeferred` makes. -/
def rioSend {T : Type*} (s : Session T) : RioSend.Action T → Option Request
  | .post _ =>
    if s.connected = true ∧ s.sendBuffer.getSendDataSize > 0 then some .send else none
  | .commit _ =>
    match s.pc with
    | .commit sendCount => if sendCount > 0 ∧ s.sendCnt > 0 then some .commit else none
    | _ => none
  | _ => none

section System

variable {S T : Type*} [LinearOrder S] [DecidableEq T]

/-- A core without sessions, and sessions to come. -/
def init (memory : ℤ → UInt8) : State S T where
  core :=
    { sessions := []
      sessionCnt := 0
      session := fun _ => { RioSend.init memory with connected := false }
      pc := .outside
      sessionLock := false
      iterator := none }
  resources _ := .new
  accept := .outside
  added _ := false
  recv := .outside
  receives _ := false
  releasing _ := false
  calls := []

namespace State

omit [DecidableEq T]

/-- The send side of one session changes. -/
def setSession (st : State S T) (x : S) (session : Session T) : State S T :=
  { st with core := st.core.setSession x session }

/-- What one session has changes. -/
def setResources (st : State S T) (x : S) (resources : Resources) : State S T :=
  { st with resources := Function.update st.resources x resources }

/-- A call is made. -/
def call (st : State S T) (request : Request) (x : S) : State S T :=
  { st with calls := st.calls ++ [⟨request, x, st.resources x⟩] }

/-- `HandleError`. -/
def handleError (st : State S T) (x : S) (text : String) : State S T :=
  st.setSession x ((st.core.session x).handleError text)

/-- A call of `InitSession` has been answered: `InitSession` goes on, or it returns false
and `ProcessConnect` goes on. -/
def initialised (st : State S T) (x : S) (resources : Resources) (text : String)
    (next : AcceptPc S) (answer : Bool) : State S T :=
  if answer = true then { st.setResources x resources with accept := next }
  else { (st.setResources x resources).handleError x text with accept := .onConnected x }

/-- What a call returns that may fail. -/
def handle (answer : Bool) : Handle := if answer = true then .valid else .invalid

/-- `RIOReceive`: the receive is outstanding, or `RegisterRecv` comes to `Disconnect`. -/
def rioReceive (st : State S T) (x : S) (answer : Bool) : State S T :=
  let called := st.call .receive x
  if answer = true then { called with receives := Function.update st.receives x true }
  else called.handleError x "RioReceive"

/-- The next step of the accept thread. -/
def acceptStep (st : State S T) (answer : Bool) : Option (State S T) :=
  match st.accept with
  | .outside => none
  | .processConnect x =>
    some { st.setSession x { st.core.session x with connected := true } with
      accept := .registerRecvBuffer x }
  | .registerRecvBuffer x =>
    some (st.initialised x
      { st.resources x with buffers := true, recvBufId := handle answer }
      "RioRegisterBuffer" (.registerSendBuffer x) answer)
  | .registerSendBuffer x =>
    some (st.initialised x { st.resources x with sendBufId := handle answer }
      "RioRegisterBuffer" (.createRequestQueue x) answer)
  | .createRequestQueue x =>
    some (st.initialised x { st.resources x with requestQueue := handle answer }
      "RIOCreateRequestQueue" (.allocated x) answer)
  | .allocated x =>
    some { st.setSession x { st.core.session x with allocated := true } with
      accept := .onConnected x }
  | .onConnected x => some { st with accept := .registerRecv x }
  | .registerRecv x =>
    some { st with
      accept := if (st.core.session x).connected = true then .receive x else .outside }
  | .receive x =>
    some { st.rioReceive x answer with
      accept := if answer = true then .outside else .disconnect x }
  | .disconnect x =>
    some { st.setSession x (st.core.session x).disconnect with
      accept := if (st.core.session x).connected = true ∧ answer = true then .release x
        else .outside }
  | .release x =>
    (RioCore.step st.core (.releaseSession x)).map fun core =>
      { st with core := core, accept := .outside }

/-- The next step of the core thread in `ProcessRecv`. -/
def recvStep (st : State S T) (answer : Bool) : Option (State S T) :=
  match st.recv with
  | .outside => none
  | .process x =>
    some { st with
      recv :=
        if answer = false then .disconnect x
        else if (st.core.session x).connected = true then .receive x
        else .outside }
  | .receive x =>
    some { st.rioReceive x answer with
      recv := if answer = true then .outside else .disconnect x }
  | .disconnect x =>
    (RioCore.act st.core x .disconnect answer).map fun core =>
      { st with core := core, recv := .outside }

/-- The calls of `RIOSend` in a step of the core thread. -/
def rioSends (st : State S T) : RioCore.Action S T → List (Call S)
  | .inside a _ =>
    match st.core.pc with
    | .send x =>
      (rioSend (st.core.session x) a).toList.map fun request => ⟨request, x, st.resources x⟩
    | _ => []
  | _ => []

end State

/-- One step. -/
def step (st : State S T) : Action S T → Option (State S T)
  | .addSession x =>
    if st.accept = .outside ∧ st.added x = false then
      (RioCore.step st.core (.addSession x)).map fun core =>
        { st with
          core := core
          accept := .processConnect x
          added := Function.update st.added x true }
    else none
  | .accept answer => st.acceptStep answer
  | .core a =>
    if OfCoreThread a = true ∧ st.recv = .outside then
      (RioCore.step st.core a).map fun core =>
        { st with core := core, calls := st.calls ++ st.rioSends a }
    else none
  | .processRecv x =>
    if st.core.pc = .outside ∧ st.recv = .outside ∧ st.receives x = true then
      some { st with receives := Function.update st.receives x false, recv := .process x }
    else none
  | .recv answer => st.recvStep answer
  | .sendCheck x t packet =>
    (RioCore.step st.core (.other x (.sendCheck t packet))).map fun core => { st with core := core }
  | .sendPush x t =>
    (RioCore.step st.core (.other x (.sendPush t))).map fun core => { st with core := core }
  | .disconnect x linger =>
    let connected := (st.core.session x).connected
    some { st.setSession x (st.core.session x).disconnect with
      releasing := Function.update st.releasing x (st.releasing x || (connected && linger)) }
  | .release x =>
    if st.releasing x = true then
      (RioCore.step st.core (.releaseSession x)).map fun core =>
        { st with core := core, releasing := Function.update st.releasing x false }
    else none

end System

namespace AcceptPc

variable {S : Type*}

/-- The session `ProcessConnect` runs for. -/
def session : AcceptPc S → Option S
  | .outside => none
  | .processConnect x => some x
  | .registerRecvBuffer x => some x
  | .registerSendBuffer x => some x
  | .createRequestQueue x => some x
  | .allocated x => some x
  | .onConnected x => some x
  | .registerRecv x => some x
  | .receive x => some x
  | .disconnect x => some x
  | .release x => some x

/-- `m_bConnected` was set and `RegisterRecv` has not tested it. -/
def initialising : AcceptPc S → Bool
  | .registerRecvBuffer _ => true
  | .registerSendBuffer _ => true
  | .createRequestQueue _ => true
  | .allocated _ => true
  | .onConnected _ => true
  | .registerRecv _ => true
  | _ => false

/-- The session whose `m_bConnected` is tested next. -/
def tested : AcceptPc S → Option S
  | .registerRecv x => some x
  | _ => none

/-- What the session has there, where that is known. -/
def expected : AcceptPc S → Option Resources
  | .processConnect _ => some .new
  | .registerRecvBuffer _ => some .new
  | .registerSendBuffer _ => some ⟨true, .valid, .null, .null⟩
  | .createRequestQueue _ => some ⟨true, .valid, .valid, .null⟩
  | .allocated _ => some ⟨true, .valid, .valid, .valid⟩
  | .receive _ => some ⟨true, .valid, .valid, .valid⟩
  | .disconnect _ => some ⟨true, .valid, .valid, .valid⟩
  | .release _ => some ⟨true, .valid, .valid, .valid⟩
  | _ => none

end AcceptPc

/-- The session `ProcessRecv` runs for. -/
def RecvPc.session {S : Type*} : RecvPc S → Option S
  | .outside => none
  | .process x => some x
  | .receive x => some x
  | .disconnect x => some x

section Promise

variable {S T : Type*} [LinearOrder S] [DecidableEq T]

/-- What is promised of every state. -/
structure InitialisedOnly (st : State S T) : Prop where
  /-- `RIOReceive` and `RIOSend` are called for initialised sessions only. -/
  calls_ready : ∀ call ∈ st.calls, call.resources.Ready
  /-- Never for one whose `InitSession` failed. -/
  failed_silent : ∀ x, (st.resources x).Failed → ∀ call ∈ st.calls, call.session ≠ x
  /-- Behind `ProcessConnect` such a session is disconnected, -/
  failed_disconnected : ∀ x, (st.resources x).Failed → st.accept.session ≠ some x →
    (st.core.session x).connected = false
  /-- and it is removed from the core unless the thread that disconnects it is still at
  `ReleaseSession`, -/
  failed_removed : ∀ x, (st.resources x).Failed → st.accept.session ≠ some x →
    st.releasing x = false → x ∉ st.core.sessions
  /-- which removes it once the lock is free. -/
  release_removes : ∀ x, st.releasing x = true → st.core.sessionLock = false →
    ∃ st', step st (.release x) = some st' ∧ x ∉ st'.core.sessions

omit [LinearOrder S] [DecidableEq T] in
/-- `RegisterRecv` of the accept thread finds the session initialised or disconnected, and
`SetLinger` of a `Disconnect` that finds a session connected and not initialised succeeds. -/
def Guarded (st : State S T) : Action S T → Prop
  | .accept _ => ∀ x ∈ st.accept.tested,
    (st.resources x).Ready ∨ (st.core.session x).connected = false
  | .disconnect x linger =>
    (st.core.session x).connected = true → (st.resources x).Ready ∨ linger = true
  | _ => True

omit [LinearOrder S] [DecidableEq T] in
instance decidableGuarded (st : State S T) : ∀ a, Decidable (Guarded st a)
  | .accept _ => inferInstanceAs (Decidable (∀ x ∈ st.accept.tested, _))
  | .disconnect _ _ => inferInstanceAs (Decidable (_ → _))
  | .addSession _ => isTrue trivial
  | .core _ => isTrue trivial
  | .processRecv _ => isTrue trivial
  | .recv _ => isTrue trivial
  | .sendCheck _ _ _ => isTrue trivial
  | .sendPush _ _ => isTrue trivial
  | .release _ => isTrue trivial

end Promise

/-- A session that is not allocated is not sent from. -/
def Dormant {T : Type*} (s : Session T) : Prop :=
  s.allocated = false → s.pc = .idle ∧ s.outstanding = []

/-- What the core thread leaves of a session. -/
structure Kept {T : Type*} (s s' : Session T) : Prop where
  /-- The flag stays. -/
  allocated_eq : s'.allocated = s.allocated
  /-- A session that is not sent from stays so. -/
  dormant : Dormant s → Dormant s'
  /-- It is not disconnected either. -/
  connected_eq : Dormant s → s.allocated = false → s'.connected = s.connected

/-- Where a pass posts, the core thread is inside `SendDeferred`. -/
theorem posts_ne_idle {pc : RioSend.Pc} (h : pc.Posts) : pc ≠ .idle := by
  rintro rfl
  exact h

section Sessions

variable {T : Type*} {s s' : Session T}

/-- Nothing happens. -/
theorem Kept.refl (s : Session T) : Kept s s := ⟨rfl, id, fun _ _ => rfl⟩

/-- Where the flags and the sends in progress stay. -/
theorem Kept.of_eq (hallocated : s'.allocated = s.allocated)
    (hconnected : s'.connected = s.connected) (hpc : s'.pc = s.pc)
    (houtstanding : s'.outstanding = s.outstanding) : Kept s s' := by
  refine ⟨hallocated, fun hdormant h => ?_, fun _ _ => hconnected⟩
  rw [hpc, houtstanding]
  exact hdormant (hallocated ▸ h)

/-- A session that is sent from is allocated, so nothing more is to be shown. -/
theorem Kept.of_busy (hallocated : s'.allocated = s.allocated)
    (hbusy : s.pc ≠ .idle ∨ s.outstanding ≠ []) : Kept s s' := by
  have hdormant : Dormant s → s.allocated = true := fun hdormant => by
    by_contra h
    obtain ⟨hpc, houtstanding⟩ := hdormant (by simpa using h)
    exact hbusy.elim (· hpc) (· houtstanding)
  refine ⟨hallocated, fun hd h => ?_, fun hd h => ?_⟩
  · rw [hallocated, hdormant hd] at h
    cases h
  · rw [hdormant hd] at h
    cases h

/-- `RegisterSend` leaves the flag. -/
theorem registerSend_allocated {n m : ℤ} {outcome : Outcome} {b : Bool}
    (h : s.registerSend n m outcome = (b, s')) : s'.allocated = s.allocated := by
  unfold Session.registerSend at h
  split at h
  · cases h
    rfl
  · cases outcome <;> dsimp only at h
    · split at h <;> cases h <;> rfl
    · cases h
      rfl
    · cases h
      rfl

/-- So does a commit. -/
theorem commitPosted_allocated (s : Session T) (n : ℤ) (accepted : Bool) :
    (s.commitPosted n accepted).allocated = s.allocated := by
  unfold Session.commitPosted Session.sendCommit
  split
  · split
    · rfl
    · split <;> rfl
  · rfl

/-- And `ProcessSend`. -/
theorem processSend_allocated (s : Session T) (n : ℤ) :
    (s.processSend n).allocated = s.allocated := by
  unfold Session.processSend
  split
  · rfl
  · split <;> rfl

variable [DecidableEq T]

/-- Every step of the send path but the allocation and a disconnect from outside. -/
theorem kept_step {a : RioSend.Action T} (h : RioSend.step s a = some s')
    (hinit : a ≠ .initSession) (hdisconnect : a ≠ .disconnect) : Kept s s' := by
  cases step_moves h with
  | allocated => exact (hinit rfl).elim
  | ignored t packet hc => exact .refl s
  | checked t packet hc => exact .of_eq rfl rfl rfl rfl
  | pushed t packet ht => exact .of_eq rfl rfl rfl rfl
  | disconnected => exact (hdisconnect rfl).elim
  | skipped currentTime hpc hskip => exact .refl s
  | entered currentTime hpc =>
    -- the guard of `SendDeferred` lets allocated sessions pass only
    have hallocated : s.allocated = true := by
      by_contra hfalse
      simp only [RioSend.step, hpc, Bool.not_eq_true] at h hfalse
      rw [if_pos (.inr hfalse)] at h
      have hidle := congrArg Session.pc (Option.some.inj h)
      rw [hpc] at hidle
      cases hidle
    refine ⟨rfl, fun _ hfalse => ?_, fun _ hfalse => ?_⟩ <;>
      exact absurd (hallocated.symm.trans hfalse) (by decide)
  | emptied n hpc hq => exact .of_busy rfl (.inl (by simp [hpc]))
  | full n packet rest ring hpc hq hw => exact .of_busy rfl (.inl (by simp [hpc]))
  | wrote n packet rest ring hpc hq hw => exact .of_busy rfl (.inl (by simp [hpc]))
  | limit n hpc => exact .of_busy rfl (.inl (by simp [hpc]))
  | posted outcome s₁ pc hpc hsize hr =>
    exact .of_busy (show s₁.allocated = _ from registerSend_allocated hr)
      (.inl (posts_ne_idle hpc))
  | notPosted outcome s₁ pc hpc hsize hr =>
    exact .of_busy (show s₁.allocated = _ from registerSend_allocated hr)
      (.inl (posts_ne_idle hpc))
  | nothing outcome pc hpc hsize => exact .of_busy rfl (.inl (posts_ne_idle hpc))
  | max n hpc => exact .of_busy rfl (.inl (by simp [hpc]))
  | stamped n now hpc => exact .of_busy rfl (.inl (by simp [hpc]))
  | committed n accepted hpc =>
    exact .of_busy (commitPosted_allocated s n accepted) (.inl (by simp [hpc]))
  | completed chunk rest hpc hout =>
    exact .of_busy (processSend_allocated _ _) (.inr (by simp [hout]))

end Sessions

/-- What the core thread leaves of a core. -/
structure CoreKept {S T : Type*} (c c' : Core S T) : Prop where
  /-- Sessions are removed only. -/
  sublist : c'.sessions.Sublist c.sessions
  /-- Every session is kept. -/
  session : ∀ x, Kept (c.session x) (c'.session x)

section Cores

variable {S T : Type*} [LinearOrder S] [DecidableEq T] {c c' : Core S T} {x : S}

omit [DecidableEq T] in
/-- One session is kept, the others are not touched. -/
theorem kept_setSession {session : Session T} (h : Kept (c.session x) session) (y : S) :
    Kept (c.session y) ((c.setSession x session).session y) := by
  show Kept (c.session y) (Function.update c.session x session y)
  by_cases hy : y = x
  · subst hy
    rw [Function.update_self]
    exact h
  · rw [Function.update_of_ne hy]
    exact .refl _

/-- A step of the send path in the core thread. -/
theorem coreKept_act {a : RioSend.Action T} {linger : Bool} (h : act c x a linger = some c')
    (hinit : a ≠ .initSession) (hdisconnect : a ≠ .disconnect) : CoreKept c c' := by
  obtain ⟨session, hsession, rfl⟩ := act_cases h
  exact ⟨List.Sublist.refl _, kept_setSession (kept_step hsession hinit hdisconnect)⟩

/-- A step of the core thread. -/
theorem coreKept_step {a : RioCore.Action S T} (ha : OfCoreThread a = true)
    (h : RioCore.step c a = some c') : CoreKept c c' := by
  have hkept : ∀ x, Kept (c.session x) (c.session x) := fun x => .refl _
  cases a with
  | deferredSend =>
    simp only [RioCore.step] at h
    split at h <;> cases h
    exact ⟨List.Sublist.refl _, hkept⟩
  | iterate currentTime =>
    simp only [RioCore.step] at h
    split at h
    · cases h
      exact ⟨List.Sublist.refl _, hkept⟩
    · obtain ⟨session, hsession, rfl⟩ := Option.map_eq_some_iff.mp h
      exact ⟨List.Sublist.refl _, kept_setSession (kept_step hsession (by simp) (by simp))⟩
    · cases h
  | inside b linger =>
    simp only [RioCore.step] at h
    split at h
    · split at h
      · rename_i hb
        refine coreKept_act h ?_ ?_ <;> rintro rfl <;> cases hb
      · cases h
    · cases h
  | advance =>
    simp only [RioCore.step] at h
    split at h
    · split at h <;> cases h
      exact ⟨List.Sublist.refl _, hkept⟩
    · cases h
  | dispatch y b linger =>
    simp only [RioCore.step] at h
    split at h
    · split at h
      · refine coreKept_act h ?_ ?_ <;> rintro rfl <;> cases ha
      · cases h
    · cases h
  | lock =>
    simp only [RioCore.step] at h
    split at h
    · split at h <;> cases h
      exact ⟨List.Sublist.refl _, hkept⟩
    · cases h
  | erase =>
    simp only [RioCore.step] at h
    split at h <;> cases h
    exact ⟨List.erase_sublist, hkept⟩
  | addSession y => cases ha
  | releaseSession y => cases ha
  | other y b => cases ha

/-- A step of a thread that sends. -/
theorem coreKept_other {a : RioSend.Action T} (h : RioCore.step c (.other x a) = some c')
    (hinit : a ≠ .initSession) (hdisconnect : a ≠ .disconnect) : CoreKept c c' := by
  simp only [RioCore.step] at h
  split at h
  · obtain ⟨session, hsession, rfl⟩ := Option.map_eq_some_iff.mp h
    exact ⟨List.Sublist.refl _, kept_setSession (kept_step hsession hinit hdisconnect)⟩
  · cases h

/-- `ReleaseSession` leaves the sessions and removes one from the set. -/
theorem releaseSession_eq_some (h : RioCore.step c (.releaseSession x) = some c') :
    c.sessionLock = false ∧ c' = c.releaseSession x := by
  simp only [RioCore.step] at h
  split at h <;> cases h
  exact ⟨‹_›, rfl⟩

end Cores

end RioIocpServer.SessionInit
