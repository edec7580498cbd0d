import RioIocpServer.LockedThreads
import RioIocpServer.ThreadManager

/-!
# The locks of the server

The lock calls of the server's functions, in the order of the source, for whatever the
functions find: which sector a player is in and has left, whom a sector holds, whether
a session is connected, whether a queue was empty. A loop of the source is a list of
what its rounds find. Sectors, players, sessions, job queues and cores are named by
keys. A thread runs these functions one after the other, as the loops of `ServerProxy`
and the accept loop do, and takes the locks step by step.
-/

namespace RioIocpServer.LockOrder

open TransitionSystem RankedLocks

/-- The locks. -/
inductive Lock (K : Type*) where
  /-- `m_lock` of the `m_players` of a sector. -/
  | sectorPlayers (sector : K)
  /-- `m_sessionLock` of a core or of a service. -/
  | sessionLock (core : K)
  /-- `m_lock` of `m_players` of the room. -/
  | roomPlayers
  /-- `m_lock` of a player. -/
  | player (player : K)
  /-- `m_sendQueueLock` or `m_sendBufLock` of a session. -/
  | sendQueueLock (session : K)
  /-- `m_rwLock` of the `m_jobs` of a job queue. -/
  | jobs (queue : K)
  /-- `m_rwLock` of the `m_jobQueues` of `gGlobalQueue`. -/
  | jobQueues
  deriving DecidableEq

/-- The locks that are an `RWLock`; the others are a `mutex`. -/
def Lock.reentrant {K : Type*} : Lock K → Bool
  | .sessionLock _ => false
  | .sendQueueLock _ => false
  | _ => true

/-- The locks in which others are taken come first. -/
def Lock.rank {K : Type*} : Lock K → ℕ
  | .sectorPlayers _ => 0
  | .sessionLock _ => 0
  | _ => 1

section Functions

variable {K : Type*}

/-- How a `Send` goes. -/
inductive Sent (K : Type*) where
  /-- The session is not connected. -/
  | refused
  /-- The packet is queued; another thread sends it, or the session is connected no more. -/
  | queued (session : K)
  /-- The packet is queued, and `RegisterSend` empties the queue. -/
  | registered (session : K)

/-- `Send`. -/
def send : Sent K → List (Op (Lock K))
  | .refused => []
  | .queued session => guarded (.sendQueueLock session) .exclusive []
  | .registered session =>
    guarded (.sendQueueLock session) .exclusive [] ++
      guarded (.sendQueueLock session) .exclusive []

/-- `JobQueue::Push`, on a queue without jobs or with some. -/
def push (queue : K) (first : Bool) : List (Op (Lock K)) :=
  guarded (.jobs queue) .exclusive [] ++
    if first = true then guarded .jobQueues .exclusive [] else []

/-- What `Zone::MovePlayer` does for a player in view. -/
structure Target (K : Type*) where
  /-- The player. -/
  target : K
  /-- `SendMove` or `SendEnter` to it. -/
  told : Sent K
  /-- `SendEnter` to the player that moves, if the target is not on its list. -/
  entered : Option (Sent K)

/-- The body of the loop over the players of a sector. -/
def syncTarget (player : K) (target : Target K) : List (Op (Lock K)) :=
  guarded (.player target.target) .shared [] ++ send target.told ++
    (guarded (.player player) .shared [] ++ target.entered.elim [] send)

/-- What `Zone::MovePlayer` finds. -/
structure Move (K : Type*) where
  /-- The player that moves. -/
  player : K
  /-- Its sector and the one it is in now, if they differ. -/
  sectors : Option (K × K)
  /-- The adjacent sectors with the players in view. -/
  view : List (K × List (Target K))
  /-- For the players that are out of view: `SendLeave` to the player that moves, and to
  the other one if the room has it. -/
  left : List (Sent K × Option (Sent K))
  /-- `SendMoveResult`. -/
  result : Sent K

/-- `Zone::MovePlayer` of a player that is valid. -/
def movePlayer (move : Move K) : List (Op (Lock K)) :=
  (move.sectors.elim [] fun (sector, newSector) =>
    guarded (.sectorPlayers sector) .exclusive [] ++
      guarded (.sectorPlayers newSector) .exclusive []) ++
  (move.view.flatMap fun (sector, targets) =>
    guarded (.sectorPlayers sector) .shared (targets.flatMap (syncTarget move.player))) ++
  guarded (.player move.player) .shared [] ++
  (move.left.flatMap fun (told, other) => send told ++ other.elim [] send) ++
  guarded (.player move.player) .exclusive [] ++
  send move.result

/-- `Zone::Chat` of a player that is valid, with the players in hearing of the sectors. -/
def chat (view : List (K × List (Sent K))) : List (Op (Lock K)) :=
  view.flatMap fun (sector, targets) =>
    guarded (.sectorPlayers sector) .shared (targets.flatMap send)

/-- `Room::Login`. -/
def login (sector : K) (result : Sent K) : List (Op (Lock K)) :=
  guarded (.sectorPlayers sector) .exclusive [] ++ guarded .roomPlayers .exclusive [] ++
    send result

/-- `Room::Logout`. -/
def logout (sector : K) : List (Op (Lock K)) :=
  guarded (.sectorPlayers sector) .exclusive [] ++ guarded .roomPlayers .exclusive []

/-- The jobs. -/
inductive Job (K : Type*) where
  /-- `Zone::MovePlayer`, unless the player is not valid. -/
  | movePlayer (move : Option (Move K))
  /-- `Zone::Chat`, unless the player is not valid. -/
  | chat (view : Option (List (K × List (Sent K))))
  /-- `Room::Logout`. -/
  | logout (sector : K)

/-- `Job::Execute`. -/
def Job.execute : Job K → List (Op (Lock K))
  | .movePlayer move => move.elim [] LockOrder.movePlayer
  | .chat view => view.elim [] LockOrder.chat
  | .logout sector => LockOrder.logout sector

/-- `JobQueue::Execute`: rounds of `PopAll` and the jobs popped, and the queue is given
back to `gGlobalQueue` if the time is over. -/
def execute (queue : K) (rounds : List (List (Job K))) (timeOver : Bool) : List (Op (Lock K)) :=
  (rounds.flatMap fun jobs => guarded (.jobs queue) .exclusive [] ++ jobs.flatMap Job.execute) ++
    if timeOver = true then guarded .jobQueues .exclusive [] else []

/-- `OnDisconnected`, with the push of `Room::Logout` if the player is connected. -/
def onDisconnected (room : K) (logout : Option Bool) : List (Op (Lock K)) :=
  logout.elim [] (push room)

/-- `AddSession` or `ReleaseSession` of a core or of a service. -/
def changeSessions (core : K) : List (Op (Lock K)) := guarded (.sessionLock core) .exclusive []

/-- `RioSession::Disconnect`, if it gets to `OnDisconnected`, or `ProcessDisconnect`. -/
def disconnect (room core : K) (logout : Option Bool) : List (Op (Lock K)) :=
  onDisconnected room logout ++ changeSessions core

/-- What `SendDeferred` does next. -/
inductive Deferred where
  /-- It takes a packet from the queue, or finds it empty or the buffer full. -/
  | dequeue
  /-- A `RIOSend` fails, and `Disconnect` gets to `OnDisconnected`. -/
  | disconnect (logout : Option Bool)

/-- `SendDeferred` of a session, called by the core. -/
def sendDeferred (room core session : K) (rounds : List Deferred) : List (Op (Lock K)) :=
  rounds.flatMap fun
    | .dequeue => guarded (.sendQueueLock session) .exclusive []
    | .disconnect logout => disconnect room core logout

/-- `RioCore::DeferredSend`, with what `SendDeferred` does for the sessions in turn. -/
def deferredSend (room core : K) (sessions : List (K × List Deferred)) : List (Op (Lock K)) :=
  guarded (.sessionLock core) .exclusive
    (sessions.flatMap fun (session, rounds) => sendDeferred room core session rounds)

/-- The functions a thread runs one after the other. -/
inductive Call (K : Type*) where
  /-- `AddSession`, by the accept loop or by `ProcessConnect`. -/
  | addSession (core : K)
  /-- `Handle_LOGIN`. -/
  | handleLogin (sector : K) (result : Sent K)
  /-- `Handle_C2S_MOVE`: `Room::MovePlayer` pushes to the zone. -/
  | handleC2SMove (zone : K) (first : Bool)
  /-- `Handle_CHAT`: `Room::Chat` pushes to the zone. -/
  | handleChat (zone : K) (first : Bool)
  /-- `Handle_LOGOUT`: a push to the room, and a `Disconnect` that gets to
  `OnDisconnected` or not. -/
  | handleLogout (room core : K) (first : Bool) (disconnected : Option (Option Bool))
  /-- A `Disconnect` that gets to `OnDisconnected`, or `ProcessDisconnect`. -/
  | disconnect (room core : K) (logout : Option Bool)
  /-- `IocpService::DisconnectAllSession`: `Disconnect` of an IOCP session takes no lock. -/
  | disconnectAllSession (service : K)
  /-- `RioCore::DeferredSend`. -/
  | deferredSend (room core : K) (sessions : List (K × List Deferred))
  /-- `IocpSession::ProcessSend` of some bytes, with a `RegisterSend` that empties the queue
  or without; of no bytes it takes no lock. -/
  | processSend (session : K) (registered : Bool)
  /-- `GlobalQueue::Pop`. -/
  | pop
  /-- `JobQueue::Execute`. -/
  | execute (queue : K) (rounds : List (List (Job K))) (timeOver : Bool)

/-- The lock calls of a function. -/
def Call.body : Call K → List (Op (Lock K))
  | .addSession core => changeSessions core
  | .handleLogin sector result => login sector result
  | .handleC2SMove zone first => push zone first
  | .handleChat zone first => push zone first
  | .handleLogout room core first disconnected =>
    push room first ++ disconnected.elim [] (LockOrder.disconnect room core)
  | .disconnect room core logout => LockOrder.disconnect room core logout
  | .disconnectAllSession service => guarded (.sessionLock service) .exclusive []
  | .deferredSend room core sessions => LockOrder.deferredSend room core sessions
  | .processSend session registered =>
    guarded (.sendQueueLock session) .exclusive [] ++
      if registered = true then guarded (.sendQueueLock session) .exclusive [] else []
  | .pop => guarded .jobQueues .exclusive []
  | .execute queue rounds timeOver => LockOrder.execute queue rounds timeOver

/-- No `RIOSend` of a `DeferredSend` fails in such a way that the session is closed. -/
def Call.KeepsSessions : Call K → Prop
  | .deferredSend _ _ sessions => ∀ session ∈ sessions, ∀ logout, .disconnect logout ∉ session.2
  | _ => True

end Functions

section Order

variable {K : Type*} {held : List (Lock K × Mode)}

/-- A lock in which no other one is taken can be taken wherever only locks are held in
which others are. -/
theorem nested_leaf (hheld : ∀ h ∈ held, h.1.rank = 0) {l : Lock K} (hl : l.rank = 1)
    (mode : Mode) : Nested Lock.rank held (guarded l mode []) := by
  refine .guarded (fun h hh => ?_) nested_nil
  rw [hheld h hh, hl]
  exact Nat.one_pos

/-- A lock is taken while none is held. -/
theorem nested_outer {l : Lock K} {mode : Mode} {code : List (Op (Lock K))}
    (h : Nested Lock.rank [(l, mode)] code) : Nested Lock.rank [] (guarded l mode code) :=
  .guarded (fun _ hh => (List.not_mem_nil hh).elim) h

/-- Inside it, only a lock is held in which others are taken. -/
theorem outer_held {l : Lock K} (hl : l.rank = 0) (mode : Mode) :
    ∀ h ∈ [(l, mode)], h.1.rank = 0 := by
  simp [hl]

/-- `Send` takes no other lock inside. -/
theorem nested_send (hheld : ∀ h ∈ held, h.1.rank = 0) (sent : Sent K) :
    Nested Lock.rank held (send sent) := by
  cases sent with
  | refused => exact nested_nil
  | queued session => exact nested_leaf hheld rfl _
  | registered session => exact (nested_leaf hheld rfl _).append (nested_leaf hheld rfl _)

/-- Neither does a `Send` that may be left out. -/
theorem nested_sends (hheld : ∀ h ∈ held, h.1.rank = 0) (sent : Option (Sent K)) :
    Nested Lock.rank held (sent.elim [] send) := by
  cases sent with
  | none => exact nested_nil
  | some sent => exact nested_send hheld sent

/-- Nor does `Push`. -/
theorem nested_push (hheld : ∀ h ∈ held, h.1.rank = 0) (queue : K) (first : Bool) :
    Nested Lock.rank held (push queue first) := by
  refine (nested_leaf hheld rfl _).append ?_
  split
  · exact nested_leaf hheld rfl _
  · exact nested_nil

/-- The loop over the players of a sector runs with the lock of the sector. -/
theorem nested_syncTarget (hheld : ∀ h ∈ held, h.1.rank = 0) (player : K) (target : Target K) :
    Nested Lock.rank held (syncTarget player target) :=
  ((nested_leaf hheld rfl _).append (nested_send hheld _)).append
    ((nested_leaf hheld rfl _).append (nested_sends hheld _))

/-- A thread that holds nothing takes a lock and releases it. -/
theorem nested_alone (l : Lock K) (mode : Mode) : Nested Lock.rank [] (guarded l mode []) :=
  nested_outer nested_nil

/-- Nothing is held. -/
theorem none_held : ∀ h ∈ ([] : List (Lock K × Mode)), h.1.rank = 0 := by
  simp

/-- `Zone::MovePlayer` holds one sector at a time. -/
theorem nested_movePlayer (move : Move K) : Nested Lock.rank [] (movePlayer move) := by
  have hsectors : Nested Lock.rank [] (move.sectors.elim [] fun (sector, newSector) =>
      guarded (.sectorPlayers sector) .exclusive [] ++
        guarded (.sectorPlayers newSector) .exclusive []) := by
    cases move.sectors with
    | none => exact nested_nil
    | some sectors => exact (nested_alone _ _).append (nested_alone _ _)
  have hview : Nested Lock.rank [] (move.view.flatMap fun (sector, targets) =>
      guarded (.sectorPlayers sector) .shared (targets.flatMap (syncTarget move.player))) :=
    .flatMap fun sector _ => nested_outer (.flatMap fun target _ =>
      nested_syncTarget (outer_held rfl _) _ _)
  have hleft : Nested Lock.rank [] (move.left.flatMap fun (told, other) =>
      send told ++ other.elim [] send) :=
    .flatMap fun left _ => (nested_send none_held _).append (nested_sends none_held _)
  exact ((((hsectors.append hview).append (nested_alone _ _)).append hleft).append
    (nested_alone _ _)).append (nested_send none_held _)

/-- So does `Zone::Chat`. -/
theorem nested_chat (view : List (K × List (Sent K))) : Nested Lock.rank [] (chat view) :=
  .flatMap fun _ _ => nested_outer (.flatMap fun target _ => nested_send (outer_held rfl _) target)

/-- `Room::Logout` holds one lock at a time. -/
theorem nested_logout (sector : K) : Nested Lock.rank [] (logout sector) :=
  (nested_alone _ _).append (nested_alone _ _)

/-- The jobs take their locks in order. -/
theorem nested_job (job : Job K) : Nested Lock.rank [] job.execute := by
  cases job with
  | movePlayer move =>
    cases move with
    | none => exact nested_nil
    | some move => exact nested_movePlayer move
  | chat view =>
    cases view with
    | none => exact nested_nil
    | some view => exact nested_chat view
  | logout sector => exact nested_logout sector

/-- `JobQueue::Execute` runs them with no lock held. -/
theorem nested_execute (queue : K) (rounds : List (List (Job K))) (timeOver : Bool) :
    Nested Lock.rank [] (execute queue rounds timeOver) := by
  refine Nested.append (.flatMap fun jobs _ =>
    (nested_alone _ _).append (.flatMap fun job _ => nested_job job)) ?_
  split
  · exact nested_alone _ _
  · exact nested_nil

/-- A `Disconnect` called with no lock held takes its locks one after the other. -/
theorem nested_disconnect (room core : K) (logout : Option Bool) :
    Nested Lock.rank [] (disconnect room core logout) := by
  refine Nested.append ?_ (nested_alone _ _)
  cases logout with
  | none => exact nested_nil
  | some first => exact nested_push none_held room first

/-- The functions take their locks in order, but for a `DeferredSend` that closes a session. -/
theorem nested_body {f : Call K} (hkeeps : f.KeepsSessions) : Nested Lock.rank [] f.body := by
  cases f with
  | addSession core => exact nested_alone _ _
  | handleLogin sector result =>
    exact ((nested_alone _ _).append (nested_alone _ _)).append (nested_send none_held _)
  | handleC2SMove zone first => exact nested_push none_held zone first
  | handleChat zone first => exact nested_push none_held zone first
  | handleLogout room core first disconnected =>
    refine (nested_push none_held room first).append ?_
    cases disconnected with
    | none => exact nested_nil
    | some logout => exact nested_disconnect room core logout
  | disconnect room core logout => exact nested_disconnect room core logout
  | disconnectAllSession service => exact nested_alone _ _
  | deferredSend room core sessions =>
    refine nested_outer (.flatMap fun session hsession => .flatMap fun round hround => ?_)
    cases round with
    | dequeue => exact nested_leaf (outer_held rfl _) rfl _
    | disconnect logout => exact (hkeeps session hsession logout hround).elim
  | processSend session registered =>
    refine (nested_alone _ _).append ?_
    split
    · exact nested_alone _ _
    · exact nested_nil
  | pop => exact nested_alone _ _
  | execute queue rounds timeOver => exact nested_execute queue rounds timeOver

end Order

section Twice

variable {K : Type*}

/-- A section of another lock does not release `m_sessionLock`. -/
theorem not_releases_leaf {core : K} {l : Lock K} (hne : l ≠ .sessionLock core) (mode : Mode) :
    .release (.sessionLock core) ∉ guarded l mode [] := by
  simp [guarded, hne.symm]

/-- `Disconnect` takes the lock of the sessions. -/
theorem takesTwice_disconnect (room core : K) (logout : Option Bool) :
    TakesTwice Lock.reentrant (.sessionLock core) (disconnect room core logout) := by
  refine TakesTwice.after ⟨rfl, [], .exclusive, [.release (.sessionLock core)], rfl, by simp⟩ ?_
  cases logout with
  | none => simp [onDisconnected]
  | some first => cases first <;> simp [onDisconnected, push, guarded]

/-- A `SendDeferred` takes it, or leaves it alone. -/
theorem takesTwice_sendDeferred (room core session : K) {rounds : List Deferred}
    {logout : Option Bool} (h : .disconnect logout ∈ rounds) :
    TakesTwice Lock.reentrant (.sessionLock core) (sendDeferred room core session rounds) := by
  refine .flatMap (fun round _ => ?_) ⟨_, h, takesTwice_disconnect room core logout⟩
  cases round with
  | dequeue => exact .inl (not_releases_leaf (by simp) _)
  | disconnect logout => exact .inr (takesTwice_disconnect room core logout)

/-- A `DeferredSend` that closes a session takes the lock it holds. -/
theorem deferredSend_twice {room core : K} {sessions : List (K × List Deferred)}
    (h : ¬ (Call.deferredSend room core sessions).KeepsSessions) :
    ∃ code, (Call.deferredSend room core sessions).body =
      .acquire (.sessionLock core) .exclusive :: code ∧
        TakesTwice Lock.reentrant (.sessionLock core) code := by
  simp only [Call.KeepsSessions, not_forall, not_not] at h
  obtain ⟨session, hsession, logout, hclosed⟩ := h
  refine ⟨_, rfl, .append (.flatMap (fun other _ => ?_)
    ⟨session, hsession, takesTwice_sendDeferred room core session.1 hclosed⟩) _⟩
  by_cases hother : ∃ logout, .disconnect logout ∈ other.2
  · obtain ⟨logout, hlogout⟩ := hother
    exact .inr (takesTwice_sendDeferred room core other.1 hlogout)
  · refine .inl fun hin => ?_
    obtain ⟨round, hround, hrelease⟩ := List.mem_flatMap.mp hin
    cases round with
    | dequeue => exact not_releases_leaf (by simp) _ hrelease
    | disconnect logout => exact hother ⟨logout, hround⟩

end Twice

section Server

variable {T K : Type*} [DecidableEq T] [DecidableEq K] [Fintype T] {lThreadId : T → BitVec 32}
  {s s' : LockedThreads.State T (Lock K)}

/-- No step begins a `DeferredSend` that closes a session. -/
def KeepsSessions (_ : LockedThreads.State T (Lock K)) :
    T × LockedThreads.Action (Call K) → Prop
  | (_, .call f) => f.KeepsSessions
  | _ => True

omit [DecidableEq T] [DecidableEq K] [Fintype T] in
/-- Such steps begin code that is in order. -/
theorem orderedCall_of_keeps {a : T × LockedThreads.Action (Call K)} (h : KeepsSessions s a) :
    LockedThreads.OrderedCall Lock.rank Call.body s a := by
  obtain ⟨t, a⟩ := a
  cases a with
  | call f => exact (nested_body h).ordered
  | proceed => trivial
  | access a => trivial

/-- Another one begins code its thread never comes to the end of. -/
theorem doomed_of_not_keeps {a : T × LockedThreads.Action (Call K)} (h : ¬ KeepsSessions s a)
    (hs : LockedThreads.step lThreadId Lock.reentrant Call.body s a = some s') :
    ∃ t, s'.Doomed Lock.reentrant t := by
  obtain ⟨t, a⟩ := a
  cases LockedThreads.step_moves hs with
  | called f ht =>
    cases f with
    | deferredSend room core sessions =>
      obtain ⟨code, hcode, htwice⟩ := deferredSend_twice h
      refine ⟨t, .sessionLock core, .inr ⟨code, ?_, htwice⟩⟩
      show (Function.update s.threads t _ t).code = _
      rw [Function.update_self]
      exact hcode
    | _ => exact (h trivial).elim
  | _ => exact (h trivial).elim

end Server

/-- However fewer than 65535 threads of a server, whose ids are different and fit the flag
of an `RWLock`, interleave the lock calls of its functions and the accesses of the
`RWLock`s, and whatever the functions find: as long as no `RIOSend` of a `DeferredSend`
fails in such a way that a session is closed, the threads never block each other for good;
and they can all finish what they have begun exactly if none did. -/
theorem server_canFinish_iff {T K : Type*} [DecidableEq T] [DecidableEq K] [Fintype T]
    {lThreadId : T → BitVec 32} (ids : RWLock.DistinctIds lThreadId)
    (hcard : Fintype.card T < 65535) {as : List (T × LockedThreads.Action (Call K))}
    {s : LockedThreads.State T (Lock K)}
    (hr : run (LockedThreads.step lThreadId Lock.reentrant Call.body) LockedThreads.init as =
      some s) :
    (StepsMeet (LockedThreads.step lThreadId Lock.reentrant Call.body) KeepsSessions
        LockedThreads.init as →
      LockedThreads.Live lThreadId Lock.reentrant Call.body s) ∧
    (LockedThreads.CanFinish lThreadId Lock.reentrant Call.body s ↔
      StepsMeet (LockedThreads.step lThreadId Lock.reentrant Call.body) KeepsSessions
        LockedThreads.init as) := by
  have hinv : StepsMeet (LockedThreads.step lThreadId Lock.reentrant Call.body) KeepsSessions
      LockedThreads.init as → LockedThreads.Inv lThreadId Lock.reentrant Lock.rank s :=
    fun hkeeps => run_preserves
      (fun _ _ _ inv ok hs => LockedThreads.inv_step ids hcard inv (orderedCall_of_keeps ok) hs)
      LockedThreads.inv_init hkeeps hr
  refine ⟨fun hkeeps => (hinv hkeeps).live ids hcard, fun hfinish => ?_, fun hkeeps =>
    (hinv hkeeps).canFinish ids hcard⟩
  have hor : StepsMeet (LockedThreads.step lThreadId Lock.reentrant Call.body) KeepsSessions
      LockedThreads.init as ∨ ∃ t, s.Doomed Lock.reentrant t :=
    stepsMeet_or_of_kept (fun _ _ _ (_ : True) _ => trivial)
      (fun _ _ _ _ hnot hs => doomed_of_not_keeps hnot hs)
      (fun _ _ _ _ hbad hs => hbad.imp fun _ hd => LockedThreads.doomed_step hd hs) trivial hr
  refine hor.resolve_right fun hbad => ?_
  obtain ⟨t, hdoomed⟩ := hbad
  exact LockedThreads.not_canFinish_of_doomed hdoomed hfinish

/-- A chat is sent to the players of a sector, with the lock of the sector shared, while a
player logs in there. -/
def loginDuringChat : List (Bool × LockedThreads.Action (Call ℕ)) :=
  [(true, .call (.execute 0 [[.chat (some [(1, [.queued 2])])]] false)), (true, .proceed),
    (true, .access .load), (true, .access (.cas false)), (true, .access .increment),
    (true, .proceed), (true, .access .load), (true, .access .decrement),
    (true, .access .store), (true, .proceed), (true, .access .load),
    (true, .access (.cas false)), (false, .call (.handleLogin 1 (.queued 3))),
    (false, .proceed), (false, .access .load), (false, .access (.cas false))]

/-- The exchange of the login fails while the sector is read, and both can finish. -/
theorem server_canFinish_loginDuringChat : ∃ s,
    run (LockedThreads.step RWLock.twoIds Lock.reentrant Call.body) LockedThreads.init
      loginDuringChat = some s ∧
    (s.threads true).held = [(.sectorPlayers 1, .shared)] ∧
    ((s.locks (.sectorPlayers 1)).threads false).pc = .writeCas ∧
    LockedThreads.Live RWLock.twoIds Lock.reentrant Call.body s ∧
    LockedThreads.CanFinish RWLock.twoIds Lock.reentrant Call.body s := by
  have h : ((run (LockedThreads.step RWLock.twoIds Lock.reentrant Call.body) LockedThreads.init
      loginDuringChat).any fun s =>
        (s.threads true).held = [(.sectorPlayers 1, .shared)] ∧
          ((s.locks (.sectorPlayers 1)).threads false).pc = .writeCas) = true := by
    decide +kernel
  obtain ⟨s, hr, hblocked⟩ := (Option.any_eq_true _ _).mp h
  obtain ⟨hheld, hpc⟩ := of_decide_eq_true hblocked
  have hkeeps : StepsMeet (LockedThreads.step RWLock.twoIds Lock.reentrant Call.body)
      KeepsSessions LockedThreads.init loginDuringChat :=
    stepsMeet_of_forall (by simp [loginDuringChat, KeepsSessions, Call.KeepsSessions])
  have hboth := server_canFinish_iff ThreadManager.distinct_twoIds (by decide) hr
  exact ⟨s, hr, hheld, hpc, hboth.1 hkeeps, hboth.2.mpr hkeeps⟩

end RioIocpServer.LockOrder
