import RioIocpServer.PacketHandler
import RioIocpServer.PlayerRegistry

/-!
# Runs of the server

Sessions receive packets, which the running `OnRecv` hands out one by one, and the
jobs of the room and the zones are executed one at a time, at any points after they
were queued. `Disconnect` runs `OnDisconnected` itself in a RIO session, and when its
`DisconnectEx` has completed in an IOCP session. A receive that completed before the
socket was closed may still be processed. The destructors of the sessions do nothing
that counts here: a session whose `m_ownPlayer` is not null is held by that player.
-/

namespace RioIocpServer.ServerRun

open TransitionSystem Contents PacketHandler PlayerRegistry

/-- The server with what its threads are about to do. -/
structure State (S : Type*) where
  /-- The sessions, the room and the job queues. -/
  server : Server S
  /-- The packets the running `OnRecv` of a session has not handed out yet. -/
  packets : S → List Frame
  /-- `Handle_LOGOUT` of the session has queued the logout and calls `Disconnect` next. -/
  leaving : S → Bool
  /-- A `DisconnectEx` of the session whose completion was not processed. -/
  disconnecting : S → Bool
  /-- A null player was used: the process has crashed. -/
  crashed : Bool
  /-- History: the last `C2S_LOGIN` handled was followed neither by a `C2S_LOGOUT`
  handled nor by `OnDisconnected`. -/
  unmatched : S → Bool

/-- The steps. -/
inductive Action (S : Type*) where
  /-- A receive completes; `OnRecv` begins. -/
  | receive (s : S) (packets : List Frame)
  /-- `OnRecv` hands the next packet out. -/
  | packet (s : S) (inputs : Inputs)
  /-- `Handle_LOGOUT` calls `Disconnect`. Whether `SetLinger` or `DisconnectEx`
  succeeds is left open. -/
  | leave (s : S) (accepted : Bool)
  /-- `Disconnect` is called from elsewhere. -/
  | disconnect (s : S) (accepted : Bool)
  /-- `ProcessDisconnect` of an IOCP session. -/
  | processDisconnect (s : S)
  /-- The next job of the room is executed. -/
  | runRoom
  /-- The next job of a zone is executed. -/
  | runZone (zone : ℤ × ℤ)

section System

variable {S : Type*} [DecidableEq S]

/-- A server nobody has logged in to, with the players not created yet. -/
def init (player : PlayerPtr S → Player (PlayerPtr S)) : State S where
  server :=
    { session := fun _ => Session.new S
      room := Room.new player
      sessionCnt := 0
      roomJobs := []
      zoneJobs := fun _ => [] }
  packets _ := []
  leaving _ := false
  disconnecting _ := false
  crashed := false
  unmatched _ := false

/-- What follows a handler or a job: a null player crashes the process, and behind
other undefined behaviour there is no step. -/
def State.after {α : Type*} (st : State S) (result : Except Fault α) (next : α → State S) :
    Option (State S) :=
  match result with
  | .ok value => some (next value)
  | .error .nullPlayer => some { st with crashed := true }
  | .error _ => none

/-- `m_bConnected.exchange(false)`. -/
def State.setDisconnected (st : State S) (s : S) : State S :=
  { st with server := st.server.setSession s { st.server.session s with connected := false } }

/-- `OnDisconnected` is called. -/
def State.onDisconnected (st : State S) (s : S) : State S :=
  { st with
    server := st.server.onDisconnected s
    unmatched := Function.update st.unmatched s false }

/-- `RioSession::Disconnect`, and `IocpSession::Disconnect` with `RegisterDisconnect`. -/
def State.disconnect (c : SessionClass) (st : State S) (s : S) (accepted : Bool) : State S :=
  if (st.server.session s).connected = false then st
  else
    let flagged := st.setDisconnected s
    if accepted = false then flagged
    else
      match c with
      | .rio => flagged.onDisconnected s
      | .iocp => { flagged with disconnecting := Function.update st.disconnecting s true }

/-- The logins of a session after a packet. -/
def unmatchedAfter (before : Bool) (packet : Frame) : Bool :=
  let header := PacketHeader.ofBytes packet.bytes
  if header.id = ProtoId.c2sLogin.value then true
  else if header.id = ProtoId.c2sLogout.value then false
  else before

/-- A packet that was handled is behind. -/
def State.handled (st : State S) (s : S) (packet : Frame) (rest : List Frame)
    (result : Handled S) : State S :=
  { st with
    server := result.server
    packets := Function.update st.packets s rest
    leaving := Function.update st.leaving s result.disconnects
    unmatched := Function.update st.unmatched s (unmatchedAfter (st.unmatched s) packet) }

/-- The threads of a RIO session do one thing at a time. -/
def State.mayDisconnect (c : SessionClass) (st : State S) (s : S) : Bool :=
  match c with
  | .rio => (st.packets s).isEmpty && !st.leaving s
  | .iocp => true

/-- What a process does in one step. -/
def State.act (parser : Parser) (c : SessionClass) (st : State S) : Action S → Option (State S)
  | .receive s packets =>
    if st.packets s = [] ∧ st.leaving s = false then
      some { st with packets := Function.update st.packets s packets }
    else none
  | .packet s inputs =>
    if st.leaving s = true then none
    else
      match st.packets s with
      | [] => none
      | packet :: rest =>
        st.after (st.server.handlePacket parser inputs s packet.bytes) (st.handled s packet rest)
  | .leave s accepted =>
    if st.leaving s = true then
      some { st.disconnect c s accepted with leaving := Function.update st.leaving s false }
    else none
  | .disconnect s accepted =>
    if st.mayDisconnect c s = true then some (st.disconnect c s accepted) else none
  | .processDisconnect s =>
    if st.disconnecting s = true then
      some { st.onDisconnected s with
        disconnecting := Function.update st.disconnecting s false }
    else none
  | .runRoom =>
    match st.server.roomJobs with
    | [] => none
    | job :: rest =>
      st.after ({ st.server with roomJobs := rest }.runLogout job)
        fun server => { st with server := server }
  | .runZone zone =>
    match st.server.zoneJobs zone with
    | [] => none
    | job :: rest =>
      st.after ({ st.server with
          zoneJobs := Function.update st.server.zoneJobs zone rest }.runZoneJob job)
        fun server => { st with server := server }

/-- One step of the server. -/
def step (parser : Parser) (c : SessionClass) (st : State S) (a : Action S) : Option (State S) :=
  if st.crashed = true then none else st.act parser c a

/-- What the registry is about. -/
def view (server : Server S) (unmatched : S → Bool) : Registry S where
  players := server.room.players
  valid p := (server.room.player p).isValidPlayer
  jobs := server.roomJobs
  own s := (server.session s).ownPlayer
  unmatched := unmatched
  sessionCnt := server.sessionCnt
  loginCnt := server.room.loginCnt

/-- The registry of a state. -/
def State.view (st : State S) : Registry S := ServerRun.view st.server st.unmatched

/-- The event of a call of `Disconnect`. -/
def State.disconnectEvent (c : SessionClass) (st : State S) (s : S) (accepted : Bool) : Event S :=
  if c = .rio ∧ (st.server.session s).connected = true ∧ accepted = true then .ended s else .idle

/-- The event of a packet. -/
def packetEvent (s : S) (packet : Frame) : Event S :=
  let header := PacketHeader.ofBytes packet.bytes
  if header.id = ProtoId.c2sLogin.value then .login s
  else if header.id = ProtoId.c2sLogout.value then .logout s
  else .idle

/-- What a step is for the registry. -/
def State.event (c : SessionClass) (st : State S) : Action S → Event S
  | .packet s _ =>
    match st.packets s with
    | [] => .idle
    | packet :: _ => packetEvent s packet
  | .leave s accepted => st.disconnectEvent c s accepted
  | .disconnect s accepted => st.disconnectEvent c s accepted
  | .processDisconnect s => .ended s
  | .runRoom =>
    match st.server.roomJobs with
    | some _ :: _ => .run
    | _ => .idle
  | .receive _ _ => .idle
  | .runZone _ => .idle

section Views

variable {parser : Parser} {c : SessionClass} {st st' : State S} {server server' : Server S}
variable {room room' : Room (PlayerPtr S)} {s : S} {p : PlayerPtr S} {packet : Frame}
variable {rest : List Frame} {result : Handled S} {out : List (PlayerPtr S × Message (PlayerPtr S))}

/-- A room whose players are registered, connected and counted as before. -/
structure SameRoom (room room' : Room (PlayerPtr S)) : Prop where
  /-- The same players. -/
  players_eq : room'.players = room.players
  /-- The same players are connected. -/
  valid_eq : ∀ p, (room'.player p).isValidPlayer = (room.player p).isValidPlayer
  /-- The same count. -/
  loginCnt_eq : room'.loginCnt = room.loginCnt

/-- A server in which nothing that the registry is about has changed. -/
structure SameServer (server server' : Server S) : Prop where
  /-- The room. -/
  room : SameRoom server.room server'.room
  /-- The jobs of the room. -/
  jobs_eq : server'.roomJobs = server.roomJobs
  /-- The players of the sessions. -/
  own_eq : ∀ s, (server'.session s).ownPlayer = (server.session s).ownPlayer
  /-- The number of logins. -/
  sessionCnt_eq : server'.sessionCnt = server.sessionCnt

omit [DecidableEq S] in
theorem SameServer.refl (server : Server S) : SameServer server server :=
  ⟨⟨rfl, fun _ => rfl, rfl⟩, rfl, fun _ => rfl, rfl⟩

omit [DecidableEq S] in
/-- Nothing has changed for the registry. -/
theorem view_eq (h : SameServer server server') (unmatched : S → Bool) :
    view server' unmatched = view server unmatched := by
  simp only [view, h.room.players_eq, h.room.valid_eq, h.jobs_eq, h.own_eq, h.sessionCnt_eq,
    h.room.loginCnt_eq]

/-- One player is changed and keeps its state. -/
theorem sameRoom_update {player : Player (PlayerPtr S)} (hplayers : room'.players = room.players)
    (hcnt : room'.loginCnt = room.loginCnt)
    (hplayer : room'.player = Function.update room.player p player)
    (hstate : player.state = (room.player p).state) : SameRoom room room' := by
  refine ⟨hplayers, fun q => ?_, hcnt⟩
  rw [hplayer]
  by_cases hq : q = p
  · rw [hq, Function.update_self, Player.isValidPlayer, hstate, Player.isValidPlayer]
  · rw [Function.update_of_ne hq]

/-- A player that changes its sector. -/
theorem sameRoom_updateSector (h : room.updateSector p = some room') : SameRoom room room' := by
  rw [Room.updateSector] at h
  split at h
  · obtain ⟨erased, herased, hrest⟩ := Option.bind_eq_some_iff.mp h
    obtain ⟨inserted, hinserted, hset⟩ := Option.bind_eq_some_iff.mp hrest
    cases eraseSector_eq_some herased
    cases insertSector_eq_some hinserted
    cases hset
    exact sameRoom_update rfl rfl rfl rfl
  · cases h
    exact ⟨rfl, fun _ => rfl, rfl⟩

/-- `Zone::MovePlayer`. -/
theorem sameRoom_movePlayer (h : room.movePlayer p = some (room', out)) : SameRoom room room' := by
  by_cases hvalid : (room.player p).isValidPlayer = true
  · obtain ⟨moved, hmoved, rfl, -⟩ := SectorSearch.movePlayer_eq_some hvalid h
    have hsector := sameRoom_updateSector hmoved
    have hview : SameRoom moved (moved.setPlayer p { moved.player p with
        viewList := UnorderedSet.empty.insertAll (moved.visited p) }) :=
      sameRoom_update rfl rfl rfl rfl
    exact ⟨hview.players_eq.trans hsector.players_eq,
      fun q => (hview.valid_eq q).trans (hsector.valid_eq q),
      hview.loginCnt_eq.trans hsector.loginCnt_eq⟩
  · rw [Room.movePlayer, if_neg hvalid] at h
    cases h
    exact ⟨rfl, fun _ => rfl, rfl⟩

omit [DecidableEq S] in
/-- The calls of `Send*Msg` change nothing. -/
theorem send_eq_ok (h : server.send out = .ok server') : server' = server := by
  rw [Server.send] at h
  split at h <;> cases h
  rfl

omit [DecidableEq S] in
/-- A function of the room that returns changes the room alone. -/
theorem inRoom_eq_ok {call : Option (Room (PlayerPtr S) × List (PlayerPtr S × Message (PlayerPtr S)))}
    (h : server.inRoom call = .ok server') :
    ∃ room out, call = some (room, out) ∧ server' = { server with room := room } := by
  cases call with
  | none => cases h
  | some called => exact ⟨called.1, called.2, rfl, send_eq_ok h⟩

/-- A job of a zone. -/
theorem sameServer_runZoneJob {job : ZoneJob S} (h : server.runZoneJob job = .ok server') :
    SameServer server server' := by
  cases job with
  | movePlayer p =>
    obtain ⟨room, out, hcall, rfl⟩ := inRoom_eq_ok h
    exact ⟨sameRoom_movePlayer hcall, rfl, fun _ => rfl, rfl⟩
  | chat p text =>
    cases send_eq_ok h
    exact .refl server

/-- A session that keeps its player. -/
theorem sameServer_setSession {session : Session S}
    (hown : session.ownPlayer = (server.session s).ownPlayer) :
    SameServer server (server.setSession s session) := by
  refine ⟨⟨rfl, fun _ => rfl, rfl⟩, rfl, fun t => ?_, rfl⟩
  show (Function.update server.session s session t).ownPlayer = _
  by_cases ht : t = s
  · rw [ht, Function.update_self, hown]
  · rw [Function.update_of_ne ht]

/-- A frame passes the size check of the handlers. -/
theorem not_size_gt (packet : Frame) :
    ¬ (PacketHeader.ofBytes packet.bytes).size.toNat > packet.bytes.length := by
  rw [packet.size_eq]
  exact lt_irrefl _

/-- `Handle_C2S_MOVE`. -/
theorem sameServer_handleC2SMove {inputs : Inputs}
    (h : server.handleC2SMove parser inputs s packet.bytes = .ok result) :
    SameServer server result.server := by
  rw [Server.handleC2SMove, if_neg (not_size_gt packet)] at h
  dsimp only at h
  split at h
  · cases h
    exact .refl server
  · split at h
    · cases h
    · rename_i p hown
      rw [hown] at h
      cases h
      have hroom : SameRoom server.room (server.room.updatePosition p
          (parser.move (packet.bytes.drop PacketHeader.sizeOf)).2.posInfo
          (parser.move (packet.bytes.drop PacketHeader.sizeOf)).2.timeStamp) :=
        sameRoom_update rfl rfl rfl rfl
      refine ⟨hroom, rfl, fun t => ?_, rfl⟩
      show (Function.update server.session s _ t).ownPlayer = _
      by_cases ht : t = s
      · rw [ht, Function.update_self, hown]
      · rw [Function.update_of_ne ht]

omit [DecidableEq S] in
/-- `Handle_CHAT`. -/
theorem sameServer_handleChat (h : server.handleChat parser s packet.bytes = .ok result) :
    SameServer server result.server := by
  rw [Server.handleChat, if_neg (not_size_gt packet)] at h
  dsimp only at h
  split at h
  · cases h
    exact .refl server
  · cases hown : (server.session s).ownPlayer with
    | none =>
      rw [hown] at h
      cases h
    | some p =>
      rw [hown] at h
      cases h
      exact ⟨⟨rfl, fun _ => rfl, rfl⟩, rfl, fun _ => rfl, rfl⟩

/-- The server after `Handle_LOGIN`. -/
def loggedIn (server : Server S) (inputs : Inputs) (s : S) (pkt : C2SLogin) : Server S :=
  let player : PlayerPtr S := (s, server.sessionCnt + 1)
  let new : Player (PlayerPtr S) := newPlayer inputs
  let info := { new.info with playerType := pkt.playerType, playerId := pkt.playerId }
  let idx := getPlayerSectorIdx new.info.toPosInfo
  { server with
    session := Function.update server.session s { server.session s with
      playerId := pkt.playerId
      sessionId := server.sessionCnt + 1
      loginTime := pkt.loginTime
      ownPlayer := some player }
    room :=
      { player := Function.update server.room.player player
          { new with info := info, state := .connected, idxInfo := idx }
        players := server.room.players.insert player
        sectors := Function.update server.room.sectors idx ((server.room.sectors idx).insert player)
        loginCnt := server.room.loginCnt + 1 }
    sessionCnt := server.sessionCnt + 1 }

/-- The player `Handle_LOGIN` creates, before it is logged in. -/
def createdPlayer (inputs : Inputs) (pkt : C2SLogin) : Player (PlayerPtr S) :=
  let new : Player (PlayerPtr S) := newPlayer inputs
  { new with info := { new.info with playerType := pkt.playerType, playerId := pkt.playerId } }

/-- `Room::Login` of the player created. -/
theorem login_created (server : Server S) (inputs : Inputs) (s : S) (pkt : C2SLogin) :
    (server.room.setPlayer (s, server.sessionCnt + 1) (createdPlayer inputs pkt)).login
        (s, server.sessionCnt + 1) =
      some ((loggedIn server inputs s pkt).room,
        [((s, server.sessionCnt + 1), .loginResult true pkt.playerType)]) := by
  rw [SectorSearch.login_eq]
  simp only [Room.setPlayer, Function.update_self, Function.update_idem]
  rfl

/-- `Handle_LOGIN` of a frame returns with the player logged in, unless the session
id overflows. -/
theorem handleLogin_eq (server : Server S) (parser : Parser) (inputs : Inputs) (s : S)
    (packet : Frame) : server.handleLogin parser inputs s packet.bytes =
      if server.sessionCnt = 2 ^ 31 - 1 then .error .sessionId
      else .ok ⟨loggedIn server inputs s
        (parser.login (packet.bytes.drop PacketHeader.sizeOf)).2, true, false⟩ := by
  have hlogin := login_created server inputs s
    (parser.login (packet.bytes.drop PacketHeader.sizeOf)).2
  simp only [createdPlayer] at hlogin
  rw [Server.handleLogin, if_neg (not_size_gt packet)]
  dsimp only
  split
  · rfl
  · rw [hlogin]
    simp only [Server.inRoom, Server.send, Server.usesNull, Server.setSession, List.any_cons,
      List.any_nil, Function.update_self, Option.isNone_some, Bool.or_false, Bool.false_eq_true,
      if_false]
    rfl

/-- The registry after a login. -/
theorem view_loggedIn (server : Server S) (inputs : Inputs) (s : S) (pkt : C2SLogin)
    (unmatched : S → Bool) :
    view (loggedIn server inputs s pkt) (Function.update unmatched s true) =
      (view server unmatched).login s := by
  refine Registry.ext rfl (funext fun p => ?_) rfl (funext fun t => ?_) rfl rfl rfl
  · show (Function.update server.room.player (s, server.sessionCnt + 1) _ p).isValidPlayer =
      Function.update (fun q => (server.room.player q).isValidPlayer) (s, server.sessionCnt + 1) _ p
    by_cases hp : p = (s, server.sessionCnt + 1)
    · rw [hp, Function.update_self, Function.update_self]
      rfl
    · rw [Function.update_of_ne hp, Function.update_of_ne hp]
  · show (Function.update server.session s _ t).ownPlayer =
      Function.update (fun u => (server.session u).ownPlayer) s _ t
    by_cases ht : t = s
    · rw [ht, Function.update_self, Function.update_self]
      rfl
    · rw [Function.update_of_ne ht, Function.update_of_ne ht]

/-- A handler that has returned did to the registry what its packet is for. -/
theorem view_handled {inputs : Inputs}
    (h : st.server.handlePacket parser inputs s packet.bytes = .ok result) :
    perform st.view (packetEvent s packet) = some (st.handled s packet rest result).view := by
  simp only [Server.handlePacket] at h
  simp only [packetEvent, State.view, State.handled, unmatchedAfter]
  split at h
  · rename_i hid
    rw [handleLogin_eq] at h
    split at h <;> cases h
    rw [if_pos hid, if_pos hid, view_loggedIn]
    rfl
  · rename_i hid
    rw [if_neg hid, if_neg hid]
    split at h
    · rename_i hout
      rw [Server.handleLogout, if_neg (not_size_gt packet)] at h
      cases h
      rw [if_pos hout, if_pos hout]
      rfl
    · rename_i hout
      rw [if_neg hout, if_neg hout, Function.update_eq_self]
      have hsame : SameServer st.server result.server := by
        split at h
        · exact sameServer_handleC2SMove h
        · split at h
          · exact sameServer_handleChat h
          · cases h
            exact .refl st.server
      exact congrArg some (view_eq hsame st.unmatched).symm

/-- A packet whose handler uses a null player is no login and no logout. -/
theorem packetEvent_of_null {inputs : Inputs}
    (h : server.handlePacket parser inputs s packet.bytes = .error .nullPlayer) :
    packetEvent s packet = .idle := by
  simp only [Server.handlePacket] at h
  simp only [packetEvent]
  split at h
  · rw [handleLogin_eq] at h
    split at h <;> cases h
  · rename_i hid
    split at h
    · rw [Server.handleLogout, if_neg (not_size_gt packet)] at h
      cases h
    · rename_i hout
      rw [if_neg hid, if_neg hout]

/-- The player of a session is forgotten. -/
theorem own_forgotten (server : Server S) (s : S) (session : Session S)
    (hown : session.ownPlayer = none) : (fun t => ((server.setSession s session).session t).ownPlayer) =
      Function.update (fun t => (server.session t).ownPlayer) s none := by
  funext t
  show (Function.update server.session s session t).ownPlayer = _
  by_cases ht : t = s
  · rw [ht, Function.update_self, Function.update_self, hown]
  · rw [Function.update_of_ne ht, Function.update_of_ne ht]

/-- `OnDisconnected` of a session without a player does nothing. -/
theorem onDisconnected_of_none (hown : (server.session s).ownPlayer = none) :
    server.onDisconnected s = server := by
  simp only [Server.onDisconnected, hown]

/-- `OnDisconnected` of a session with a player. -/
theorem onDisconnected_of_own (hown : (server.session s).ownPlayer = some p) :
    server.onDisconnected s = Server.setSession
      (if (server.room.player p).state = .connected then
        { server with
          room := server.room.setPlayer p { server.room.player p with state := .disconnected }
          roomJobs := server.roomJobs ++ [some p] }
      else server) s { server.session s with ownPlayer := none } := by
  simp only [Server.onDisconnected, hown]

/-- `OnDisconnected` is the end of a session. -/
theorem view_onDisconnected (server : Server S) (unmatched : S → Bool) (s : S) :
    view (server.onDisconnected s) (Function.update unmatched s false) =
      (view server unmatched).ended s := by
  cases hown : (server.session s).ownPlayer with
  | none =>
    have hview : (view server unmatched).own s = none := hown
    rw [onDisconnected_of_none hown]
    refine Registry.ext rfl (endValid_of_none hview).symm ?_ ?_ rfl rfl rfl
    · show server.roomJobs = server.roomJobs ++ (view server unmatched).endJobs s
      rw [endJobs_of_none hview, List.append_nil]
    · show _ = Function.update (fun t => (server.session t).ownPlayer) s none
      rw [← hown]
      exact (Function.update_eq_self s fun t => (server.session t).ownPlayer).symm
  | some p =>
    have hview : (view server unmatched).own s = some p := hown
    rw [onDisconnected_of_own hown]
    refine Registry.ext ?_ ?_ ?_ ?_ rfl ?_ ?_
    · split <;> rfl
    · show _ = (view server unmatched).endValid s
      rw [endValid_of_own hview]
      funext q
      split
      · show ((server.room.setPlayer p _).player q).isValidPlayer =
          Function.update (fun q => (server.room.player q).isValidPlayer) p false q
        by_cases hq : q = p
        · rw [hq, setPlayer_self, Function.update_self]
          rfl
        · rw [setPlayer_of_ne _ hq, Function.update_of_ne hq]
      · rename_i hstate
        have hvalid : (server.room.player p).isValidPlayer = false := decide_eq_false hstate
        show (server.room.player q).isValidPlayer =
          Function.update (fun q => (server.room.player q).isValidPlayer) p false q
        rw [← hvalid, Function.update_eq_self]
    · show _ = server.roomJobs ++ (view server unmatched).endJobs s
      rw [endJobs_of_own hview]
      split
      · rename_i hstate
        have hvalid : (view server unmatched).valid p = true := decide_eq_true hstate
        rw [if_pos hvalid]
        rfl
      · rename_i hstate
        have hvalid : ¬ (view server unmatched).valid p = true :=
          fun h => hstate (of_decide_eq_true h)
        rw [if_neg hvalid, List.append_nil]
        rfl
    · show (fun t => ((Server.setSession _ s _).session t).ownPlayer) = _
      rw [own_forgotten _ s _ rfl]
      split <;> rfl
    · split <;> rfl
    · split <;> rfl

/-- `Disconnect` ends a RIO session if it gets there. -/
theorem view_disconnect (c : SessionClass) (st : State S) (s : S) (accepted : Bool) :
    perform st.view (st.disconnectEvent c s accepted) = some (st.disconnect c s accepted).view := by
  have hflag : SameServer st.server (st.setDisconnected s).server := sameServer_setSession rfl
  have hown : (st.setDisconnected s).view = st.view := view_eq hflag st.unmatched
  rw [State.disconnectEvent, State.disconnect]
  by_cases hconnected : (st.server.session s).connected = false
  · rw [if_pos hconnected, if_neg (by rw [hconnected]; simp)]
    rfl
  · rw [if_neg hconnected]
    cases accepted with
    | false =>
      rw [if_neg (by simp), if_pos rfl, hown]
      rfl
    | true =>
      cases c with
      | rio =>
        rw [if_pos ⟨rfl, Bool.eq_true_of_not_eq_false hconnected, rfl⟩]
        show some (st.view.ended s) = some ((st.setDisconnected s).onDisconnected s).view
        rw [← hown]
        exact congrArg some (view_onDisconnected _ _ s).symm
      | iocp =>
        rw [if_neg (by simp)]
        exact congrArg some hown.symm

/-- `Disconnect` uses no player. -/
theorem disconnect_crashed (c : SessionClass) (st : State S) (s : S) (accepted : Bool) :
    (st.disconnect c s accepted).crashed = st.crashed := by
  rw [State.disconnect]
  split
  · rfl
  · split
    · rfl
    · cases c <;> rfl

/-- The registry after a logout of the room. -/
theorem view_logout {jobs : List (Option (PlayerPtr S))} {unmatched : S → Bool}
    (h : server.room.logout p = some (room', out)) :
    view { server with roomJobs := jobs, room := room' } unmatched =
      (view server unmatched).erase p jobs := by
  obtain ⟨rfl, -⟩ := SectorSearch.logout_eq_some h
  refine Registry.ext rfl (funext fun q => ?_) rfl rfl rfl rfl rfl
  show (Function.update server.room.player p _ q).isValidPlayer =
    Function.update (fun q => (server.room.player q).isValidPlayer) p false q
  by_cases hq : q = p
  · rw [hq, Function.update_self, Function.update_self]
    rfl
  · rw [Function.update_of_ne hq, Function.update_of_ne hq]

omit [DecidableEq S] in
/-- What follows a handler or a job. -/
theorem after_eq_some {α : Type*} {call : Except Fault α} {next : α → State S}
    (h : st.after call next = some st') :
    (∃ value, call = .ok value ∧ st' = next value) ∨
      (call = .error .nullPlayer ∧ st' = { st with crashed := true }) := by
  cases call with
  | ok value =>
    cases h
    exact .inl ⟨value, rfl, rfl⟩
  | error fault =>
    cases fault with
    | nullPlayer =>
      cases h
      exact .inr ⟨rfl, rfl⟩
    | sector => cases h
    | sessionId => cases h

/-- Only a process that has not crashed goes on. -/
theorem step_eq_some {a : Action S} : step parser c st a = some st' ↔
    st.crashed = false ∧ st.act parser c a = some st' := by
  rw [step]
  cases st.crashed <;> simp

/-- A packet that is handed out. -/
theorem packet_eq_some {inputs : Inputs} (h : st.act parser c (.packet s inputs) = some st') :
    st.leaving s = false ∧ ∃ packet rest, st.packets s = packet :: rest ∧
      st.after (st.server.handlePacket parser inputs s packet.bytes) (st.handled s packet rest) =
        some st' := by
  rw [State.act] at h
  split at h
  · cases h
  · rename_i hleaving
    refine ⟨Bool.eq_false_of_not_eq_true hleaving, ?_⟩
    cases hpackets : st.packets s with
    | nil =>
      rw [hpackets] at h
      cases h
    | cons packet rest =>
      rw [hpackets] at h
      exact ⟨packet, rest, rfl, h⟩

/-- A job of the room that is executed. -/
theorem runRoom_eq_some (h : st.act parser c .runRoom = some st') :
    ∃ job rest, st.server.roomJobs = job :: rest ∧
      st.after ({ st.server with roomJobs := rest }.runLogout job)
        (fun server => { st with server := server }) = some st' := by
  rw [State.act] at h
  cases hjobs : st.server.roomJobs with
  | nil =>
    rw [hjobs] at h
    cases h
  | cons job rest =>
    rw [hjobs] at h
    exact ⟨job, rest, rfl, h⟩

/-- A job of a zone that is executed. -/
theorem runZone_eq_some {zone : ℤ × ℤ} (h : st.act parser c (.runZone zone) = some st') :
    ∃ job rest, st.server.zoneJobs zone = job :: rest ∧
      st.after ({ st.server with
          zoneJobs := Function.update st.server.zoneJobs zone rest }.runZoneJob job)
        (fun server => { st with server := server }) = some st' := by
  rw [State.act] at h
  cases hjobs : st.server.zoneJobs zone with
  | nil =>
    rw [hjobs] at h
    cases h
  | cons job rest =>
    rw [hjobs] at h
    exact ⟨job, rest, rfl, h⟩

/-- The logout of a player uses no null player. -/
theorem runLogout_ne_null (server : Server S) (p : PlayerPtr S) :
    server.runLogout (some p) ≠ .error .nullPlayer := by
  intro h
  change server.inRoom (server.room.logout p) = _ at h
  cases hcall : server.room.logout p with
  | none =>
    rw [hcall] at h
    cases h
  | some called =>
    obtain ⟨room, out⟩ := called
    cases (SectorSearch.logout_eq_some hcall).2
    rw [hcall] at h
    cases h

/-- Every step of the server is the event it stands for. -/
theorem view_step {a : Action S} (h : step parser c st a = some st') :
    perform st.view (st.event c a) = some st'.view := by
  obtain ⟨-, hact⟩ := step_eq_some.mp h
  cases a with
  | receive t packets =>
    rw [State.act] at hact
    split at hact <;> cases hact
    rfl
  | packet t inputs =>
    obtain ⟨-, packet, rest, hpackets, hafter⟩ := packet_eq_some hact
    have hevent : st.event c (.packet t inputs) = packetEvent t packet := by
      simp only [State.event, hpackets]
    rw [hevent]
    rcases after_eq_some hafter with ⟨result, hresult, rfl⟩ | ⟨hnull, rfl⟩
    · exact view_handled hresult
    · rw [packetEvent_of_null hnull]
      rfl
  | leave t accepted =>
    rw [State.act] at hact
    split at hact <;> cases hact
    exact view_disconnect c st t accepted
  | disconnect t accepted =>
    rw [State.act] at hact
    split at hact <;> cases hact
    exact view_disconnect c st t accepted
  | processDisconnect t =>
    rw [State.act] at hact
    split at hact <;> cases hact
    exact congrArg some (view_onDisconnected st.server st.unmatched t).symm
  | runRoom =>
    obtain ⟨job, rest, hjobs, hafter⟩ := runRoom_eq_some hact
    rcases after_eq_some hafter with ⟨value, hresult, rfl⟩ | ⟨hnull, rfl⟩
    · cases job with
      | none => cases hresult
      | some p =>
        obtain ⟨room', out, hlogout, rfl⟩ := inRoom_eq_ok hresult
        have hevent : st.event c .runRoom = .run := by
          simp only [State.event, hjobs]
        rw [hevent]
        exact perform_run_eq_some.mpr ⟨p, rest, hjobs, view_logout hlogout⟩
    · cases job with
      | none =>
        have hevent : st.event c .runRoom = .idle := by
          simp only [State.event, hjobs]
        rw [hevent]
        rfl
      | some p => exact (runLogout_ne_null _ p hnull).elim
  | runZone zone =>
    obtain ⟨job, rest, -, hafter⟩ := runZone_eq_some hact
    rcases after_eq_some hafter with ⟨value, hresult, rfl⟩ | ⟨-, rfl⟩
    · exact congrArg some (view_eq (sameServer_runZoneJob hresult) st.unmatched).symm
    · rfl

end Views

end System

/-- What the examples get from outside. -/
def inputsAt (now : ℤ) : Inputs := ⟨0, 0, (0, 0), now⟩

/-- Nobody's players before their construction. -/
def noPlayer (_ : PlayerPtr Unit) : Player (PlayerPtr Unit) := newPlayer (inputsAt 0)

/-- A packet without payload. -/
def emptyPacket (id : ProtoId) : Frame := .ofMessage [] id.value (by decide)

/-- A packet whose `session_id` is 1. -/
def sessionPacket (id : ProtoId) : Frame := .ofMessage [8, 1] id.value (by decide)

end RioIocpServer.ServerRun
