import RioIocpServer.SectorSearch
import RioIocpServer.ReceivePath

/-!
# Packet handlers and server sessions

`PacketHandler::HandlePacket` and its four handlers, `OnDisconnected` of both
server sessions, and the jobs they queue. What a handler sends is not kept; of the
functions that send only the uses of `m_ownPlayer` count. A use of a null player and
the undefined behaviours met on the way are errors. `ParseFromArray` is a parameter:
whether it succeeded, and the message, which is filled in part if it did not.
-/

namespace RioIocpServer.PacketHandler

open Contents

/-- `PROTO_ID`. -/
inductive ProtoId where
  | c2sLogin
  | c2sLoginAdmin
  | s2cLoginResult
  | s2cLoginResultAdmin
  | c2sMove
  | s2cMoveResult
  | s2cMove
  | s2cEnter
  | s2cLeave
  | c2sLogout
  | s2cLogoutResult
  | c2sChat
  | s2cChat
  deriving DecidableEq

/-- The value of an enumerator: its position. -/
def ProtoId.value (id : ProtoId) : UInt16 := UInt16.ofNat id.ctorIdx

/-- `Protocol::C2S_LOGIN`, without the password, which nothing reads. -/
structure C2SLogin where
  /-- `player_id`. -/
  playerId : String
  /-- `player_type`. -/
  playerType : ℤ
  /-- `login_time`. -/
  loginTime : ℤ

/-- `Protocol::C2S_MOVE`. -/
structure C2SMove where
  /-- `session_id`. -/
  sessionId : ℤ
  /-- `request_result`. -/
  requestResult : Bool
  /-- `time_stamp`. -/
  timeStamp : ℤ
  /-- `pos_info`. -/
  posInfo : PosInfo

/-- `Protocol::C2S_CHAT`. -/
structure C2SChat where
  /-- `session_id`. -/
  sessionId : ℤ
  /-- `chat`. -/
  chat : String

/-- `ParseFromArray` of the messages. Of `C2S_LOGOUT` nothing is read. -/
structure Parser where
  /-- `C2S_LOGIN`. -/
  login : List UInt8 → Bool × C2SLogin
  /-- `C2S_MOVE`. -/
  move : List UInt8 → Bool × C2SMove
  /-- `C2S_LOGOUT`. -/
  logout : List UInt8 → Bool
  /-- `C2S_CHAT`. -/
  chat : List UInt8 → Bool × C2SChat

/-- A pointer to a `Player`: its `m_ownerSession` and its `m_playerId`, neither of
which changes. -/
abbrev PlayerPtr (S : Type*) := S × ℤ

/-- The fields of a server session the handlers use. -/
structure Session (S : Type*) where
  /-- `m_bConnected`. -/
  connected : Bool
  /-- `m_playerId`. -/
  playerId : String
  /-- `m_sessionId`. -/
  sessionId : ℤ
  /-- `m_moveTime`. -/
  moveTime : ℤ
  /-- `m_loginTime`. -/
  loginTime : ℤ
  /-- `m_sendTime`. -/
  sendTime : ℤ
  /-- `m_bRequestResult`. -/
  requestResult : Bool
  /-- `m_ownPlayer`. -/
  ownPlayer : Option (PlayerPtr S)

/-- A session that was constructed and has connected. -/
def Session.new (S : Type*) : Session S where
  connected := true
  playerId := ""
  sessionId := 0
  moveTime := 0
  loginTime := 0
  sendTime := 0
  requestResult := false
  ownPlayer := none

/-- A job in the queue of a zone. -/
inductive ZoneJob (S : Type*) where
  /-- `Zone::MovePlayer`. -/
  | movePlayer (player : PlayerPtr S)
  /-- `Zone::Chat`. -/
  | chat (player : PlayerPtr S) (chat : String)

/-- The sessions and the room with its job queues. -/
structure Server (S : Type*) where
  /-- The sessions. -/
  session : S → Session S
  /-- `gRoom`. -/
  room : Room (PlayerPtr S)
  /-- `m_sessionCnt`. -/
  sessionCnt : ℤ
  /-- The arguments of the `Room::Logout` jobs in the queue of the room. -/
  roomJobs : List (Option (PlayerPtr S))
  /-- The queues of the zones. -/
  zoneJobs : ℤ × ℤ → List (ZoneJob S)

/-- What ends a handler or a job early. -/
inductive Fault where
  /-- A null `m_ownPlayer` or player argument is used. -/
  | nullPlayer
  /-- A sector that `m_sectors` does not have is used. -/
  | sector
  /-- `m_sessionId++` overflows. -/
  | sessionId
  deriving DecidableEq

/-- A handler that has returned. -/
structure Handled (S : Type*) where
  /-- The server. -/
  server : Server S
  /-- The result. -/
  result : Bool
  /-- The handler calls `Disconnect` last, which is a step of its own. -/
  disconnects : Bool

/-- What the handlers get from outside. -/
structure Inputs where
  /-- The random numbers of `SetInitialPos`. -/
  xDist : Fin 40000
  yDist : Fin 40000
  /-- The `m_idxInfo` of a new player, which is not initialized. -/
  idxInfo : ℤ × ℤ
  /-- The clock. -/
  now : ℤ

/-- `Player::Player`. -/
def newPlayer {S : Type*} (inputs : Inputs) : Player (PlayerPtr S) where
  info :=
    { x := mapMin + (inputs.xDist : ℕ), y := mapMin + (inputs.yDist : ℕ), z := 200, yaw := 0
      pitch := 0, roll := 0, vx := 0, vy := 0, vz := 0, ax := 0, ay := 0, az := 0, playerId := ""
      playerType := 0, timeStamp := 0 }
  state := .disconnected
  idxInfo := inputs.idxInfo
  viewList := .empty

/-- A value stored in an `int`. -/
def toInt (x : ℤ) : ℤ := x.bmod (2 ^ 32)

section Server

variable {S : Type*} [DecidableEq S]

/-- The server with one session changed. -/
def Server.setSession (server : Server S) (s : S) (session : Session S) : Server S :=
  { server with session := Function.update server.session s session }

/-- A job put into the queue of a zone. -/
def Server.push (server : Server S) (zone : ℤ × ℤ) (job : ZoneJob S) : Server S :=
  { server with
    zoneJobs := Function.update server.zoneJobs zone (server.zoneJobs zone ++ [job]) }

/-- A `Send*Msg` function that uses the player of its session and finds none. -/
def Server.usesNull (server : Server S) : PlayerPtr S × Message (PlayerPtr S) → Bool
  | (player, .loginResult _ _) => (server.session player.1).ownPlayer.isNone
  | (player, .moveResult) =>
    (server.session player.1).requestResult && (server.session player.1).ownPlayer.isNone
  | _ => false

/-- The calls of `Send*Msg`. -/
def Server.send (server : Server S) (out : List (PlayerPtr S × Message (PlayerPtr S))) :
    Except Fault (Server S) :=
  if out.any server.usesNull then .error .nullPlayer else .ok server

/-- A function of the room and the calls of `Send*Msg` it makes. -/
def Server.inRoom (server : Server S)
    (call : Option (Room (PlayerPtr S) × List (PlayerPtr S × Message (PlayerPtr S)))) :
    Except Fault (Server S) :=
  match call with
  | some (room, out) => { server with room := room }.send out
  | none => .error .sector

/-- `Room::MovePlayer`. -/
def Server.roomMovePlayer (server : Server S) : Option (PlayerPtr S) → Except Fault (Server S)
  | none => .error .nullPlayer
  | some p => .ok (server.push (getPlayerZoneIdx (server.room.player p).info.toPosInfo)
      (.movePlayer p))

/-- `Room::Chat`. -/
def Server.roomChat (server : Server S) (chat : String) :
    Option (PlayerPtr S) → Except Fault (Server S)
  | none => .error .nullPlayer
  | some p => .ok (server.push (getPlayerZoneIdx (server.room.player p).info.toPosInfo)
      (.chat p chat))

/-- `PacketHandler::Handle_LOGIN`. -/
def Server.handleLogin (server : Server S) (parser : Parser) (inputs : Inputs) (s : S)
    (packet : List UInt8) : Except Fault (Handled S) :=
  if (PacketHeader.ofBytes packet).size.toNat > packet.length then .ok ⟨server, false, false⟩
  else
    let pkt := (parser.login (packet.drop PacketHeader.sizeOf)).2
    let sessionId := server.sessionCnt
    if sessionId = 2 ^ 31 - 1 then .error .sessionId
    else do
      let player : PlayerPtr S := (s, sessionId + 1)
      let created := server.setSession s { server.session s with
        playerId := pkt.playerId
        sessionId := sessionId + 1
        loginTime := pkt.loginTime
        ownPlayer := some player }
      let new : Player (PlayerPtr S) := newPlayer inputs
      let room := server.room.setPlayer player { new with
        info := { new.info with playerType := pkt.playerType, playerId := pkt.playerId } }
      let entered ← Server.inRoom { created with sessionCnt := sessionId + 1 } (room.login player)
      return ⟨entered, true, false⟩

/-- `PacketHandler::Handle_C2S_MOVE`. -/
def Server.handleC2SMove (server : Server S) (parser : Parser) (inputs : Inputs) (s : S)
    (packet : List UInt8) : Except Fault (Handled S) :=
  if (PacketHeader.ofBytes packet).size.toNat > packet.length then .ok ⟨server, false, false⟩
  else
    let pkt := (parser.move (packet.drop PacketHeader.sizeOf)).2
    let session := server.session s
    if pkt.sessionId ≠ session.sessionId then .ok ⟨server, false, false⟩
    else
      match session.ownPlayer with
      | none => .error .nullPlayer
      | some p => do
        let moved := { server with
          room := server.room.updatePosition p pkt.posInfo pkt.timeStamp }
        let moveTime := toInt pkt.timeStamp
        let timed := moved.setSession s { session with
          requestResult := pkt.requestResult
          moveTime := moveTime
          sendTime := toInt (inputs.now - moveTime) }
        let queued ← timed.roomMovePlayer session.ownPlayer
        return ⟨queued, true, false⟩

/-- `PacketHandler::Handle_LOGOUT`. -/
def Server.handleLogout (server : Server S) (s : S) (packet : List UInt8) :
    Except Fault (Handled S) :=
  if (PacketHeader.ofBytes packet).size.toNat > packet.length then .ok ⟨server, false, false⟩
  else
    .ok ⟨{ server with roomJobs := server.roomJobs ++ [(server.session s).ownPlayer] }, true, true⟩

/-- `PacketHandler::Handle_CHAT`. -/
def Server.handleChat (server : Server S) (parser : Parser) (s : S) (packet : List UInt8) :
    Except Fault (Handled S) :=
  if (PacketHeader.ofBytes packet).size.toNat > packet.length then .ok ⟨server, false, false⟩
  else
    let pkt := (parser.chat (packet.drop PacketHeader.sizeOf)).2
    let session := server.session s
    if pkt.sessionId ≠ session.sessionId then .ok ⟨server, false, false⟩
    else do
      let queued ← server.roomChat pkt.chat session.ownPlayer
      return ⟨queued, true, false⟩

/-- `PacketHandler::HandlePacket`. -/
def Server.handlePacket (server : Server S) (parser : Parser) (inputs : Inputs) (s : S)
    (packet : List UInt8) : Except Fault (Handled S) :=
  let header := PacketHeader.ofBytes packet
  if header.id = ProtoId.c2sLogin.value then server.handleLogin parser inputs s packet
  else if header.id = ProtoId.c2sLogout.value then server.handleLogout s packet
  else if header.id = ProtoId.c2sMove.value then server.handleC2SMove parser inputs s packet
  else if header.id = ProtoId.c2sChat.value then server.handleChat parser s packet
  else .ok ⟨server, false, false⟩

/-- `OnDisconnected` of both server sessions. -/
def Server.onDisconnected (server : Server S) (s : S) : Server S :=
  let session := server.session s
  match session.ownPlayer with
  | none => server
  | some p =>
    let left :=
      if (server.room.player p).state = .connected then
        { server with
          room := server.room.setPlayer p { server.room.player p with state := .disconnected }
          roomJobs := server.roomJobs ++ [some p] }
      else server
    left.setSession s { session with ownPlayer := none }

/-- A job of the room: `Room::Logout`. -/
def Server.runLogout (server : Server S) : Option (PlayerPtr S) → Except Fault (Server S)
  | none => .error .nullPlayer
  | some p => server.inRoom (server.room.logout p)

/-- A job of a zone. -/
def Server.runZoneJob (server : Server S) : ZoneJob S → Except Fault (Server S)
  | .movePlayer p => server.inRoom (server.room.movePlayer p)
  | .chat p chat => server.send (server.room.chat p chat)

end Server

/-- The only field of a short payload, `session_id`: absent, or one byte behind its
tag. -/
def shortSessionId : List UInt8 → ℤ
  | [8, n] => n.toNat
  | _ => 0

/-- `ParseFromArray` of short payloads: every other field has its default. -/
def shortParser : Parser where
  login _ := (true, ⟨"", 0, 0⟩)
  move payload := (true,
    { sessionId := shortSessionId payload
      requestResult := false
      timeStamp := 0
      posInfo := ⟨0, 0, 0, 0, 0, 0, 0, 0, 0, 0, 0, 0⟩ })
  logout _ := true
  chat payload := (true, ⟨shortSessionId payload, ""⟩)

end RioIocpServer.PacketHandler
