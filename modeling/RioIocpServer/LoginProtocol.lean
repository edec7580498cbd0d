import RioIocpServer.PlayerLifetime
import RioIocpServer.MissingPlayer

/-!
# The dummy clients and the server

Each client session logs in once, learns its id on the server from the answer, and
from then on sends its position with that id; the server compares the id of every
position with that of the session, and the client the id of every answer with its own.
Both directions between a client and its session on the server are channels: the
packets on the way are lists. One thread sends for a session and one handles what it
receives. `ParseFromArray` on the server stays a parameter; the client reads the
messages sent. The clocks and delays of the client are left out.
-/

namespace RioIocpServer.LoginProtocol

open TransitionSystem Contents PacketHandler PlayerRegistry ServerRun

/-- Serialization of the messages of a client. -/
structure Serializer (parser : Parser) where
  /-- `C2S_LOGIN`. -/
  login : C2SLogin → List UInt8
  /-- `C2S_MOVE`. -/
  move : C2SMove → List UInt8
  /-- A login of a test client fits a packet. -/
  login_fits : ∀ (n : Fin (2 ^ 31)) (playerType loginTime : ℤ),
    (login ⟨"test" ++ toString (n : ℕ), playerType, loginTime⟩).length < 65532
  /-- A position fits a packet. -/
  move_fits : ∀ message, (move message).length < 65532
  /-- The `int32` of a position is read as it was written. -/
  move_sessionId : ∀ message, 0 ≤ message.sessionId → message.sessionId < 2 ^ 31 →
    (parser.move (move message)).2.sessionId = message.sessionId

/-- What the sending thread is about to do. -/
inductive Sending where
  /-- Nothing. -/
  | idle
  /-- `ClientSession::SendLogin`. -/
  | login
  /-- `ClientSession::SendMove`. -/
  | move
  deriving DecidableEq

/-- `ClientSession`. -/
structure Client where
  /-- `IsConnected()`. -/
  connected : Bool
  /-- `m_bConnect`. -/
  connect : Bool
  /-- `m_bStartLogin`. -/
  startLogin : Bool
  /-- `m_bLogin`. -/
  login : Bool
  /-- `m_sessionID`. -/
  sessionId : ℤ
  /-- What `TestSessionManager::SendPacket` has decided to call. -/
  sending : Sending
  /-- `Handle_LOGIN_RESULT` has stored the id and sets `m_bLogin` next. -/
  handling : Bool
  /-- `HandlePacket` has returned false. -/
  refused : Bool

/-- A session before `OnConnected`. -/
def Client.new : Client := ⟨true, false, false, false, 0, .idle, false, false⟩

/-- A message of the server: the `session_id` and the rest. -/
abbrev Reply (S : Type*) := ℤ × Message (PlayerPtr S)

/-- `HandlePacket` of the client, up to the assignment of `m_bLogin`. -/
def Client.handlePacket {S : Type*} (client : Client) : Reply S → Client
  | (sessionId, .loginResult result _) =>
    let stored := { client with sessionId := sessionId }
    if result = true then { stored with handling := true }
    else { stored with refused := true, connected := false }
  | (sessionId, .moveResult) =>
    if sessionId ≠ client.sessionId then { client with refused := true, connected := false }
    else client
  | _ => client

/-- The clients, the server and the packets on the way. -/
structure State (S : Type*) where
  /-- The server. -/
  server : ServerRun.State S
  /-- The clients. -/
  client : S → Client
  /-- `gSessionID`. -/
  gSessionId : ℤ
  /-- Packets sent by a client that have not arrived. -/
  toServer : S → List Frame
  /-- Messages sent to a client that it has not handled. -/
  toClient : S → List (Reply S)

/-- The steps. -/
inductive Action (S : Type*) where
  /-- `ClientSession::OnConnected`. -/
  | onConnected (s : S)
  /-- The tests of `TestSessionManager::SendPacket`. -/
  | sendPacket (s : S)
  /-- `ClientSession::SendLogin`; `n` is `m_loginNum`. -/
  | sendLogin (s : S) (n : Fin (2 ^ 31)) (playerType loginTime : ℤ)
  /-- `ClientSession::SendMove`. -/
  | sendMove (s : S) (posInfo : PosInfo) (timeStamp : ℤ)
  /-- `Disconnect` of a client. -/
  | disconnect (s : S)
  /-- Packets of a client arrive. -/
  | deliver (s : S) (n : ℕ)
  /-- A step of the server other than a receive. -/
  | server (a : ServerRun.Action S)
  /-- A client handles the next message, up to the assignment of `m_bLogin`. -/
  | handlePacket (s : S)
  /-- `Handle_LOGIN_RESULT` sets `m_bLogin`. -/
  | setLogin (s : S)

section System

variable {S : Type*} [DecidableEq S] {parser : Parser}

/-- The `Send*Msg` calls of `Handle_LOGIN`. -/
def loginOut (server : Server S) (parser : Parser) (inputs : Inputs) (s : S)
    (packet : List UInt8) : List (PlayerPtr S × Message (PlayerPtr S)) :=
  let pkt := (parser.login (packet.drop PacketHeader.sizeOf)).2
  let player : PlayerPtr S := (s, server.sessionCnt + 1)
  let new : Player (PlayerPtr S) := newPlayer inputs
  let room := server.room.setPlayer player { new with
    info := { new.info with playerType := pkt.playerType, playerId := pkt.playerId } }
  ((room.login player).map Prod.snd).getD []

/-- The `Send*Msg` calls of a job of a zone. -/
def zoneOut (server : Server S) : ZoneJob S → List (PlayerPtr S × Message (PlayerPtr S))
  | .movePlayer p => ((server.room.movePlayer p).map Prod.snd).getD []
  | .chat p chat => server.room.chat p chat

/-- The `Send*Msg` calls of a step of the server. -/
def out (parser : Parser) (st : ServerRun.State S) :
    ServerRun.Action S → List (PlayerPtr S × Message (PlayerPtr S))
  | .packet s inputs =>
    match st.packets s with
    | [] => []
    | packet :: _ =>
      if (PacketHeader.ofBytes packet.bytes).id = ProtoId.c2sLogin.value then
        loginOut st.server parser inputs s packet.bytes
      else []
  | .runZone zone =>
    match st.server.zoneJobs zone with
    | [] => []
    | job :: _ => zoneOut st.server job
  | _ => []

/-- A `Send*Msg` call that reaches `Send`. -/
def reachesSend (server : Server S) (m : PlayerPtr S × Message (PlayerPtr S)) : Bool :=
  match m.2 with
  | .moveResult => (server.session m.1.1).requestResult && !server.usesNull m
  | _ => !server.usesNull m

/-- What the calls send to a client, each message with the `m_sessionId` of the session. -/
def replies (server : Server S) (calls : List (PlayerPtr S × Message (PlayerPtr S))) (s : S) :
    List (Reply S) :=
  if (server.session s).connected = false then []
  else (calls.filter fun m => m.1.1 = s && reachesSend server m).map fun m =>
    ((server.session s).sessionId, m.2)

/-- The state with one client changed. -/
def State.setClient (st : State S) (s : S) (client : Client) : State S :=
  { st with client := Function.update st.client s client }

/-- `Send` of a client. -/
def State.send (st : State S) (s : S) (frame : Frame) : State S :=
  if (st.client s).connected = false then st
  else { st with toServer := Function.update st.toServer s (st.toServer s ++ [frame]) }

/-- The packet of a login. -/
def loginFrame (ser : Serializer parser) (n : Fin (2 ^ 31)) (playerType loginTime : ℤ) : Frame :=
  .ofMessage (ser.login ⟨"test" ++ toString (n : ℕ), playerType, loginTime⟩)
    ProtoId.c2sLogin.value (ser.login_fits n playerType loginTime)

/-- The packet of a position. -/
def moveFrame (ser : Serializer parser) (sessionId : ℤ) (posInfo : PosInfo) (timeStamp : ℤ) :
    Frame :=
  .ofMessage (ser.move ⟨sessionId, true, timeStamp, posInfo⟩) ProtoId.c2sMove.value
    (ser.move_fits _)

/-- The server performs an action and sends. -/
def State.serve (parser : Parser) (c : SessionClass) (st : State S) (a : ServerRun.Action S) :
    Option (State S) :=
  (ServerRun.step parser c st.server a).map fun server =>
    { st with
      server := server
      toClient := fun s => st.toClient s ++ replies server.server (out parser st.server a) s }

/-- One step. -/
def step (ser : Serializer parser) (c : SessionClass) (st : State S) : Action S → Option (State S)
  | .onConnected s =>
    if (st.client s).connect = true then none
    else some { st.setClient s { st.client s with
        connect := true
        sessionId := toInt (st.gSessionId + 1) } with gSessionId := toInt (st.gSessionId + 1) }
  | .sendPacket s =>
    let client := st.client s
    if client.sending ≠ .idle then none
    else if client.login = true then some (st.setClient s { client with sending := .move })
    else if client.connect = true ∧ client.startLogin = false then
      some (st.setClient s { client with sending := .login })
    else some st
  | .sendLogin s n playerType loginTime =>
    let client := st.client s
    if client.sending = .login then
      some ((st.setClient s { client with startLogin := true, sending := .idle }).send s
        (loginFrame ser n playerType loginTime))
    else none
  | .sendMove s posInfo timeStamp =>
    let client := st.client s
    if client.sending = .move then
      some ((st.setClient s { client with sending := .idle }).send s
        (moveFrame ser client.sessionId posInfo timeStamp))
    else none
  | .disconnect s => some (st.setClient s { st.client s with connected := false })
  | .deliver s n =>
    (ServerRun.step parser c st.server (.receive s ((st.toServer s).take n))).map fun server =>
      { st with
        server := server
        toServer := Function.update st.toServer s ((st.toServer s).drop n) }
  | .server (.receive _ _) => none
  | .server a => st.serve parser c a
  | .handlePacket s =>
    let client := st.client s
    if client.handling = true then none
    else
      match st.toClient s with
      | [] => none
      | message :: rest => some { st.setClient s (client.handlePacket message) with
          toClient := Function.update st.toClient s rest }
  | .setLogin s =>
    let client := st.client s
    if client.handling = true then
      some (st.setClient s { client with login := true, handling := false })
    else none

/-- Clients that are about to connect to a server nobody has logged in to. -/
def init (player : PlayerPtr S → Player (PlayerPtr S)) : State S where
  server := ServerRun.init player
  client _ := .new
  gSessionId := 0
  toServer _ := []
  toClient _ := []

/-- The packet is a `C2S_LOGIN`. -/
def IsLogin (frame : Frame) : Prop :=
  (PacketHeader.ofBytes frame.bytes).id = ProtoId.c2sLogin.value

/-- The packet is a `C2S_MOVE` with this session id. -/
def IsMove (parser : Parser) (sessionId : ℤ) (frame : Frame) : Prop :=
  (PacketHeader.ofBytes frame.bytes).id = ProtoId.c2sMove.value ∧
    (parser.move (frame.bytes.drop PacketHeader.sizeOf)).2.sessionId = sessionId

/-- A message the client does not look into. -/
def Ignored (reply : Reply S) : Prop :=
  match reply.2 with
  | .loginResult _ _ => False
  | .moveResult => False
  | _ => True

/-- A message to a client that has logged in. -/
def Answers (sessionId : ℤ) (reply : Reply S) : Prop :=
  match reply.2 with
  | .loginResult _ _ => False
  | .moveResult => reply.1 = sessionId
  | _ => True

/-- A client that has not sent its login. -/
structure Client.Fresh (client : Client) : Prop where
  /-- It has not logged in, -/
  login : client.login = false
  /-- nor begun to, -/
  startLogin : client.startLogin = false
  /-- nor seen an answer. -/
  handling : client.handling = false
  /-- It sends no position. -/
  sending : client.sending ≠ .move
  /-- It sends its login once it is connected. -/
  connect : client.sending = .login → client.connect = true

/-- A client that has sent its login and not seen an answer. -/
structure Client.Waiting (client : Client) : Prop where
  /-- It has not logged in, -/
  login : client.login = false
  /-- but begun to, -/
  startLogin : client.startLogin = true
  /-- and not seen an answer. -/
  handling : client.handling = false
  /-- It sends nothing. -/
  sending : client.sending = .idle
  /-- It was connected. -/
  connect : client.connect = true

/-- A client that has stored its id and not set `m_bLogin` yet. -/
structure Client.Accepted (client : Client) (sessionId : ℤ) : Prop where
  /-- It has not logged in, -/
  login : client.login = false
  /-- but begun to, -/
  startLogin : client.startLogin = true
  /-- and seen the answer. -/
  handling : client.handling = true
  /-- It sends nothing. -/
  sending : client.sending = .idle
  /-- It was connected. -/
  connect : client.connect = true
  /-- It knows the id of its session. -/
  sessionId_eq : client.sessionId = sessionId

/-- A client that sends positions. -/
structure Client.Playing (client : Client) (sessionId : ℤ) : Prop where
  /-- It has logged in, -/
  login : client.login = true
  /-- which it has begun before. -/
  startLogin : client.startLogin = true
  /-- The answer is behind. -/
  handling : client.handling = false
  /-- It sends no second login. -/
  sending : client.sending ≠ .login
  /-- It was connected. -/
  connect : client.connect = true
  /-- It knows the id of its session. -/
  sessionId_eq : client.sessionId = sessionId

/-- How far a client and its session are: the client, the id and the connection of the
session, the packets and the messages on the way. -/
inductive Stage (parser : Parser) (client : Client) (sessionId : ℤ) (connected : Bool)
    (packets : List Frame) (messages : List (Reply S)) : Prop
  /-- Nothing was sent. -/
  | fresh (hclient : client.Fresh) (hid : sessionId = 0) (hpackets : packets = [])
      (hmessages : ∀ m ∈ messages, Ignored m)
  /-- The login is on its way, or was dropped by the client. -/
  | asked (hclient : client.Waiting) (hid : sessionId = 0)
      (hpackets : packets = [] ∨ ∃ frame, packets = [frame] ∧ IsLogin frame)
      (hmessages : ∀ m ∈ messages, Ignored m)
  /-- The answer is on its way. -/
  | answered (hclient : client.Waiting) (hid : 0 < sessionId) (hpackets : packets = [])
      (before after : List (Reply S)) (playerType : ℤ)
      (hmessages : messages = before ++ (sessionId, .loginResult true playerType) :: after)
      (hbefore : ∀ m ∈ before, Ignored m) (hafter : ∀ m ∈ after, Answers sessionId m)
  /-- The session was disconnected before the answer was sent. -/
  | unanswered (hclient : client.Waiting) (hid : 0 < sessionId) (hclosed : connected = false)
      (hpackets : packets = []) (hmessages : ∀ m ∈ messages, Ignored m)
  /-- The client has seen the answer. -/
  | accepted (hclient : client.Accepted sessionId) (hid : 0 < sessionId)
      (hpackets : packets = []) (hmessages : ∀ m ∈ messages, Answers sessionId m)
  /-- Positions and their results are on the way. -/
  | playing (hclient : client.Playing sessionId) (hid : 0 < sessionId)
      (hpackets : ∀ frame ∈ packets, IsMove parser sessionId frame)
      (hmessages : ∀ m ∈ messages, Answers sessionId m)

section Stages

variable {client : Client} {sessionId : ℤ} {connected : Bool} {packets : List Frame}
  {messages more : List (Reply S)} {message : Reply S}

omit [DecidableEq S] in
/-- A session that is disconnected sends nothing any more. -/
theorem Stage.disconnect (h : Stage parser client sessionId connected packets messages) :
    Stage parser client sessionId false packets messages := by
  cases h with
  | fresh hclient hid hpackets hmessages => exact .fresh hclient hid hpackets hmessages
  | asked hclient hid hpackets hmessages => exact .asked hclient hid hpackets hmessages
  | answered hclient hid hpackets before after playerType hmessages hbefore hafter =>
    exact .answered hclient hid hpackets before after playerType hmessages hbefore hafter
  | unanswered hclient hid hclosed hpackets hmessages =>
    exact .unanswered hclient hid rfl hpackets hmessages
  | accepted hclient hid hpackets hmessages => exact .accepted hclient hid hpackets hmessages
  | playing hclient hid hpackets hmessages => exact .playing hclient hid hpackets hmessages

omit [DecidableEq S] in
/-- Messages a session may send at any time: the results of positions follow a login. -/
theorem Stage.append (h : Stage parser client sessionId connected packets messages)
    (hmore : ∀ m ∈ more, Answers sessionId m) (hfresh : sessionId = 0 → ∀ m ∈ more, Ignored m)
    (hclosed : connected = false → more = []) :
    Stage parser client sessionId connected packets (messages ++ more) := by
  cases h with
  | fresh hclient hid hpackets hmessages =>
    exact .fresh hclient hid hpackets (List.forall_mem_append.mpr ⟨hmessages, hfresh hid⟩)
  | asked hclient hid hpackets hmessages =>
    exact .asked hclient hid hpackets (List.forall_mem_append.mpr ⟨hmessages, hfresh hid⟩)
  | answered hclient hid hpackets before after playerType hmessages hbefore hafter =>
    refine .answered hclient hid hpackets before (after ++ more) playerType ?_ hbefore
      (List.forall_mem_append.mpr ⟨hafter, hmore⟩)
    rw [hmessages, List.append_assoc, List.cons_append]
  | unanswered hclient hid hclosed' hpackets hmessages =>
    rw [hclosed hclosed', List.append_nil]
    exact .unanswered hclient hid hclosed' hpackets hmessages
  | accepted hclient hid hpackets hmessages =>
    exact .accepted hclient hid hpackets (List.forall_mem_append.mpr ⟨hmessages, hmore⟩)
  | playing hclient hid hpackets hmessages =>
    exact .playing hclient hid hpackets (List.forall_mem_append.mpr ⟨hmessages, hmore⟩)

omit [DecidableEq S] in
/-- The next packet handed out at the server is a login of a new session, or a position
with the id of the session. -/
theorem Stage.next {frame : Frame} {rest : List Frame}
    (h : Stage parser client sessionId connected (frame :: rest) messages) :
    (IsLogin frame ∧ sessionId = 0) ∨ (IsMove parser sessionId frame ∧ 0 < sessionId) := by
  cases h with
  | fresh hclient hid hpackets => cases hpackets
  | asked hclient hid hpackets =>
    rcases hpackets with hpackets | ⟨f, hpackets, hf⟩
    · cases hpackets
    · cases hpackets
      exact .inl ⟨hf, hid⟩
  | answered hclient hid hpackets => cases hpackets
  | unanswered hclient hid hclosed hpackets => cases hpackets
  | accepted hclient hid hpackets => cases hpackets
  | playing hclient hid hpackets => exact .inr ⟨hpackets frame List.mem_cons_self, hid⟩

omit [DecidableEq S] in
/-- A position that was handled is behind. -/
theorem Stage.moved {frame : Frame} {rest : List Frame} (hpos : 0 < sessionId)
    (h : Stage parser client sessionId connected (frame :: rest) messages) :
    Stage parser client sessionId connected rest messages := by
  cases h with
  | fresh hclient hid hpackets => cases hpackets
  | asked hclient hid => omega
  | answered hclient hid hpackets => cases hpackets
  | unanswered hclient hid hclosed hpackets => cases hpackets
  | accepted hclient hid hpackets => cases hpackets
  | playing hclient hid hpackets hmessages =>
    exact .playing hclient hid (fun f hf => hpackets f (List.mem_cons_of_mem frame hf)) hmessages

omit [DecidableEq S] in
/-- A login that was handled has been answered, unless the session is disconnected. -/
theorem Stage.loggedIn {frame : Frame} {rest : List Frame} {next : ℤ} (playerType : ℤ)
    (hzero : sessionId = 0) (hnext : 0 < next)
    (h : Stage parser client sessionId connected (frame :: rest) messages) :
    Stage parser client next connected rest
      (messages ++ if connected = false then [] else [(next, .loginResult true playerType)]) := by
  cases h with
  | fresh hclient hid hpackets => cases hpackets
  | asked hclient hid hpackets hmessages =>
    rcases hpackets with hpackets | ⟨f, hpackets, hf⟩
    · cases hpackets
    · cases hpackets
      by_cases hclosed : connected = false
      · rw [if_pos hclosed, List.append_nil]
        exact .unanswered hclient hnext hclosed rfl hmessages
      · rw [if_neg hclosed]
        exact .answered hclient hnext rfl messages [] playerType rfl hmessages
          fun m hm => (List.not_mem_nil hm).elim
  | answered hclient hid => omega
  | unanswered hclient hid => omega
  | accepted hclient hid => omega
  | playing hclient hid => omega

omit [DecidableEq S] in
/-- `OnConnected` comes first. -/
theorem Stage.onConnected {id : ℤ} (hconnect : client.connect = false)
    (h : Stage parser client sessionId connected packets messages) :
    Stage parser { client with connect := true, sessionId := id } sessionId connected packets
      messages := by
  cases h with
  | fresh hclient hid hpackets hmessages =>
    exact .fresh ⟨hclient.login, hclient.startLogin, hclient.handling, hclient.sending,
      fun _ => rfl⟩ hid hpackets hmessages
  | asked hclient => exact absurd hclient.connect (by rw [hconnect]; simp)
  | answered hclient => exact absurd hclient.connect (by rw [hconnect]; simp)
  | unanswered hclient => exact absurd hclient.connect (by rw [hconnect]; simp)
  | accepted hclient => exact absurd hclient.connect (by rw [hconnect]; simp)
  | playing hclient => exact absurd hclient.connect (by rw [hconnect]; simp)

omit [DecidableEq S] in
/-- A client that has logged in sends a position next. -/
theorem Stage.decideMove (hlogin : client.login = true)
    (h : Stage parser client sessionId connected packets messages) :
    Stage parser { client with sending := .move } sessionId connected packets messages := by
  cases h with
  | fresh hclient => exact absurd hclient.login (by rw [hlogin]; simp)
  | asked hclient => exact absurd hclient.login (by rw [hlogin]; simp)
  | answered hclient => exact absurd hclient.login (by rw [hlogin]; simp)
  | unanswered hclient => exact absurd hclient.login (by rw [hlogin]; simp)
  | accepted hclient => exact absurd hclient.login (by rw [hlogin]; simp)
  | playing hclient hid hpackets hmessages =>
    exact .playing ⟨hclient.login, hclient.startLogin, hclient.handling, by simp, hclient.connect,
      hclient.sessionId_eq⟩ hid hpackets hmessages

omit [DecidableEq S] in
/-- A client that has not begun to log in does so next. -/
theorem Stage.decideLogin (hconnect : client.connect = true) (hstart : client.startLogin = false)
    (h : Stage parser client sessionId connected packets messages) :
    Stage parser { client with sending := .login } sessionId connected packets messages := by
  cases h with
  | fresh hclient hid hpackets hmessages =>
    exact .fresh ⟨hclient.login, hclient.startLogin, hclient.handling, by simp, fun _ => hconnect⟩
      hid hpackets hmessages
  | asked hclient => exact absurd hclient.startLogin (by rw [hstart]; simp)
  | answered hclient => exact absurd hclient.startLogin (by rw [hstart]; simp)
  | unanswered hclient => exact absurd hclient.startLogin (by rw [hstart]; simp)
  | accepted hclient => exact absurd hclient.startLogin (by rw [hstart]; simp)
  | playing hclient => exact absurd hclient.startLogin (by rw [hstart]; simp)

omit [DecidableEq S] in
/-- The login is sent once, or dropped. -/
theorem Stage.sendLogin {frame : Frame} {sent : List Frame} (hsending : client.sending = .login)
    (hframe : IsLogin frame) (hsent : sent = [] ∨ sent = [frame])
    (h : Stage parser client sessionId connected packets messages) :
    Stage parser { client with startLogin := true, sending := .idle } sessionId connected
      (packets ++ sent) messages := by
  cases h with
  | fresh hclient hid hpackets hmessages =>
    refine .asked ⟨hclient.login, rfl, hclient.handling, rfl, hclient.connect hsending⟩ hid ?_
      hmessages
    rw [hpackets, List.nil_append]
    exact hsent.imp_right fun hs => ⟨frame, hs, hframe⟩
  | asked hclient => exact absurd hclient.sending (by rw [hsending]; simp)
  | answered hclient => exact absurd hclient.sending (by rw [hsending]; simp)
  | unanswered hclient => exact absurd hclient.sending (by rw [hsending]; simp)
  | accepted hclient => exact absurd hclient.sending (by rw [hsending]; simp)
  | playing hclient => exact (hclient.sending hsending).elim

omit [DecidableEq S] in
/-- A client sends positions with the id of its session. -/
theorem Stage.playing_of_move (hsending : client.sending = .move)
    (h : Stage parser client sessionId connected packets messages) :
    client.Playing sessionId ∧ 0 < sessionId ∧
      (∀ frame ∈ packets, IsMove parser sessionId frame) ∧
      ∀ m ∈ messages, Answers sessionId m := by
  cases h with
  | fresh hclient => exact (hclient.sending hsending).elim
  | asked hclient => exact absurd hclient.sending (by rw [hsending]; simp)
  | answered hclient => exact absurd hclient.sending (by rw [hsending]; simp)
  | unanswered hclient => exact absurd hclient.sending (by rw [hsending]; simp)
  | accepted hclient => exact absurd hclient.sending (by rw [hsending]; simp)
  | playing hclient hid hpackets hmessages => exact ⟨hclient, hid, hpackets, hmessages⟩

omit [DecidableEq S] in
/-- A position is sent, or dropped. -/
theorem Stage.sendMove {frame : Frame} {sent : List Frame} (hsending : client.sending = .move)
    (hframe : IsMove parser sessionId frame) (hsent : sent = [] ∨ sent = [frame])
    (h : Stage parser client sessionId connected packets messages) :
    Stage parser { client with sending := .idle } sessionId connected (packets ++ sent)
      messages := by
  obtain ⟨hclient, hid, hpackets, hmessages⟩ := h.playing_of_move hsending
  refine .playing ⟨hclient.login, hclient.startLogin, hclient.handling, by simp, hclient.connect,
    hclient.sessionId_eq⟩ hid (List.forall_mem_append.mpr ⟨hpackets, ?_⟩) hmessages
  rcases hsent with rfl | rfl
  · exact fun f hf => (List.not_mem_nil hf).elim
  · exact fun f hf => by rwa [List.mem_singleton.mp hf]

omit [DecidableEq S] in
/-- `Send` of a disconnected client drops what it is given. -/
theorem Stage.close (h : Stage parser client sessionId connected packets messages) :
    Stage parser { client with connected := false } sessionId connected packets messages := by
  cases h with
  | fresh hclient hid hpackets hmessages =>
    exact .fresh ⟨hclient.login, hclient.startLogin, hclient.handling, hclient.sending,
      hclient.connect⟩ hid hpackets hmessages
  | asked hclient hid hpackets hmessages =>
    exact .asked ⟨hclient.login, hclient.startLogin, hclient.handling, hclient.sending,
      hclient.connect⟩ hid hpackets hmessages
  | answered hclient hid hpackets before after playerType hmessages hbefore hafter =>
    exact .answered ⟨hclient.login, hclient.startLogin, hclient.handling, hclient.sending,
      hclient.connect⟩ hid hpackets before after playerType hmessages hbefore hafter
  | unanswered hclient hid hclosed hpackets hmessages =>
    exact .unanswered ⟨hclient.login, hclient.startLogin, hclient.handling, hclient.sending,
      hclient.connect⟩ hid hclosed hpackets hmessages
  | accepted hclient hid hpackets hmessages =>
    exact .accepted ⟨hclient.login, hclient.startLogin, hclient.handling, hclient.sending,
      hclient.connect, hclient.sessionId_eq⟩ hid hpackets hmessages
  | playing hclient hid hpackets hmessages =>
    exact .playing ⟨hclient.login, hclient.startLogin, hclient.handling, hclient.sending,
      hclient.connect, hclient.sessionId_eq⟩ hid hpackets hmessages

omit [DecidableEq S] in
/-- A message the client does not look into changes nothing. -/
theorem handlePacket_ignored (h : Ignored message) : client.handlePacket message = client := by
  obtain ⟨id, m⟩ := message
  cases m <;> first | rfl | exact h.elim

omit [DecidableEq S] in
/-- A client that knows its id does not refuse the results of its positions. -/
theorem handlePacket_answers (hid : client.sessionId = sessionId)
    (h : Answers sessionId message) : client.handlePacket message = client := by
  obtain ⟨id, m⟩ := message
  cases m with
  | loginResult result playerType => exact h.elim
  | moveResult => exact if_neg (not_not.mpr (h.trans hid.symm))
  | _ => rfl

omit [DecidableEq S] in
/-- A client never refuses a message. -/
theorem Stage.handlePacket (hhandling : client.handling = false)
    (h : Stage parser client sessionId connected packets (message :: messages)) :
    Stage parser (client.handlePacket message) sessionId connected packets messages ∧
      (client.handlePacket message).refused = client.refused := by
  cases h with
  | fresh hclient hid hpackets hmessages =>
    obtain ⟨hfirst, hrest⟩ := List.forall_mem_cons.mp hmessages
    rw [handlePacket_ignored hfirst]
    exact ⟨.fresh hclient hid hpackets hrest, rfl⟩
  | asked hclient hid hpackets hmessages =>
    obtain ⟨hfirst, hrest⟩ := List.forall_mem_cons.mp hmessages
    rw [handlePacket_ignored hfirst]
    exact ⟨.asked hclient hid hpackets hrest, rfl⟩
  | answered hclient hid hpackets before after playerType hmessages hbefore hafter =>
    cases before with
    | nil =>
      obtain ⟨rfl, rfl⟩ := List.cons.inj hmessages
      exact ⟨.accepted ⟨hclient.login, hclient.startLogin, rfl, hclient.sending, hclient.connect,
        rfl⟩ hid hpackets hafter, rfl⟩
    | cons first before =>
      obtain ⟨rfl, rfl⟩ := List.cons.inj hmessages
      obtain ⟨hfirst, hrest⟩ := List.forall_mem_cons.mp hbefore
      rw [handlePacket_ignored hfirst]
      exact ⟨.answered hclient hid hpackets before after playerType rfl hrest hafter, rfl⟩
  | unanswered hclient hid hclosed hpackets hmessages =>
    obtain ⟨hfirst, hrest⟩ := List.forall_mem_cons.mp hmessages
    rw [handlePacket_ignored hfirst]
    exact ⟨.unanswered hclient hid hclosed hpackets hrest, rfl⟩
  | accepted hclient => exact absurd hclient.handling (by rw [hhandling]; simp)
  | playing hclient hid hpackets hmessages =>
    obtain ⟨hfirst, hrest⟩ := List.forall_mem_cons.mp hmessages
    rw [handlePacket_answers hclient.sessionId_eq hfirst]
    exact ⟨.playing hclient hid hpackets hrest, rfl⟩

omit [DecidableEq S] in
/-- The client goes on with the id it has stored. -/
theorem Stage.setLogin (hhandling : client.handling = true)
    (h : Stage parser client sessionId connected packets messages) :
    Stage parser { client with login := true, handling := false } sessionId connected packets
      messages := by
  cases h with
  | fresh hclient => exact absurd hclient.handling (by rw [hhandling]; simp)
  | asked hclient => exact absurd hclient.handling (by rw [hhandling]; simp)
  | answered hclient => exact absurd hclient.handling (by rw [hhandling]; simp)
  | unanswered hclient => exact absurd hclient.handling (by rw [hhandling]; simp)
  | accepted hclient hid hpackets hmessages =>
    refine .playing ⟨rfl, hclient.startLogin, rfl, ?_, hclient.connect, hclient.sessionId_eq⟩ hid
      (by rw [hpackets]; exact fun f hf => (List.not_mem_nil hf).elim) hmessages
    rw [hclient.sending]
    simp
  | playing hclient => exact absurd hclient.handling (by rw [hhandling]; simp)

omit [DecidableEq S] in
/-- A frame of a client is a login of a new session or a position with its id. -/
theorem Stage.frames (h : Stage parser client sessionId connected packets messages)
    {frame : Frame} (hframe : frame ∈ packets) :
    IsLogin frame ∨ IsMove parser sessionId frame := by
  cases h with
  | fresh hclient hid hpackets =>
    rw [hpackets] at hframe
    exact (List.not_mem_nil hframe).elim
  | asked hclient hid hpackets =>
    rcases hpackets with rfl | ⟨f, rfl, hf⟩
    · exact (List.not_mem_nil hframe).elim
    · rw [List.mem_singleton.mp hframe]
      exact .inl hf
  | answered hclient hid hpackets =>
    rw [hpackets] at hframe
    exact (List.not_mem_nil hframe).elim
  | unanswered hclient hid hclosed hpackets =>
    rw [hpackets] at hframe
    exact (List.not_mem_nil hframe).elim
  | accepted hclient hid hpackets =>
    rw [hpackets] at hframe
    exact (List.not_mem_nil hframe).elim
  | playing hclient hid hpackets => exact .inr (hpackets frame hframe)

omit [DecidableEq S] in
/-- A client that has logged in knows the id of its session. -/
theorem Stage.known (h : Stage parser client sessionId connected packets messages)
    (hlogin : client.login = true) : client.sessionId = sessionId ∧ 0 < sessionId := by
  cases h with
  | fresh hclient => exact absurd hclient.login (by rw [hlogin]; simp)
  | asked hclient => exact absurd hclient.login (by rw [hlogin]; simp)
  | answered hclient => exact absurd hclient.login (by rw [hlogin]; simp)
  | unanswered hclient => exact absurd hclient.login (by rw [hlogin]; simp)
  | accepted hclient => exact absurd hclient.login (by rw [hlogin]; simp)
  | playing hclient hid => exact ⟨hclient.sessionId_eq, hid⟩

end Stages

end System

end RioIocpServer.LoginProtocol
