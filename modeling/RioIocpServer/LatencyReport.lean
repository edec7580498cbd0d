import RioIocpServer.ServerRun

/-!
# Reported latencies

Client and server read a clock of microseconds in 64 bits, but keep most of its readings in
an `int`. A reading travels in a message, is cut to 32 bits, extended again when it is
subtracted from the next reading, and the difference is cut again. What is reported is the
difference of the clocks nevertheless, as long as an `int` holds it. Of the messages and the
session only the times are kept here; the handlers of the server are those of the packet
handlers.
-/

namespace RioIocpServer.LatencyReport

/-- A varint field of a message on its way. A field that has its default is left out. -/
abbrev Field := Option UInt64

/-- `WriteInt32ToArray`: the value is extended to 64 bits. -/
def writeInt32 (x : Int32) : Field := if x ≠ 0 then some x.toInt64.toUInt64 else none

/-- `ReadVarint32`. -/
def readInt32 : Field → Int32
  | some value => value.toUInt32.toInt32
  | none => 0

/-- `WriteInt64ToArray`. -/
def writeInt64 (x : Int64) : Field := if x ≠ 0 then some x.toUInt64 else none

/-- `ReadVarint64`. -/
def readInt64 : Field → Int64
  | some value => value.toInt64
  | none => 0

/-- A clock reading minus an `int`, stored in an `int`. A difference that no 64-bit value
holds has no defined value. -/
def elapsed (now : Int64) (since : Int32) : Option Int32 :=
  let difference := now.toInt - since.toInt
  if -2 ^ 63 ≤ difference ∧ difference < 2 ^ 63 then some (Int64.ofInt difference).toInt32
  else none

/-- What the clocks show is between 0 and 2^62. -/
def MicroClock (now : Int64) : Prop := 0 ≤ now.toInt ∧ now.toInt < 2 ^ 62

/-- A value is the time between two clock readings, if an `int` holds it. -/
def Measures (value : Int32) (start now : Int64) : Prop :=
  -2 ^ 31 ≤ now.toInt - start.toInt → now.toInt - start.toInt < 2 ^ 31 →
    value.toInt = now.toInt - start.toInt

instance (now : Int64) : Decidable (MicroClock now) := inferInstanceAs (Decidable (_ ∧ _))

section Fields

/-- Extended to 64 bits and cut again a value is what it was. -/
theorem setWidth_signExtend (x : BitVec 32) : BitVec.setWidth 32 (BitVec.signExtend 64 x) = x := by
  ext i hi
  rw [BitVec.getElem_setWidth, BitVec.getLsbD_signExtend, BitVec.getLsbD_eq_getElem hi]
  simp only [hi, if_true, Bool.and_eq_right_iff_imp, decide_eq_true_eq]
  omega

/-- An `int32` field arrives as it was set. -/
@[simp] theorem readInt32_writeInt32 (x : Int32) : readInt32 (writeInt32 x) = x := by
  rw [writeInt32]
  split
  · exact Int32.toBitVec.inj (setWidth_signExtend x.toBitVec)
  · rename_i h
    exact (not_not.mp h).symm

/-- An `int64` field arrives as it was set. -/
@[simp] theorem readInt64_writeInt64 (x : Int64) : readInt64 (writeInt64 x) = x := by
  rw [writeInt64]
  split
  · rfl
  · rename_i h
    exact (not_not.mp h).symm

end Fields

section Elapsed

variable {now start : Int64}

/-- Where it is defined, it is the difference cut to 32 bits. -/
theorem elapsed_eq_some {since d : Int32} (h : elapsed now since = some d) :
    d.toInt = (now.toInt - since.toInt).bmod (2 ^ 32) := by
  simp only [elapsed] at h
  split at h
  · rename_i hfits
    cases h
    rw [Int64.toInt_toInt32, Int64.toInt_ofInt_of_le hfits.1 hfits.2]
  · cases h

/-- The difference to a clock reading that was cut to 32 bits is defined, and it is the
difference to the reading itself: the two are congruent modulo 2^32. -/
theorem elapsed_toInt32 (hnow : MicroClock now) (start : Int64) :
    ∃ d, elapsed now start.toInt32 = some d ∧ Measures d start now := by
  have hlo := start.toInt32.le_toInt
  have hhi := start.toInt32.toInt_lt
  obtain ⟨hpos, hlt⟩ := hnow
  have hdefined : elapsed now start.toInt32 =
      some (Int64.ofInt (now.toInt - start.toInt32.toInt)).toInt32 :=
    if_pos ⟨by omega, by omega⟩
  refine ⟨_, hdefined, fun hge hle => ?_⟩
  rw [elapsed_eq_some hdefined, Int64.toInt_toInt32, Int.sub_bmod_bmod]
  exact Int.bmod_eq_of_le (by omega) (by omega)

end Elapsed

/-- The times of `Protocol::C2S_MOVE`. -/
structure C2SMove where
  /-- `time_stamp`, an `int64`. -/
  timeStamp : Field
  /-- `request_result`. -/
  requestResult : Bool

/-- The times of `Protocol::S2C_MOVE_RESULT`, all of them `int64`. -/
structure S2CMoveResult where
  /-- `time_stamp`. -/
  timeStamp : Field
  /-- `process_time`. -/
  processTime : Field
  /-- `send_time`. -/
  sendTime : Field
  /-- `recv_time`. -/
  recvTime : Field

/-- The times of a server session and of its player. -/
structure Session where
  /-- `m_moveTime`. -/
  moveTime : Int32
  /-- `m_loginTime`. -/
  loginTime : Int32
  /-- `m_serverProcessTime`. -/
  serverProcessTime : Int32
  /-- `m_sendTime`. -/
  sendTime : Int32
  /-- `m_bRequestResult`. -/
  requestResult : Bool
  /-- `m_ownPlayer->m_playerInfo.timeStamp`, a `long long int`. -/
  timeStamp : Int64

/-- `ClientSession::SendLogin`: `login_time` is an `int32`. -/
def sendLogin (now : Int64) : Field := writeInt32 now.toInt32

/-- `ClientSession::SendMove`. -/
def sendMove (now : Int64) : C2SMove := ⟨writeInt64 now, true⟩

namespace Session

/-- `Handle_LOGIN`. -/
def handleLogin (session : Session) (loginTime : Field) : Session :=
  { session with loginTime := readInt32 loginTime }

/-- `SendLoginResultMsg`: its `login_time`, an `int32`. -/
def sendLoginResultMsg (session : Session) : Field := writeInt32 session.loginTime

/-- `Handle_C2S_MOVE`. -/
def handleC2SMove (session : Session) (pkt : C2SMove) (now : Int64) : Option Session :=
  let moveTime := (readInt64 pkt.timeStamp).toInt32
  (elapsed now moveTime).map fun sendTime =>
    { session with
      timeStamp := readInt64 pkt.timeStamp
      requestResult := pkt.requestResult
      moveTime := moveTime
      sendTime := sendTime }

/-- `Zone::MovePlayer`, which reads the clock at its start and at its end. -/
def movePlayer (session : Session) (start now : Int64) : Option Session :=
  let started := { session with serverProcessTime := start.toInt32 }
  (elapsed now started.serverProcessTime).map fun processTime =>
    { started with serverProcessTime := processTime }

/-- `SendMoveResultMsg`: the `int` fields of the session are extended to `int64`. -/
def sendMoveResultMsg (session : Session) (now : Int64) : Option S2CMoveResult :=
  if session.requestResult = false then none
  else
    some
      { timeStamp := writeInt64 session.timeStamp
        processTime := writeInt64 session.serverProcessTime.toInt64
        sendTime := writeInt64 session.sendTime.toInt64
        recvTime := writeInt64 now }

end Session

/-- The delays `Handle_SC2_MOVE_RESULT` reports. -/
structure Delays where
  /-- `processingTime`. -/
  processingTime : Int32
  /-- `moveTime`. -/
  moveTime : Int32
  /-- `sendTime`. -/
  sendTime : Int32
  /-- `recvTime`. -/
  recvTime : Int32

/-- `Handle_LOGIN_RESULT`: `loginDelay`. -/
def handleLoginResult (loginTime : Field) (now : Int64) : Option Int32 :=
  let loginTryTime := readInt32 loginTime
  elapsed now loginTryTime

/-- `Handle_SC2_MOVE_RESULT`, which reads the clock twice. -/
def handleMoveResult (pkt : S2CMoveResult) (now now' : Int64) : Option Delays := do
  let moveStartTime := (readInt64 pkt.timeStamp).toInt32
  let processingTime := (readInt64 pkt.processTime).toInt32
  let sendTime := (readInt64 pkt.sendTime).toInt32
  let recvStartTime := (readInt64 pkt.recvTime).toInt32
  let moveTime ← elapsed now moveStartTime
  let recvTime ← elapsed now' recvStartTime
  return ⟨processingTime, moveTime, sendTime, recvTime⟩

/-- The clock readings of a login. -/
structure LoginClocks where
  /-- In `SendLogin`. -/
  sent : Int64
  /-- In `Handle_LOGIN_RESULT`. -/
  received : Int64

/-- The clock readings of a move. -/
structure MoveClocks where
  /-- In `SendMove`. -/
  sent : Int64
  /-- In `Handle_C2S_MOVE`. -/
  received : Int64
  /-- At the start of `Zone::MovePlayer`. -/
  started : Int64
  /-- At its end. -/
  finished : Int64
  /-- In `SendMoveResultMsg`. -/
  answered : Int64
  /-- In `Handle_SC2_MOVE_RESULT`. -/
  arrived : Int64
  arrivedAgain : Int64

/-- All of them are between 0 and 2^62. -/
def LoginClocks.InRange (clocks : LoginClocks) : Prop :=
  MicroClock clocks.sent ∧ MicroClock clocks.received

/-- All of them are between 0 and 2^62. -/
def MoveClocks.InRange (clocks : MoveClocks) : Prop :=
  MicroClock clocks.sent ∧ MicroClock clocks.received ∧ MicroClock clocks.started ∧
    MicroClock clocks.finished ∧ MicroClock clocks.answered ∧ MicroClock clocks.arrived ∧
    MicroClock clocks.arrivedAgain

instance (clocks : LoginClocks) : Decidable clocks.InRange :=
  inferInstanceAs (Decidable (_ ∧ _))

instance (clocks : MoveClocks) : Decidable clocks.InRange := inferInstanceAs (Decidable (_ ∧ _))

/-- A login and its result: the delay reported. -/
def login (session : Session) (clocks : LoginClocks) : Option Int32 :=
  handleLoginResult (session.handleLogin (sendLogin clocks.sent)).sendLoginResultMsg
    clocks.received

/-- A move and its result: the session behind it and the delays reported. -/
def move (session : Session) (clocks : MoveClocks) : Option (Session × Delays) := do
  let handled ← session.handleC2SMove (sendMove clocks.sent) clocks.received
  let moved ← handled.movePlayer clocks.started clocks.finished
  let pkt ← moved.sendMoveResultMsg clocks.answered
  let delays ← handleMoveResult pkt clocks.arrived clocks.arrivedAgain
  return (moved, delays)

/-- What is reported of a move is what the clocks show. -/
structure Reported (clocks : MoveClocks) (session : Session) (delays : Delays) : Prop where
  /-- On the server, -/
  sessionSendTime : Measures session.sendTime clocks.sent clocks.received
  sessionProcessTime : Measures session.serverProcessTime clocks.started clocks.finished
  /-- and on the client. -/
  sendTime : Measures delays.sendTime clocks.sent clocks.received
  processingTime : Measures delays.processingTime clocks.started clocks.finished
  moveTime : Measures delays.moveTime clocks.sent clocks.arrived
  recvTime : Measures delays.recvTime clocks.answered clocks.arrivedAgain

/-- What is reported of a login and a move of a session. -/
structure Survives (session : Session) (loginClocks : LoginClocks) (moveClocks : MoveClocks) :
    Prop where
  /-- The login delay is defined and what the clocks show. -/
  login : ∃ loginDelay, login session loginClocks = some loginDelay ∧
    Measures loginDelay loginClocks.sent loginClocks.received
  /-- So are the times of the move. -/
  move : ∃ session' delays, move session moveClocks = some (session', delays) ∧
    Reported moveClocks session' delays

section Reports

variable {session : Session} {now : Int64}

/-- `SendLogin`, `Handle_LOGIN` and `SendLoginResultMsg` hand the low half of the clock on. -/
theorem readInt32_sendLoginResultMsg (session : Session) (now : Int64) :
    readInt32 (session.handleLogin (sendLogin now)).sendLoginResultMsg = now.toInt32 := by
  rw [Session.sendLoginResultMsg, readInt32_writeInt32]
  exact readInt32_writeInt32 _

/-- The login delay. -/
theorem login_measures {clocks : LoginClocks} (h : clocks.InRange) :
    ∃ loginDelay, login session clocks = some loginDelay ∧
      Measures loginDelay clocks.sent clocks.received := by
  rw [login, handleLoginResult, readInt32_sendLoginResultMsg]
  exact elapsed_toInt32 h.2 clocks.sent

/-- `Handle_C2S_MOVE` of what `SendMove` sends: the time stamp is kept whole, and the time of
sending is measured from its low half. -/
theorem handleC2SMove_measures (session : Session) (sent : Int64) (hnow : MicroClock now) :
    ∃ handled, session.handleC2SMove (sendMove sent) now = some handled ∧
      handled.timeStamp = sent ∧ handled.requestResult = true ∧
      Measures handled.sendTime sent now := by
  obtain ⟨sendTime, helapsed, hmeasures⟩ := elapsed_toInt32 hnow sent
  refine ⟨{ session with
    timeStamp := sent
    requestResult := true
    moveTime := sent.toInt32
    sendTime := sendTime }, ?_, rfl, rfl, hmeasures⟩
  simp only [Session.handleC2SMove, sendMove, readInt64_writeInt64, helapsed, Option.map_some]

/-- `Zone::MovePlayer`: the field that holds the start holds the difference in the end. -/
theorem movePlayer_measures (session : Session) (start : Int64) (hnow : MicroClock now) :
    ∃ moved, session.movePlayer start now = some moved ∧
      moved.timeStamp = session.timeStamp ∧ moved.requestResult = session.requestResult ∧
      moved.sendTime = session.sendTime ∧ Measures moved.serverProcessTime start now := by
  obtain ⟨processTime, helapsed, hmeasures⟩ := elapsed_toInt32 hnow start
  refine ⟨{ session with serverProcessTime := processTime }, ?_, rfl, rfl, rfl, hmeasures⟩
  simp only [Session.movePlayer, helapsed, Option.map_some]

/-- `SendMoveResultMsg` and `Handle_SC2_MOVE_RESULT`: the two times of the server arrive as
they were. -/
theorem moveResult_measures {now' : Int64} (hrequest : session.requestResult = true)
    (answered : Int64) (hnow : MicroClock now) (hnow' : MicroClock now') :
    ∃ pkt delays, session.sendMoveResultMsg answered = some pkt ∧
      handleMoveResult pkt now now' = some delays ∧
      delays.processingTime = session.serverProcessTime ∧ delays.sendTime = session.sendTime ∧
      Measures delays.moveTime session.timeStamp now ∧ Measures delays.recvTime answered now' := by
  obtain ⟨moveTime, hmove, hmoveTime⟩ := elapsed_toInt32 hnow session.timeStamp
  obtain ⟨recvTime, hrecv, hrecvTime⟩ := elapsed_toInt32 hnow' answered
  refine ⟨_, ⟨session.serverProcessTime, moveTime, session.sendTime, recvTime⟩,
    if_neg (by simp [hrequest]), ?_, rfl, rfl, hmoveTime, hrecvTime⟩
  simp [handleMoveResult, hmove, hrecv]

/-- The times of a move. -/
theorem move_reported {clocks : MoveClocks} (h : clocks.InRange) :
    ∃ session' delays, move session clocks = some (session', delays) ∧
      Reported clocks session' delays := by
  obtain ⟨-, hreceived, -, hfinished, -, harrived, hagain⟩ := h
  obtain ⟨handled, hhandled, hstamp, hrequest, hsendTime⟩ :=
    handleC2SMove_measures session clocks.sent hreceived
  obtain ⟨moved, hmoved, hstamp', hrequest', hkept, hprocessTime⟩ :=
    movePlayer_measures handled clocks.started hfinished
  obtain ⟨pkt, delays, hpkt, hdelays, hprocess, hsend, hmoveTime, hrecvTime⟩ :=
    moveResult_measures (hrequest'.trans hrequest) clocks.answered harrived hagain
  rw [hstamp', hstamp] at hmoveTime
  rw [← hkept] at hsendTime
  refine ⟨moved, delays, ?_, hsendTime, hprocessTime, hsend ▸ hsendTime,
    hprocess ▸ hprocessTime, hmoveTime, hrecvTime⟩
  simp only [move, hhandled, hmoved, hpkt, hdelays, Option.bind_eq_bind, Option.bind_some,
    Option.pure_def]

end Reports

section Handlers

open PacketHandler

variable {S : Type*} [DecidableEq S] {server : Server S} {parser : Parser} {inputs : Inputs}
  {s : S} {packet : List UInt8} {handled : Handled S}

/-- A call that has returned, and the rest of the handler. -/
theorem bind_eq_ok.{u, v} {ε : Type u} {α β : Type v} {x : Except ε α} {f : α → Except ε β} {b : β}
    (h : x >>= f = .ok b) : ∃ a, x = .ok a ∧ f a = .ok b := by
  cases x with
  | error e => cases h
  | ok a => exact ⟨a, rfl, h⟩

/-- What is kept of `Handle_LOGIN` here is what the handler does. -/
theorem handleLogin_times {times : Session} {loginTime : Field}
    (hpkt : (parser.login (packet.drop PacketHeader.sizeOf)).2.loginTime =
      (readInt32 loginTime).toInt)
    (h : server.handleLogin parser inputs s packet = .ok handled)
    (hresult : handled.result = true) :
    (handled.server.session s).loginTime = (times.handleLogin loginTime).loginTime.toInt := by
  rw [Server.handleLogin] at h
  split at h
  · cases h
    cases hresult
  · dsimp only at h
    split at h
    · cases h
    · obtain ⟨entered, hentered, hrest⟩ := bind_eq_ok h
      cases hrest
      obtain ⟨room, out, -, rfl⟩ := ServerRun.inRoom_eq_ok hentered
      show (Function.update server.session s _ s).loginTime = _
      rw [Function.update_self]
      exact hpkt

/-- What is kept of `Handle_C2S_MOVE` is what the handler does, to its session and to the
player. -/
theorem handleC2SMove_times {times times' : Session} {pkt : C2SMove} {now : Int64}
    (hstamp : (parser.move (packet.drop PacketHeader.sizeOf)).2.timeStamp =
      (readInt64 pkt.timeStamp).toInt)
    (hrequest : (parser.move (packet.drop PacketHeader.sizeOf)).2.requestResult =
      pkt.requestResult) (hnow : inputs.now = now.toInt)
    (h : server.handleC2SMove parser inputs s packet = .ok handled)
    (hresult : handled.result = true) (htimes : times.handleC2SMove pkt now = some times') :
    (handled.server.session s).moveTime = times'.moveTime.toInt ∧
      (handled.server.session s).sendTime = times'.sendTime.toInt ∧
      (handled.server.session s).requestResult = times'.requestResult ∧
      ∀ p ∈ (server.session s).ownPlayer,
        (handled.server.room.player p).info.timeStamp = times'.timeStamp.toInt := by
  obtain ⟨sendTime, hsend, rfl⟩ := Option.map_eq_some_iff.mp htimes
  rw [Server.handleC2SMove] at h
  split at h
  · cases h
    cases hresult
  · dsimp only at h
    split at h
    · cases h
      cases hresult
    · cases hown : (server.session s).ownPlayer with
      | none =>
        rw [hown] at h
        cases h
      | some p =>
        rw [hown] at h
        cases h
        have hsession : ∀ session, Function.update server.session s session s = session :=
          fun _ => Function.update_self ..
        refine ⟨(congrArg PacketHandler.Session.moveTime (hsession _)).trans ?_,
          (congrArg PacketHandler.Session.sendTime (hsession _)).trans ?_,
          (congrArg PacketHandler.Session.requestResult (hsession _)).trans hrequest, ?_⟩
        · rw [Int64.toInt_toInt32, ← hstamp, toInt]
        · rw [elapsed_eq_some hsend, Int64.toInt_toInt32, ← hstamp, ← hnow]
          rfl
        · rintro q ⟨rfl⟩
          show ((server.room.updatePosition p _ _).player p).info.timeStamp = _
          rw [Contents.Room.updatePosition, Contents.setPlayer_self]
          exact hstamp

end Handlers

/-- For all clock readings between 0 and 2^62, whatever the session has stored before: no
difference overflows, and every time reported by the server or the client is the difference
of the two clock readings, if it is at least -2^31 and less than 2^31. -/
theorem latency_survives (session : Session) {loginClocks : LoginClocks}
    {moveClocks : MoveClocks} (hlogin : loginClocks.InRange) (hmove : moveClocks.InRange) :
    Survives session loginClocks moveClocks :=
  ⟨login_measures hlogin, move_reported hmove⟩

/-- A session that was constructed. -/
def Session.new : Session := ⟨0, 0, 0, 0, false, 0⟩

/-- A login and a move across the first wrap of the 32 bits. -/
theorem latency_survives_wrap : Survives .new ⟨4294967000, 4294968000⟩
    ⟨4294967000, 4294967300, 4294967295, 4294967296, 4294967400, 4294967500, 4294967501⟩ :=
  latency_survives .new (by decide) (by decide)

end RioIocpServer.LatencyReport
