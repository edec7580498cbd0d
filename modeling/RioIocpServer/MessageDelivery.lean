import RioIocpServer.FrameRoundTrip
import RioIocpServer.LoginProtocol
import RioIocpServer.ProtocolMessages

/-!
# From message to message

A message is serialized, put behind its header, sent with others, taken out of the
received bytes by `OnRecv` and parsed. Whatever its type, it arrives as it was if its
strings leave room for the rest of a packet.
-/

namespace RioIocpServer.MessageDelivery

open CyclicMemory WireFormat ProtocolMessages

/-- A message of some type. -/
abbrev AnyMessage := (t : MessageType) × t.Message

/-- The payload of a message. -/
def payload (skipper : Skipper) (message : AnyMessage) : List UInt8 :=
  (message.1.schema skipper).serialize message.2

/-- The packet carries the message behind its id. -/
structure Holds (skipper : Skipper) (packet : List UInt8) (message : UInt16 × AnyMessage) :
    Prop where
  /-- The id. -/
  id_eq : (PacketHeader.ofBytes packet).id = message.1
  /-- The message. -/
  parse_eq : (message.2.1.schema skipper).parse skipper (packet.drop PacketHeader.sizeOf) =
    some message.2.2

section Clients

variable (ofBits : BitVec 32 → ℚ) (toBits : ℚ → BitVec 32) (skipper : Skipper)

/-- `ParseFromArray` of the messages of a client; one that fails leaves the defaults. -/
def wireParser : PacketHandler.Parser where
  login bytes :=
    match C2SLogin.schema.parse skipper bytes with
    | some m => (true, ⟨m.playerId, m.playerType.toInt, m.loginTime.toInt⟩)
    | none => (false, ⟨"", 0, 0⟩)
  move bytes :=
    match (C2SMove.schema skipper).parse skipper bytes with
    | some m =>
      let pos := m.posInfo.getD PlayerPosInfo.schema.empty
      (true, ⟨m.sessionId.toInt, m.requestResult, m.timeStamp.toInt,
        ⟨ofBits pos.x, ofBits pos.y, ofBits pos.z, ofBits pos.yaw, ofBits pos.pitch,
          ofBits pos.roll, ofBits pos.vx, ofBits pos.vy, ofBits pos.vz, ofBits pos.ax,
          ofBits pos.ay, ofBits pos.az⟩⟩)
    | none => (false, ⟨0, false, 0, ⟨0, 0, 0, 0, 0, 0, 0, 0, 0, 0, 0, 0⟩⟩)
  logout bytes := (C2SLogout.schema.parse skipper bytes).isSome
  chat bytes :=
    match C2SChat.schema.parse skipper bytes with
    | some m => (true, ⟨m.sessionId.toInt, m.chat⟩)
    | none => (false, ⟨0, ""⟩)

/-- The message of a login. -/
def loginMessage (message : PacketHandler.C2SLogin) : C2SLogin :=
  ⟨message.playerId, "qwer1234", BitVec.ofInt 32 message.playerType,
    BitVec.ofInt 32 message.loginTime⟩

/-- The message of a position. -/
def moveMessage (message : PacketHandler.C2SMove) : C2SMove :=
  let pos := message.posInfo
  ⟨BitVec.ofInt 32 message.sessionId,
    some ⟨toBits pos.x, toBits pos.y, toBits pos.z, toBits pos.yaw, toBits pos.pitch,
      toBits pos.roll, toBits pos.vx, toBits pos.vy, toBits pos.vz, toBits pos.ax, toBits pos.ay,
      toBits pos.az⟩,
    BitVec.ofInt 64 message.timeStamp, message.requestResult⟩

omit ofBits toBits skipper in
/-- The digits of a number take few bytes. -/
theorem utf8ByteSize_repr {k n : ℕ} (h : n < 10 ^ (k + 1)) :
    n.repr.utf8ByteSize ≤ 4 * (k + 1) := by
  induction k generalizing n with
  | zero =>
    rw [Nat.repr_of_lt (by omega), String.utf8ByteSize_singleton]
    exact Char.utf8Size_le_four _
  | succ k ih =>
    by_cases hten : 10 ≤ n
    · have hfirst := ih ((Nat.div_lt_iff_lt_mul (by decide)).mpr (by rwa [← pow_succ]) :
        n / 10 < 10 ^ (k + 1))
      have hlast := Char.utf8Size_le_four (Nat.digitChar (n % 10))
      rw [Nat.repr_of_ge hten, String.utf8ByteSize_append, String.utf8ByteSize_singleton]
      omega
    · have hone := Char.utf8Size_le_four (Nat.digitChar n)
      rw [Nat.repr_of_lt (by omega), String.utf8ByteSize_singleton]
      omega

omit ofBits toBits skipper in
/-- The name of a test client is short. -/
theorem stringBytes_loginMessage (n : Fin (2 ^ 31)) (playerType loginTime : ℤ) :
    MessageType.c2sLogin.stringBytes (loginMessage ⟨"test" ++ toString (n : ℕ), playerType,
      loginTime⟩) ≤ 52 := by
  have hdigits : (toString (n : ℕ)).utf8ByteSize ≤ 4 * (9 + 1) :=
    utf8ByteSize_repr (n.isLt.trans (by decide))
  show ("test" ++ toString (n : ℕ)).utf8ByteSize + "qwer1234".utf8ByteSize ≤ 52
  rw [String.utf8ByteSize_append, show "test".utf8ByteSize = 4 from rfl,
    show "qwer1234".utf8ByteSize = 8 from rfl]
  omega

/-- `SerializeToArray` of the messages of a client. -/
def wireSerializer : LoginProtocol.Serializer (wireParser ofBits skipper) where
  login message := C2SLogin.schema.serialize (loginMessage message)
  move message := (C2SMove.schema skipper).serialize (moveMessage toBits message)
  login_fits n playerType loginTime :=
    (@length_serialize skipper .c2sLogin _).trans_lt
      (lt_of_le_of_lt (Nat.add_le_add_left (stringBytes_loginMessage n playerType loginTime) 120)
        (by decide))
  move_fits message :=
    lt_of_le_of_lt (length_serialize .c2sMove _) (show 120 + 0 < 65532 by decide)
  move_sessionId message hnonneg hlt := by
    have hfits : ((C2SMove.schema skipper).serialize (moveMessage toBits message)).length <
        lengthLimit :=
      lt_of_le_of_lt (length_serialize .c2sMove _) (show 120 + 0 < lengthLimit by decide)
    have hid : (BitVec.ofInt 32 message.sessionId).toInt = message.sessionId := by
      rw [BitVec.toInt_ofInt]
      exact Int.bmod_eq_of_le (by omega) (by omega)
    simp only [wireParser, Schema.parse_serialize hfits]
    exact hid

end Clients

end RioIocpServer.MessageDelivery
