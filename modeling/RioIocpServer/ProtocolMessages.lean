import RioIocpServer.WireFormat

/-!
# The messages of the protocol

The messages of `Protocol.pb.cc` as schemas: every `_InternalSerialize` writes the
fields of its message in order, `_InternalParse` is the loop over the tags, and
`ByteSizeLong` adds up the same fields. Fields that a message does not have are not
kept. What `UnknownFieldParse` makes of them is a parameter.

The codecs are those of the vendored headers. `int32`, `int64` and `bool` are written by
`WriteInt32ToArray`, `WriteInt64ToArray` and `WriteBoolToArray` of `wire_format_lite.h`,
measured by `Int32SizePlusOne` and `Int64SizePlusOne` (a `bool` as two bytes) and read by
`ReadVarint64` of `parse_context.h`. `float` is written by `WriteFloatToArray` and read by
`UnalignedLoad`. `string` is written by `WriteStringMaybeAliased` of `io/coded_stream.h`,
measured by `StringSize` and read by `InlineGreedyStringParser` and `VerifyUTF8`. A position
is written by `InternalWriteMessage`, measured by `MessageSize` and read by `ParseMessage`.
Tags are read by `ReadTag` and lengths by `ReadSize` of `parse_context.h`.
-/

namespace RioIocpServer.ProtocolMessages

open WireFormat

/-- `PLAYER_POS_INFO`; a `float` is its bits. -/
structure PlayerPosInfo where
  x : BitVec 32
  y : BitVec 32
  z : BitVec 32
  yaw : BitVec 32
  pitch : BitVec 32
  roll : BitVec 32
  vx : BitVec 32
  vy : BitVec 32
  vz : BitVec 32
  ax : BitVec 32
  ay : BitVec 32
  az : BitVec 32
  deriving DecidableEq

/-- `C2S_LOGIN`. -/
structure C2SLogin where
  playerId : String
  playerPw : String
  playerType : BitVec 32
  loginTime : BitVec 32
  deriving DecidableEq

/-- `S2C_LOGIN_RESULT`. -/
structure S2CLoginResult where
  sessionId : BitVec 32
  result : Bool
  playerType : BitVec 32
  playerStrId : String
  timeStamp : BitVec 64
  loginTime : BitVec 32
  posInfo : Option PlayerPosInfo
  deriving DecidableEq

/-- `C2S_LOGOUT`. -/
structure C2SLogout where
  sessionId : BitVec 32
  deriving DecidableEq

/-- `S2C_LOGOUT_RESULT`. -/
structure S2CLogoutResult where
  sessionId : BitVec 32
  result : Bool
  deriving DecidableEq

/-- `C2S_LOGIN_ADMIN`. -/
structure C2SLoginAdmin where
  adminId : String
  adminPw : String
  deriving DecidableEq

/-- `S2C_LOGIN_ADMIN_RESULT`. -/
structure S2CLoginAdminResult where
  sessionId : BitVec 32
  result : Bool
  deriving DecidableEq

/-- `C2S_MOVE`. -/
structure C2SMove where
  sessionId : BitVec 32
  posInfo : Option PlayerPosInfo
  timeStamp : BitVec 64
  requestResult : Bool
  deriving DecidableEq

/-- `S2C_MOVE_RESULT`. -/
structure S2CMoveResult where
  sessionId : BitVec 32
  timeStamp : BitVec 64
  processTime : BitVec 64
  sendTime : BitVec 64
  recvTime : BitVec 64
  deriving DecidableEq

/-- `S2C_MOVE`. -/
structure S2CMove where
  sessionId : BitVec 32
  targetId : BitVec 32
  timeStamp : BitVec 64
  posInfo : Option PlayerPosInfo
  deriving DecidableEq

/-- `S2C_ENTER`. -/
structure S2CEnter where
  sessionId : BitVec 32
  targetId : BitVec 32
  targetStrId : String
  playerType : BitVec 32
  timeStamp : BitVec 64
  posInfo : Option PlayerPosInfo
  deriving DecidableEq

/-- `S2C_LEAVE`. -/
structure S2CLeave where
  sessionId : BitVec 32
  targetId : BitVec 32
  deriving DecidableEq

/-- `C2S_CHAT`. -/
structure C2SChat where
  sessionId : BitVec 32
  chat : String
  deriving DecidableEq

/-- `S2C_CHAT`. -/
structure S2CChat where
  sessionId : BitVec 32
  targetId : BitVec 32
  targetStrId : String
  chat : String
  deriving DecidableEq

/-- `PLAYER_POS_INFO`. -/
def PlayerPosInfo.schema : Schema PlayerPosInfo where
  fields := [
    ⟨_, 1, by decide, float, PlayerPosInfo.x, fun m v => { m with x := v }⟩,
    ⟨_, 2, by decide, float, PlayerPosInfo.y, fun m v => { m with y := v }⟩,
    ⟨_, 3, by decide, float, PlayerPosInfo.z, fun m v => { m with z := v }⟩,
    ⟨_, 4, by decide, float, PlayerPosInfo.yaw, fun m v => { m with yaw := v }⟩,
    ⟨_, 5, by decide, float, PlayerPosInfo.pitch, fun m v => { m with pitch := v }⟩,
    ⟨_, 6, by decide, float, PlayerPosInfo.roll, fun m v => { m with roll := v }⟩,
    ⟨_, 7, by decide, float, PlayerPosInfo.vx, fun m v => { m with vx := v }⟩,
    ⟨_, 8, by decide, float, PlayerPosInfo.vy, fun m v => { m with vy := v }⟩,
    ⟨_, 9, by decide, float, PlayerPosInfo.vz, fun m v => { m with vz := v }⟩,
    ⟨_, 10, by decide, float, PlayerPosInfo.ax, fun m v => { m with ax := v }⟩,
    ⟨_, 11, by decide, float, PlayerPosInfo.ay, fun m v => { m with ay := v }⟩,
    ⟨_, 12, by decide, float, PlayerPosInfo.az, fun m v => { m with az := v }⟩]
  empty := ⟨0, 0, 0, 0, 0, 0, 0, 0, 0, 0, 0, 0⟩

/-- `C2S_LOGIN`. -/
def C2SLogin.schema : Schema C2SLogin where
  fields := [
    ⟨_, 1, by decide, string, C2SLogin.playerId, fun m v => { m with playerId := v }⟩,
    ⟨_, 2, by decide, string, C2SLogin.playerPw, fun m v => { m with playerPw := v }⟩,
    ⟨_, 3, by decide, int32, C2SLogin.playerType, fun m v => { m with playerType := v }⟩,
    ⟨_, 4, by decide, int32, C2SLogin.loginTime, fun m v => { m with loginTime := v }⟩]
  empty := ⟨"", "", 0, 0⟩

/-- `C2S_LOGOUT`. -/
def C2SLogout.schema : Schema C2SLogout where
  fields := [
    ⟨_, 1, by decide, int32, C2SLogout.sessionId, fun m v => { m with sessionId := v }⟩]
  empty := ⟨0⟩

/-- `S2C_LOGOUT_RESULT`. -/
def S2CLogoutResult.schema : Schema S2CLogoutResult where
  fields := [
    ⟨_, 1, by decide, int32, S2CLogoutResult.sessionId, fun m v => { m with sessionId := v }⟩,
    ⟨_, 2, by decide, bool, S2CLogoutResult.result, fun m v => { m with result := v }⟩]
  empty := ⟨0, false⟩

/-- `C2S_LOGIN_ADMIN`. -/
def C2SLoginAdmin.schema : Schema C2SLoginAdmin where
  fields := [
    ⟨_, 1, by decide, string, C2SLoginAdmin.adminId, fun m v => { m with adminId := v }⟩,
    ⟨_, 2, by decide, string, C2SLoginAdmin.adminPw, fun m v => { m with adminPw := v }⟩]
  empty := ⟨"", ""⟩

/-- `S2C_LOGIN_ADMIN_RESULT`. -/
def S2CLoginAdminResult.schema : Schema S2CLoginAdminResult where
  fields := [
    ⟨_, 1, by decide, int32, S2CLoginAdminResult.sessionId, fun m v => { m with sessionId := v }⟩,
    ⟨_, 2, by decide, bool, S2CLoginAdminResult.result, fun m v => { m with result := v }⟩]
  empty := ⟨0, false⟩

/-- `S2C_MOVE_RESULT`. -/
def S2CMoveResult.schema : Schema S2CMoveResult where
  fields := [
    ⟨_, 1, by decide, int32, S2CMoveResult.sessionId, fun m v => { m with sessionId := v }⟩,
    ⟨_, 2, by decide, int64, S2CMoveResult.timeStamp, fun m v => { m with timeStamp := v }⟩,
    ⟨_, 3, by decide, int64, S2CMoveResult.processTime, fun m v => { m with processTime := v }⟩,
    ⟨_, 4, by decide, int64, S2CMoveResult.sendTime, fun m v => { m with sendTime := v }⟩,
    ⟨_, 5, by decide, int64, S2CMoveResult.recvTime, fun m v => { m with recvTime := v }⟩]
  empty := ⟨0, 0, 0, 0, 0⟩

/-- `S2C_LEAVE`. -/
def S2CLeave.schema : Schema S2CLeave where
  fields := [
    ⟨_, 1, by decide, int32, S2CLeave.sessionId, fun m v => { m with sessionId := v }⟩,
    ⟨_, 2, by decide, int32, S2CLeave.targetId, fun m v => { m with targetId := v }⟩]
  empty := ⟨0, 0⟩

/-- `C2S_CHAT`. -/
def C2SChat.schema : Schema C2SChat where
  fields := [
    ⟨_, 1, by decide, int32, C2SChat.sessionId, fun m v => { m with sessionId := v }⟩,
    ⟨_, 2, by decide, string, C2SChat.chat, fun m v => { m with chat := v }⟩]
  empty := ⟨0, ""⟩

/-- `S2C_CHAT`. -/
def S2CChat.schema : Schema S2CChat where
  fields := [
    ⟨_, 1, by decide, int32, S2CChat.sessionId, fun m v => { m with sessionId := v }⟩,
    ⟨_, 2, by decide, int32, S2CChat.targetId, fun m v => { m with targetId := v }⟩,
    ⟨_, 3, by decide, string, S2CChat.targetStrId, fun m v => { m with targetStrId := v }⟩,
    ⟨_, 4, by decide, string, S2CChat.chat, fun m v => { m with chat := v }⟩]
  empty := ⟨0, 0, "", ""⟩

section WithPosition

variable (skipper : Skipper)

/-- `S2C_LOGIN_RESULT`. -/
def S2CLoginResult.schema : Schema S2CLoginResult where
  fields := [
    ⟨_, 1, by decide, int32, S2CLoginResult.sessionId, fun m v => { m with sessionId := v }⟩,
    ⟨_, 2, by decide, bool, S2CLoginResult.result, fun m v => { m with result := v }⟩,
    ⟨_, 3, by decide, int32, S2CLoginResult.playerType, fun m v => { m with playerType := v }⟩,
    ⟨_, 4, by decide, string, S2CLoginResult.playerStrId, fun m v => { m with playerStrId := v }⟩,
    ⟨_, 5, by decide, int64, S2CLoginResult.timeStamp, fun m v => { m with timeStamp := v }⟩,
    ⟨_, 6, by decide, int32, S2CLoginResult.loginTime, fun m v => { m with loginTime := v }⟩,
    ⟨_, 7, by decide, PlayerPosInfo.schema.codec skipper, S2CLoginResult.posInfo,
      fun m v => { m with posInfo := v }⟩]
  empty := ⟨0, false, 0, "", 0, 0, none⟩

/-- `C2S_MOVE`. -/
def C2SMove.schema : Schema C2SMove where
  fields := [
    ⟨_, 1, by decide, int32, C2SMove.sessionId, fun m v => { m with sessionId := v }⟩,
    ⟨_, 2, by decide, PlayerPosInfo.schema.codec skipper, C2SMove.posInfo,
      fun m v => { m with posInfo := v }⟩,
    ⟨_, 3, by decide, int64, C2SMove.timeStamp, fun m v => { m with timeStamp := v }⟩,
    ⟨_, 4, by decide, bool, C2SMove.requestResult, fun m v => { m with requestResult := v }⟩]
  empty := ⟨0, none, 0, false⟩

/-- `S2C_MOVE`. -/
def S2CMove.schema : Schema S2CMove where
  fields := [
    ⟨_, 1, by decide, int32, S2CMove.sessionId, fun m v => { m with sessionId := v }⟩,
    ⟨_, 2, by decide, int32, S2CMove.targetId, fun m v => { m with targetId := v }⟩,
    ⟨_, 3, by decide, int64, S2CMove.timeStamp, fun m v => { m with timeStamp := v }⟩,
    ⟨_, 4, by decide, PlayerPosInfo.schema.codec skipper, S2CMove.posInfo,
      fun m v => { m with posInfo := v }⟩]
  empty := ⟨0, 0, 0, none⟩

/-- `S2C_ENTER`. -/
def S2CEnter.schema : Schema S2CEnter where
  fields := [
    ⟨_, 1, by decide, int32, S2CEnter.sessionId, fun m v => { m with sessionId := v }⟩,
    ⟨_, 2, by decide, int32, S2CEnter.targetId, fun m v => { m with targetId := v }⟩,
    ⟨_, 3, by decide, string, S2CEnter.targetStrId, fun m v => { m with targetStrId := v }⟩,
    ⟨_, 4, by decide, int32, S2CEnter.playerType, fun m v => { m with playerType := v }⟩,
    ⟨_, 5, by decide, int64, S2CEnter.timeStamp, fun m v => { m with timeStamp := v }⟩,
    ⟨_, 6, by decide, PlayerPosInfo.schema.codec skipper, S2CEnter.posInfo,
      fun m v => { m with posInfo := v }⟩]
  empty := ⟨0, 0, "", 0, 0, none⟩

end WithPosition

/-- The messages. -/
inductive MessageType where
  | playerPosInfo
  | c2sLogin
  | s2cLoginResult
  | c2sLogout
  | s2cLogoutResult
  | c2sLoginAdmin
  | s2cLoginAdminResult
  | c2sMove
  | s2cMoveResult
  | s2cMove
  | s2cEnter
  | s2cLeave
  | c2sChat
  | s2cChat

namespace MessageType

/-- The messages of a type. -/
def Message : MessageType → Type
  | playerPosInfo => PlayerPosInfo
  | c2sLogin => C2SLogin
  | s2cLoginResult => S2CLoginResult
  | c2sLogout => C2SLogout
  | s2cLogoutResult => S2CLogoutResult
  | c2sLoginAdmin => C2SLoginAdmin
  | s2cLoginAdminResult => S2CLoginAdminResult
  | c2sMove => C2SMove
  | s2cMoveResult => S2CMoveResult
  | s2cMove => S2CMove
  | s2cEnter => S2CEnter
  | s2cLeave => S2CLeave
  | c2sChat => C2SChat
  | s2cChat => S2CChat

/-- Their fields. -/
def schema (skipper : Skipper) : (t : MessageType) → Schema t.Message
  | playerPosInfo => PlayerPosInfo.schema
  | c2sLogin => C2SLogin.schema
  | s2cLoginResult => S2CLoginResult.schema skipper
  | c2sLogout => C2SLogout.schema
  | s2cLogoutResult => S2CLogoutResult.schema
  | c2sLoginAdmin => C2SLoginAdmin.schema
  | s2cLoginAdminResult => S2CLoginAdminResult.schema
  | c2sMove => C2SMove.schema skipper
  | s2cMoveResult => S2CMoveResult.schema
  | s2cMove => S2CMove.schema skipper
  | s2cEnter => S2CEnter.schema skipper
  | s2cLeave => S2CLeave.schema
  | c2sChat => C2SChat.schema
  | s2cChat => S2CChat.schema

/-- The bytes of their strings. -/
def stringBytes : (t : MessageType) → t.Message → ℕ
  | playerPosInfo, _ => 0
  | c2sLogin, m => (C2SLogin.playerId m).utf8ByteSize + (C2SLogin.playerPw m).utf8ByteSize
  | s2cLoginResult, m => (S2CLoginResult.playerStrId m).utf8ByteSize
  | c2sLogout, _ => 0
  | s2cLogoutResult, _ => 0
  | c2sLoginAdmin, m =>
    (C2SLoginAdmin.adminId m).utf8ByteSize + (C2SLoginAdmin.adminPw m).utf8ByteSize
  | s2cLoginAdminResult, _ => 0
  | c2sMove, _ => 0
  | s2cMoveResult, _ => 0
  | s2cMove, _ => 0
  | s2cEnter, m => (S2CEnter.targetStrId m).utf8ByteSize
  | s2cLeave, _ => 0
  | c2sChat, m => (C2SChat.chat m).utf8ByteSize
  | s2cChat, m => (S2CChat.targetStrId m).utf8ByteSize + (S2CChat.chat m).utf8ByteSize

end MessageType

section Sizes

variable {skipper : Skipper}

/-- An `int32` with its tag. -/
theorem length_int32 (v : BitVec 32) : (int32.write v).length + 1 ≤ 11 :=
  Nat.succ_le_succ (length_writeVarint_le 9 _)

/-- An `int64` with its tag. -/
theorem length_int64 (v : BitVec 64) : (int64.write v).length + 1 ≤ 11 :=
  Nat.succ_le_succ (length_writeVarint_le 9 _)

/-- A `bool` with its tag. -/
theorem length_bool (v : Bool) : (WireFormat.bool.write v).length + 1 ≤ 2 := le_rfl

/-- A `string` with its tag. -/
theorem length_string (v : String) : (string.write v).length + 1 ≤ v.utf8ByteSize + 6 := by
  have hbytes : v.toUTF8.data.toList.length = v.utf8ByteSize := by
    rw [Array.length_toList]
    rfl
  have hlength := length_writeVarint_le 4 v.toUTF8.data.toList.length
  show (writeDelimited v.toUTF8.data.toList).length + 1 ≤ _
  rw [writeDelimited, List.length_append]
  omega

/-- A position. -/
theorem length_playerPosInfo (m : PlayerPosInfo) :
    (PlayerPosInfo.schema.serialize m).length ≤ 60 := by
  have hfields : ∀ f ∈ PlayerPosInfo.schema.fields, (f.codec.write (f.get m)).length + 1 ≤ 5 := by
    simp only [PlayerPosInfo.schema, List.forall_mem_cons]
    exact ⟨le_rfl, le_rfl, le_rfl, le_rfl, le_rfl, le_rfl, le_rfl, le_rfl, le_rfl, le_rfl, le_rfl,
      le_rfl, fun _ h => (List.not_mem_nil h).elim⟩
  have hall : List.Forall₂ (fun f n => (f.codec.write (f.get m)).length + 1 ≤ n)
      PlayerPosInfo.schema.fields (List.replicate 12 5) :=
    List.forall₂_iff_get.mpr ⟨rfl, fun i hi hj => by
      rw [List.get_eq_getElem, List.get_eq_getElem, List.getElem_replicate]
      exact hfields _ (List.getElem_mem _)⟩
  exact Schema.length_serialize_le hall

/-- A position in a message. -/
theorem length_posInfo (v : Option PlayerPosInfo) :
    ((PlayerPosInfo.schema.codec skipper).write v).length + 1 ≤ 66 := by
  cases v with
  | none => exact Nat.succ_le_succ (Nat.zero_le _)
  | some m =>
    have hposition := length_playerPosInfo m
    have hlength := length_writeVarint_le 4 (PlayerPosInfo.schema.serialize m).length
    show (writeDelimited (PlayerPosInfo.schema.serialize m)).length + 1 ≤ 66
    rw [writeDelimited, List.length_append]
    omega

/-- No message is longer than 120 bytes and its strings. -/
theorem length_serialize (t : MessageType) (m : t.Message) :
    ((t.schema skipper).serialize m).length ≤ 120 + t.stringBytes m := by
  cases t with
  | playerPosInfo => exact (length_playerPosInfo m).trans (Nat.le_add_left 60 60)
  | c2sLogin =>
    have h := Schema.length_serialize_le (S := C2SLogin.schema) (m := m) (
      .cons (length_string _) <| .cons (length_string _) <| .cons (length_int32 _) <|
      .cons (length_int32 _) .nil)
    refine h.trans ?_
    simp only [MessageType.stringBytes, List.sum_cons, List.sum_nil]
    omega
  | s2cLoginResult =>
    have h := Schema.length_serialize_le (S := S2CLoginResult.schema skipper) (m := m) (
      .cons (length_int32 _) <| .cons (length_bool _) <| .cons (length_int32 _) <|
      .cons (length_string _) <| .cons (length_int64 _) <| .cons (length_int32 _) <|
      .cons (length_posInfo _) .nil)
    refine h.trans ?_
    simp only [MessageType.stringBytes, List.sum_cons, List.sum_nil]
    omega
  | c2sLogout =>
    have h := Schema.length_serialize_le (S := C2SLogout.schema) (m := m) (
      .cons (length_int32 _) .nil)
    refine h.trans ?_
    simp only [MessageType.stringBytes, List.sum_cons, List.sum_nil]
    omega
  | s2cLogoutResult =>
    have h := Schema.length_serialize_le (S := S2CLogoutResult.schema) (m := m) (
      .cons (length_int32 _) <| .cons (length_bool _) .nil)
    refine h.trans ?_
    simp only [MessageType.stringBytes, List.sum_cons, List.sum_nil]
    omega
  | c2sLoginAdmin =>
    have h := Schema.length_serialize_le (S := C2SLoginAdmin.schema) (m := m) (
      .cons (length_string _) <| .cons (length_string _) .nil)
    refine h.trans ?_
    simp only [MessageType.stringBytes, List.sum_cons, List.sum_nil]
    omega
  | s2cLoginAdminResult =>
    have h := Schema.length_serialize_le (S := S2CLoginAdminResult.schema) (m := m) (
      .cons (length_int32 _) <| .cons (length_bool _) .nil)
    refine h.trans ?_
    simp only [MessageType.stringBytes, List.sum_cons, List.sum_nil]
    omega
  | c2sMove =>
    have h := Schema.length_serialize_le (S := C2SMove.schema skipper) (m := m) (
      .cons (length_int32 _) <| .cons (length_posInfo _) <| .cons (length_int64 _) <|
      .cons (length_bool _) .nil)
    refine h.trans ?_
    simp only [MessageType.stringBytes, List.sum_cons, List.sum_nil]
    omega
  | s2cMoveResult =>
    have h := Schema.length_serialize_le (S := S2CMoveResult.schema) (m := m) (
      .cons (length_int32 _) <| .cons (length_int64 _) <| .cons (length_int64 _) <|
      .cons (length_int64 _) <| .cons (length_int64 _) .nil)
    refine h.trans ?_
    simp only [MessageType.stringBytes, List.sum_cons, List.sum_nil]
    omega
  | s2cMove =>
    have h := Schema.length_serialize_le (S := S2CMove.schema skipper) (m := m) (
      .cons (length_int32 _) <| .cons (length_int32 _) <| .cons (length_int64 _) <|
      .cons (length_posInfo _) .nil)
    refine h.trans ?_
    simp only [MessageType.stringBytes, List.sum_cons, List.sum_nil]
    omega
  | s2cEnter =>
    have h := Schema.length_serialize_le (S := S2CEnter.schema skipper) (m := m) (
      .cons (length_int32 _) <| .cons (length_int32 _) <| .cons (length_string _) <|
      .cons (length_int32 _) <| .cons (length_int64 _) <| .cons (length_posInfo _) .nil)
    refine h.trans ?_
    simp only [MessageType.stringBytes, List.sum_cons, List.sum_nil]
    omega
  | s2cLeave =>
    have h := Schema.length_serialize_le (S := S2CLeave.schema) (m := m) (
      .cons (length_int32 _) <| .cons (length_int32 _) .nil)
    refine h.trans ?_
    simp only [MessageType.stringBytes, List.sum_cons, List.sum_nil]
    omega
  | c2sChat =>
    have h := Schema.length_serialize_le (S := C2SChat.schema) (m := m) (
      .cons (length_int32 _) <| .cons (length_string _) .nil)
    refine h.trans ?_
    simp only [MessageType.stringBytes, List.sum_cons, List.sum_nil]
    omega
  | s2cChat =>
    have h := Schema.length_serialize_le (S := S2CChat.schema) (m := m) (
      .cons (length_int32 _) <| .cons (length_int32 _) <| .cons (length_string _) <|
      .cons (length_string _) .nil)
    refine h.trans ?_
    simp only [MessageType.stringBytes, List.sum_cons, List.sum_nil]
    omega

end Sizes

/-- What `_CreateNetBuffer` and the handlers rely on. -/
structure Carried (skipper : Skipper) (t : MessageType) (m : t.Message) : Prop where
  /-- `SerializeToArray` writes `ByteSizeLong` bytes. -/
  size : (t.schema skipper).byteSize m = ((t.schema skipper).serialize m).length
  /-- They are not more than 120 and the strings. -/
  bounded : (t.schema skipper).byteSize m ≤ 120 + t.stringBytes m
  /-- `ParseFromArray` reads the message back. -/
  read : (t.schema skipper).parse skipper ((t.schema skipper).serialize m) = some m

/-- Every message of the protocol is written with the size announced and read back as it
was, negative numbers, absent positions and empty strings included, as long as its
strings fit the lengths of the format. -/
theorem message_roundTrip (skipper : Skipper) (t : MessageType) (m : t.Message)
    (h : 120 + t.stringBytes m < lengthLimit) : Carried skipper t m := by
  have hlength : ((t.schema skipper).serialize m).length < lengthLimit :=
    (length_serialize t m).trans_lt h
  have hsize := Schema.byteSize_eq hlength
  exact ⟨hsize, hsize.le.trans (length_serialize t m), Schema.parse_serialize hlength⟩

/-- No field is skipped. -/
def noSkipper : Skipper := ⟨fun _ _ => none, fun _ _ _ h => by cases h⟩

/-- A position of a session with the id -1. -/
def farAway : C2SMove :=
  ⟨-1, some ⟨1184645120, 0, 3338665984, 0, 0, 0, 0, 0, 0, 0, 0, 1065353216⟩, 1700000000000000, true⟩

/-- It takes 10 bytes for the id, and 15 for the fields of the position that are not 0. -/
theorem message_roundTrip_farAway :
    ((MessageType.c2sMove.schema noSkipper).serialize farAway).length = 39 ∧
      Carried noSkipper .c2sMove farAway :=
  ⟨by decide +kernel, message_roundTrip noSkipper .c2sMove farAway (by decide)⟩

end RioIocpServer.ProtocolMessages
