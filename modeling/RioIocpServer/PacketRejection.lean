import RioIocpServer.ServerRun

/-!
# Packets that are rejected

The handlers test the announced size of a packet and the `session_id` in its message,
and return before they change anything. The result of `ParseFromArray` is dropped, so
that a payload the parser rejects is handled all the same, with whatever of it was
filled in, unless one of the two tests happens to stop it.
-/

namespace RioIocpServer.PacketRejection

open PacketHandler ServerRun

/-- The ids `HandlePacket` has a handler for. -/
def Known (id : UInt16) : Prop :=
  id = ProtoId.c2sLogin.value ∨ id = ProtoId.c2sLogout.value ∨ id = ProtoId.c2sMove.value ∨
    id = ProtoId.c2sChat.value

/-- Whether the payload is parsed successfully as the message of its id. -/
def accepts (parser : Parser) (id : UInt16) (payload : List UInt8) : Bool :=
  if id = ProtoId.c2sLogin.value then (parser.login payload).1
  else if id = ProtoId.c2sLogout.value then parser.logout payload
  else if id = ProtoId.c2sMove.value then (parser.move payload).1
  else if id = ProtoId.c2sChat.value then (parser.chat payload).1
  else false

/-- The `session_id` embedded in a message, as far as it was filled in. -/
def embeddedId (parser : Parser) (id : UInt16) (payload : List UInt8) : Option ℤ :=
  if id = ProtoId.c2sMove.value then some (parser.move payload).2.sessionId
  else if id = ProtoId.c2sChat.value then some (parser.chat payload).2.sessionId
  else none

section Packets

variable {S : Type*} [DecidableEq S]

/-- A session id is embedded that is not the one of the session. -/
def Mismatched (server : Server S) (parser : Parser) (s : S) (id : UInt16)
    (payload : List UInt8) : Prop :=
  ∃ n, embeddedId parser id payload = some n ∧ n ≠ (server.session s).sessionId

/-- All or nothing: a packet that is rejected changes nothing and is reported, and only
a packet that was parsed is reported as handled. -/
structure AllOrNothing (server : Server S) (parser : Parser) (inputs : Inputs) (s : S)
    (header : PacketHeader) (payload : List UInt8) : Prop where
  /-- Nothing for an unknown id, a payload the parser rejects and a foreign session id. -/
  nothing : ¬ Known header.id ∨ accepts parser header.id payload = false ∨
      Mismatched server parser s header.id payload →
    server.handlePacket parser inputs s (header.toBytes ++ payload) = .ok ⟨server, false, false⟩
  /-- Success only for what was parsed. -/
  all : ∀ handled, server.handlePacket parser inputs s (header.toBytes ++ payload) = .ok handled →
    handled.result = true → accepts parser header.id payload = true

/-- What the handlers test before they change anything fails: the size, the id or the
session id. -/
def Refused (server : Server S) (parser : Parser) (s : S) (header : PacketHeader)
    (payload : List UInt8) : Prop :=
  payload.length + PacketHeader.sizeOf < header.size.toNat ∨ ¬ Known header.id ∨
    Mismatched server parser s header.id payload

variable {server : Server S} {parser : Parser} {inputs : Inputs} {s : S} {packet : List UInt8}

/-- Past its test `Handle_LOGIN` does not report a failure. -/
theorem handleLogin_acts (hsize : ¬ (PacketHeader.ofBytes packet).size.toNat > packet.length)
    {handled : Handled S} (h : server.handleLogin parser inputs s packet = .ok handled) :
    handled.result = true := by
  rw [Server.handleLogin, if_neg hsize] at h
  dsimp only at h
  split at h
  · cases h
  · cases hroom : Server.inRoom _ _ <;> rw [hroom] at h <;> cases h
    rfl

omit [DecidableEq S] in
/-- Nor does `Handle_LOGOUT`. -/
theorem handleLogout_acts (hsize : ¬ (PacketHeader.ofBytes packet).size.toNat > packet.length)
    {handled : Handled S} (h : server.handleLogout s packet = .ok handled) :
    handled.result = true := by
  rw [Server.handleLogout, if_neg hsize] at h
  cases h
  rfl

/-- Nor does `Handle_C2S_MOVE` past its tests. -/
theorem handleC2SMove_acts (hsize : ¬ (PacketHeader.ofBytes packet).size.toNat > packet.length)
    (hid : (parser.move (packet.drop PacketHeader.sizeOf)).2.sessionId =
      (server.session s).sessionId) {handled : Handled S}
    (h : server.handleC2SMove parser inputs s packet = .ok handled) : handled.result = true := by
  rw [Server.handleC2SMove, if_neg hsize] at h
  dsimp only at h
  rw [if_neg (not_not.mpr hid)] at h
  cases hown : (server.session s).ownPlayer <;> rw [hown] at h <;> cases h
  rfl

omit [DecidableEq S] in
/-- Nor does `Handle_CHAT` past its tests. -/
theorem handleChat_acts (hsize : ¬ (PacketHeader.ofBytes packet).size.toNat > packet.length)
    (hid : (parser.chat (packet.drop PacketHeader.sizeOf)).2.sessionId =
      (server.session s).sessionId) {handled : Handled S}
    (h : server.handleChat parser s packet = .ok handled) : handled.result = true := by
  rw [Server.handleChat, if_neg hsize] at h
  dsimp only at h
  rw [if_neg (not_not.mpr hid)] at h
  cases hown : (server.session s).ownPlayer <;> rw [hown] at h <;> cases h
  rfl

omit [DecidableEq S] in
/-- Every handler returns at once if the size announced is more than has arrived. -/
theorem size_gt_iff (header : PacketHeader) (payload : List UInt8) :
    (PacketHeader.ofBytes (header.toBytes ++ payload)).size.toNat >
        (header.toBytes ++ payload).length ↔
      payload.length + PacketHeader.sizeOf < header.size.toNat := by
  rw [PacketHeader.ofBytes_toBytes, List.length_append, Nat.add_comm]
  rfl

/-- What is behind the header is the payload. -/
theorem drop_header (header : PacketHeader) (payload : List UInt8) :
    (header.toBytes ++ payload).drop PacketHeader.sizeOf = payload := rfl

/-- A packet that is refused changes nothing and is reported. -/
theorem handlePacket_refuses {header : PacketHeader} {payload : List UInt8}
    (h : Refused server parser s header payload) :
    server.handlePacket parser inputs s (header.toBytes ++ payload) =
      .ok ⟨server, false, false⟩ := by
  rw [Server.handlePacket]
  by_cases hsize : payload.length + PacketHeader.sizeOf < header.size.toNat
  · have hgt := (size_gt_iff header payload).mpr hsize
    rw [Server.handleLogin, Server.handleLogout, Server.handleC2SMove, Server.handleChat,
      if_pos hgt, if_pos hgt, if_pos hgt, if_pos hgt]
    simp only [ite_self]
  rw [PacketHeader.ofBytes_toBytes]
  rcases h.resolve_left hsize with hunknown | ⟨n, hn, hne⟩
  · simp only [Known, not_or] at hunknown
    obtain ⟨hlogin, hlogout, hmove, hchat⟩ := hunknown
    rw [if_neg hlogin, if_neg hlogout, if_neg hmove, if_neg hchat]
  · have hle := mt (size_gt_iff header payload).mp hsize
    rw [embeddedId] at hn
    split at hn
    · cases hn
      rw [‹header.id = _›, if_neg (by decide), if_neg (by decide), if_pos rfl,
        Server.handleC2SMove, if_neg hle]
      dsimp only
      rw [drop_header, if_pos hne]
    · split at hn <;> cases hn
      rw [‹header.id = _›, if_neg (by decide), if_neg (by decide), if_neg (by decide), if_pos rfl,
        Server.handleChat, if_neg hle]
      dsimp only
      rw [drop_header, if_pos hne]

/-- A packet that is not refused is never reported as failed. -/
theorem handlePacket_acts {header : PacketHeader} {payload : List UInt8}
    (h : ¬ Refused server parser s header payload) {handled : Handled S}
    (hr : server.handlePacket parser inputs s (header.toBytes ++ payload) = .ok handled) :
    handled.result = true := by
  simp only [Refused, not_or, not_not] at h
  obtain ⟨hsize, hknown, hmatch⟩ := h
  have hle := mt (size_gt_iff header payload).mp hsize
  rw [Server.handlePacket] at hr
  rw [PacketHeader.ofBytes_toBytes] at hr
  rcases hknown with hid | hid | hid | hid <;> rw [hid] at hr
  · rw [if_pos rfl] at hr
    exact handleLogin_acts hle hr
  · rw [if_neg (by decide), if_pos rfl] at hr
    exact handleLogout_acts hle hr
  · rw [if_neg (by decide), if_neg (by decide), if_pos rfl] at hr
    refine handleC2SMove_acts hle ?_ hr
    rw [drop_header]
    by_contra hne
    exact hmatch ⟨_, by rw [embeddedId, hid, if_pos rfl], hne⟩
  · rw [if_neg (by decide), if_neg (by decide), if_neg (by decide), if_pos rfl] at hr
    refine handleChat_acts hle ?_ hr
    rw [drop_header]
    by_contra hne
    exact hmatch ⟨_, by rw [embeddedId, hid, if_neg (by decide), if_pos rfl], hne⟩

/-- A packet is handled whole or not at all exactly if it is refused or parsed. -/
theorem allOrNothing_iff (server : Server S) (parser : Parser) (inputs : Inputs) (s : S)
    (header : PacketHeader) (payload : List UInt8) :
    AllOrNothing server parser inputs s header payload ↔
      Refused server parser s header payload ∨ accepts parser header.id payload = true := by
  constructor
  · intro h
    by_contra hnot
    obtain ⟨hrefused, haccepts⟩ := not_or.mp hnot
    have hnothing := h.nothing (.inr (.inl (Bool.not_eq_true _ ▸ haccepts)))
    cases handlePacket_acts hrefused hnothing
  · intro h
    refine ⟨fun hreject => handlePacket_refuses ?_, fun handled hr hresult => ?_⟩
    · rcases h with hrefused | haccepts
      · exact hrefused
      · rcases hreject with hunknown | hrejects | hforeign
        · exact .inr (.inl hunknown)
        · rw [haccepts] at hrejects
          cases hrejects
        · exact .inr (.inr hforeign)
    · refine h.resolve_left fun hrefused => ?_
      rw [handlePacket_refuses hrefused] at hr
      cases hr
      cases hresult

end Packets

/-- A parser that rejects a payload cut off behind the tag of its first field, which
is then empty. -/
def cutParser : Parser where
  login payload := (decide (payload ≠ [10]), ⟨"", 0, 0⟩)
  move := shortParser.move
  logout := shortParser.logout
  chat := shortParser.chat

/-- A `C2S_LOGIN` cut off there is reported as handled and leaves a player without a name
logged in. -/
theorem cutLogin_logsIn :
    ¬ AllOrNothing (init noPlayer).server cutParser (inputsAt 0) () ⟨5, ProtoId.c2sLogin.value⟩
      [10] ∧
    ∃ handled, (init noPlayer).server.handlePacket cutParser (inputsAt 0) ()
        (PacketHeader.toBytes ⟨5, ProtoId.c2sLogin.value⟩ ++ [10]) = .ok handled ∧
      handled.server.room.loginCnt = 1 ∧ (handled.server.session ()).playerId = "" := by
  have h : (((init noPlayer).server.handlePacket cutParser (inputsAt 0) ()
      (PacketHeader.toBytes ⟨5, ProtoId.c2sLogin.value⟩ ++ [10])).toOption.any fun handled =>
        handled.result ∧ handled.server.room.loginCnt = 1 ∧
          (handled.server.session ()).playerId = "") = true := by
    decide +kernel
  cases hr : (init noPlayer).server.handlePacket cutParser (inputsAt 0) ()
    (PacketHeader.toBytes ⟨5, ProtoId.c2sLogin.value⟩ ++ [10]) with
  | error fault =>
    rw [hr] at h
    cases h
  | ok handled =>
    rw [hr] at h
    obtain ⟨hresult, hcnt, hid⟩ := of_decide_eq_true h
    refine ⟨fun hwhole => ?_, handled, rfl, hcnt, hid⟩
    cases hwhole.all handled hr hresult

end RioIocpServer.PacketRejection
