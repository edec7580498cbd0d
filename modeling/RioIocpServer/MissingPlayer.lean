import RioIocpServer.ServerRun

/-!
# Uses of a missing player

The packets of a client may arrive at any time, and the handlers test at most that
`session_id` is `m_sessionId`, which is 0 before the first login. The process survives as
long as the packets that need the player of their session come after a `C2S_LOGIN` of it
that no `OnDisconnected` has followed: from the one to the other a session has a player.
-/

namespace RioIocpServer.MissingPlayer

open TransitionSystem Contents PacketHandler PlayerRegistry ServerRun

section System

variable {S : Type*} [DecidableEq S]

/-- The handlers whose checks the packet passes use `m_ownPlayer`. -/
def needsPlayer (parser : Parser) (session : Session S) (packet : Frame) : Bool :=
  let header := PacketHeader.ofBytes packet.bytes
  let payload := packet.bytes.drop PacketHeader.sizeOf
  if header.id = ProtoId.c2sLogin.value then false
  else if header.id = ProtoId.c2sLogout.value then true
  else if header.id = ProtoId.c2sMove.value then
    (parser.move payload).2.sessionId = session.sessionId
  else if header.id = ProtoId.c2sChat.value then
    (parser.chat payload).2.sessionId = session.sessionId
  else false

/-- The session has a player. -/
def HasPlayer (st : State S) (s : S) : Prop := (st.server.session s).ownPlayer ≠ none

instance (st : State S) (s : S) : Decidable (HasPlayer st s) :=
  decidable_of_iff ((st.server.session s).ownPlayer.isSome = true) Option.isSome_iff_ne_none

/-- A packet that needs the player of its session is handled only if the session is as
said, and so is a move of a connected player whose session wants the result. -/
def NeedsMet (parser : Parser) (st : State S) (there : S → Prop) : Action S → Prop
  | .packet s _ => ∀ packet ∈ (st.packets s).head?,
      needsPlayer parser (st.server.session s) packet = true → there s
  | .runZone zone => ∀ job ∈ (st.server.zoneJobs zone).head?,
      match job with
      | .movePlayer p => (st.server.room.player p).isValidPlayer = true →
          (st.server.session p.1).requestResult = true → there p.1
      | .chat _ _ => True
  | _ => True

instance (parser : Parser) (st : State S) (there : S → Prop) [DecidablePred there] :
    DecidablePred (NeedsMet parser st there)
  | .packet s _ => inferInstanceAs (Decidable (∀ packet ∈ (st.packets s).head?, _ → _))
  | .runZone zone =>
    match h : (st.server.zoneJobs zone).head? with
    | some (.movePlayer p) =>
      decidable_of_iff ((st.server.room.player p).isValidPlayer = true →
        (st.server.session p.1).requestResult = true → there p.1) (by simp [NeedsMet, h])
    | some (.chat _ _) => isTrue (by simp [NeedsMet, h])
    | none => isTrue (by simp [NeedsMet, h])
  | .receive _ _ => isTrue trivial
  | .leave _ _ => isTrue trivial
  | .disconnect _ _ => isTrue trivial
  | .processDisconnect _ => isTrue trivial
  | .runRoom => isTrue trivial

/-- What needs the player of a session finds one. -/
def PlayerThere (parser : Parser) (st : State S) : Action S → Prop :=
  NeedsMet parser st (HasPlayer st)

/-- The server with the history of its logins. -/
structure Recorded (S : Type*) where
  /-- The server. -/
  state : State S
  /-- History: a `C2S_LOGIN` of the session was handled that no `OnDisconnected` of it has
  followed. -/
  loggedIn : S → Bool

/-- Nobody has logged in. -/
def Recorded.init (player : PlayerPtr S → Player (PlayerPtr S)) : Recorded S where
  state := ServerRun.init player
  loggedIn _ := false

/-- The history after an event. -/
def loggedInAfter (loggedIn : S → Bool) : Event S → S → Bool
  | .login s => Function.update loggedIn s true
  | .ended s => Function.update loggedIn s false
  | _ => loggedIn

/-- One step of the server, recorded. -/
def Recorded.step (parser : Parser) (c : SessionClass) (r : Recorded S) (a : Action S) :
    Option (Recorded S) :=
  (ServerRun.step parser c r.state a).map fun st =>
    ⟨st, loggedInAfter r.loggedIn (r.state.event c a)⟩

/-- What needs the player of a session comes after a login that no `OnDisconnected` has
followed. -/
def LoggedInFirst (parser : Parser) (r : Recorded S) : Action S → Prop :=
  NeedsMet parser r.state fun s => r.loggedIn s = true

instance (parser : Parser) (r : Recorded S) : DecidablePred (LoggedInFirst parser r) :=
  inferInstanceAs (DecidablePred (NeedsMet parser r.state fun s => r.loggedIn s = true))

/-- The process has not crashed, and no job of the room has a null player. -/
structure Alive (st : State S) : Prop where
  /-- No null player was used. -/
  running : st.crashed = false
  /-- None will be by a job of the room. -/
  jobs : none ∉ st.server.roomJobs

section Steps

variable {parser : Parser} {c : SessionClass} {st st' : State S} {server : Server S} {s : S}
variable {p : PlayerPtr S} {packet : Frame} {r r' : Registry S}

/-- `Handle_C2S_MOVE` uses a null player if the session ids agree and there is none. -/
theorem null_handleC2SMove {inputs : Inputs}
    (h : server.handleC2SMove parser inputs s packet.bytes = .error .nullPlayer) :
    (parser.move (packet.bytes.drop PacketHeader.sizeOf)).2.sessionId =
      (server.session s).sessionId ∧ (server.session s).ownPlayer = none := by
  rw [Server.handleC2SMove, if_neg (not_size_gt packet)] at h
  dsimp only at h
  split at h
  · cases h
  · rename_i hid
    refine ⟨of_not_not hid, ?_⟩
    cases hown : (server.session s).ownPlayer with
    | none => rfl
    | some p =>
      rw [hown] at h
      cases h

omit [DecidableEq S] in
/-- So does `Handle_CHAT`. -/
theorem null_handleChat
    (h : server.handleChat parser s packet.bytes = .error .nullPlayer) :
    (parser.chat (packet.bytes.drop PacketHeader.sizeOf)).2.sessionId =
      (server.session s).sessionId ∧ (server.session s).ownPlayer = none := by
  rw [Server.handleChat, if_neg (not_size_gt packet)] at h
  dsimp only at h
  split at h
  · cases h
  · rename_i hid
    refine ⟨of_not_not hid, ?_⟩
    cases hown : (server.session s).ownPlayer with
    | none => rfl
    | some p =>
      rw [hown] at h
      cases h

/-- A packet whose handler uses a null player needs one. -/
theorem needsPlayer_of_null {inputs : Inputs}
    (h : server.handlePacket parser inputs s packet.bytes = .error .nullPlayer) :
    needsPlayer parser (server.session s) packet = true ∧
      (server.session s).ownPlayer = none := by
  simp only [Server.handlePacket] at h
  simp only [needsPlayer]
  split at h
  · rw [handleLogin_eq] at h
    split at h <;> cases h
  · rename_i hlogin
    split at h
    · rw [Server.handleLogout, if_neg (not_size_gt packet)] at h
      cases h
    · rename_i hlogout
      rw [if_neg hlogin, if_neg hlogout]
      split at h
      · rename_i hmove
        rw [if_pos hmove, decide_eq_true_eq]
        exact null_handleC2SMove h
      · rename_i hmove
        rw [if_neg hmove]
        split at h
        · rename_i hchat
          rw [if_pos hchat, decide_eq_true_eq]
          exact null_handleChat h
        · cases h

/-- Of what a move sends, only the result uses the player of its session. -/
theorem usesNull_movePlayer {room room' : Room (PlayerPtr S)}
    {out : List (PlayerPtr S × Message (PlayerPtr S))}
    (h : room.movePlayer p = some (room', out)) {m : PlayerPtr S × Message (PlayerPtr S)}
    (hm : m ∈ out) (hnull : server.usesNull m = true) :
    (room.player p).isValidPlayer = true ∧ m = (p, .moveResult) := by
  by_cases hvalid : (room.player p).isValidPlayer = true
  · refine ⟨hvalid, ?_⟩
    obtain ⟨moved, -, -, rfl⟩ := SectorSearch.movePlayer_eq_some hvalid h
    rcases List.mem_append.mp hm with hm | hm
    · exfalso
      rcases List.mem_append.mp hm with hm | hm
      · obtain ⟨target, -, hm⟩ := List.mem_flatMap.mp hm
        rw [Room.moveMessages] at hm
        split at hm <;> split at hm <;> simp at hm <;> rcases hm with rfl | rfl <;> cases hnull
      · obtain ⟨target, -, hm⟩ := List.mem_flatMap.mp hm
        rw [Room.leaveMessages] at hm
        split at hm <;> simp at hm <;> rcases hm with rfl | rfl <;> cases hnull
    · exact List.mem_singleton.mp hm
  · rw [Room.movePlayer, if_neg hvalid] at h
    cases h
    exact (List.not_mem_nil hm).elim

omit [DecidableEq S] in
/-- The calls of `Send*Msg` that find a null player. -/
theorem send_eq_null {out : List (PlayerPtr S × Message (PlayerPtr S))}
    (h : server.send out = .error .nullPlayer) : ∃ m ∈ out, server.usesNull m = true := by
  rw [Server.send] at h
  split at h
  · rename_i hany
    exact List.any_eq_true.mp hany
  · cases h

/-- A zone job that uses a null player is the move of a connected player whose session
wants the result and has no player any more. -/
theorem null_runZoneJob {job : ZoneJob S} (h : server.runZoneJob job = .error .nullPlayer) :
    ∃ p, job = .movePlayer p ∧ (server.room.player p).isValidPlayer = true ∧
      (server.session p.1).requestResult = true ∧ (server.session p.1).ownPlayer = none := by
  cases job with
  | movePlayer p =>
    change server.inRoom (server.room.movePlayer p) = _ at h
    cases hcall : server.room.movePlayer p with
    | none =>
      rw [hcall] at h
      cases h
    | some called =>
      obtain ⟨room', out⟩ := called
      rw [hcall] at h
      obtain ⟨m, hm, hnull⟩ := send_eq_null h
      obtain ⟨hvalid, rfl⟩ := usesNull_movePlayer hcall hm hnull
      obtain ⟨hrequest, hown⟩ := Bool.and_eq_true_iff.mp hnull
      exact ⟨p, rfl, hvalid, hrequest, Option.isNone_iff_eq_none.mp hown⟩
  | chat p text =>
    obtain ⟨m, hm, hnull⟩ := send_eq_null h
    rw [Room.chat] at hm
    split at hm
    · obtain ⟨target, -, rfl⟩ := List.mem_map.mp hm
      cases hnull
    · exact (List.not_mem_nil hm).elim

/-- Only the logout of a session without a player puts a null player into the queue of
the room. -/
theorem jobs_perform (hjobs : none ∉ r.jobs) {event : Event S}
    (hown : ∀ t, event = .logout t → r.own t ≠ none) (h : perform r event = some r') :
    none ∉ r'.jobs := by
  cases event with
  | logout t =>
    cases h
    intro hmem
    rcases List.mem_append.mp hmem with hold | hnew
    · exact hjobs hold
    · exact hown t rfl (List.mem_singleton.mp hnew).symm
  | ended t =>
    cases h
    intro hmem
    rcases List.mem_append.mp hmem with hold | hnew
    · exact hjobs hold
    · cases hplayer : r.own t with
      | none =>
        rw [endJobs_of_none hplayer] at hnew
        exact List.not_mem_nil hnew
      | some p =>
        rw [endJobs_of_own hplayer] at hnew
        split at hnew <;> simp at hnew
  | run =>
    obtain ⟨p, rest, hcons, rfl⟩ := perform_run_eq_some.mp h
    rw [hcons] at hjobs
    exact fun hmem => hjobs (List.mem_cons_of_mem _ hmem)
  | login t =>
    cases h
    exact hjobs
  | idle =>
    cases h
    exact hjobs

omit [DecidableEq S] in
/-- A step that is a logout for the registry handles a packet that needs a player. -/
theorem hasPlayer_of_logout {a : Action S} (hok : PlayerThere parser st a) {t : S}
    (hevent : st.event c a = .logout t) : HasPlayer st t := by
  cases a with
  | packet u inputs =>
    rw [State.event] at hevent
    split at hevent
    · cases hevent
    · rename_i packet rest hpackets
      simp only [packetEvent] at hevent
      split at hevent
      · cases hevent
      · rename_i hlogin
        split at hevent
        · rename_i hlogout
          cases hevent
          refine hok packet (by rw [hpackets]; rfl) ?_
          simp only [needsPlayer]
          rw [if_neg hlogin, if_pos hlogout]
        · cases hevent
  | leave u accepted =>
    simp only [State.event, State.disconnectEvent] at hevent
    split at hevent <;> cases hevent
  | disconnect u accepted =>
    simp only [State.event, State.disconnectEvent] at hevent
    split at hevent <;> cases hevent
  | runRoom =>
    rw [State.event] at hevent
    split at hevent <;> cases hevent
  | processDisconnect u => cases hevent
  | receive u packets => cases hevent
  | runZone zone => cases hevent

/-- A step whose packet or move finds the player it needs does not crash. -/
theorem running_step (alive : Alive st) {a : Action S} (hok : PlayerThere parser st a)
    (h : step parser c st a = some st') : st'.crashed = false := by
  obtain ⟨hrun, hact⟩ := step_eq_some.mp h
  cases a with
  | packet t inputs =>
    obtain ⟨-, packet, rest, hpackets, hafter⟩ := packet_eq_some hact
    rcases after_eq_some hafter with ⟨result, -, rfl⟩ | ⟨hnull, -⟩
    · exact hrun
    · obtain ⟨hneeds, hown⟩ := needsPlayer_of_null hnull
      exact (hok packet (by rw [hpackets]; rfl) hneeds hown).elim
  | runRoom =>
    obtain ⟨job, rest, hjobs, hafter⟩ := runRoom_eq_some hact
    rcases after_eq_some hafter with ⟨value, -, rfl⟩ | ⟨hnull, -⟩
    · exact hrun
    · cases job with
      | none => exact (alive.jobs (by rw [hjobs]; exact List.mem_cons_self)).elim
      | some p => exact (runLogout_ne_null _ p hnull).elim
  | runZone zone =>
    obtain ⟨job, rest, hjobs, hafter⟩ := runZone_eq_some hact
    rcases after_eq_some hafter with ⟨value, -, rfl⟩ | ⟨hnull, -⟩
    · exact hrun
    · obtain ⟨p, rfl, hvalid, hrequest, hown⟩ := null_runZoneJob hnull
      exact (hok (.movePlayer p) (by rw [hjobs]; rfl) hvalid hrequest hown).elim
  | receive t packets =>
    rw [State.act] at hact
    split at hact <;> cases hact
    exact hrun
  | leave t accepted =>
    rw [State.act] at hact
    split at hact <;> cases hact
    exact (disconnect_crashed c st t accepted).trans hrun
  | disconnect t accepted =>
    rw [State.act] at hact
    split at hact <;> cases hact
    exact (disconnect_crashed c st t accepted).trans hrun
  | processDisconnect t =>
    rw [State.act] at hact
    split at hact <;> cases hact
    exact hrun

/-- Such a step keeps the process alive. -/
theorem alive_step (alive : Alive st) {a : Action S} (hok : PlayerThere parser st a)
    (h : step parser c st a = some st') : Alive st' := by
  have hjobs : none ∉ st.view.jobs := alive.jobs
  exact ⟨running_step alive hok h,
    jobs_perform hjobs (fun t hevent => hasPlayer_of_logout hok hevent) (view_step h)⟩

/-- A null player was used, or waits to be used by a job of the room. -/
def Missing (st : State S) : Prop := st.crashed = true ∨ none ∈ st.server.roomJobs

/-- A null player in the queue of the room stays until it is used. -/
theorem missing_step (hmissing : Missing st) {a : Action S}
    (h : step parser c st a = some st') : Missing st' := by
  rcases hmissing with hcrashed | hjobs
  · rw [(step_eq_some.mp h).1] at hcrashed
    cases hcrashed
  · have hview := view_step h
    right
    show none ∈ st'.view.jobs
    have hold : none ∈ st.view.jobs := hjobs
    cases hevent : st.event c a with
    | run =>
      rw [hevent] at hview
      obtain ⟨p, rest, hcons, hnew⟩ := perform_run_eq_some.mp hview
      rw [hcons] at hold
      rw [hnew]
      exact (List.mem_cons.mp hold).resolve_left (Option.some_ne_none p).symm
    | login t =>
      rw [hevent] at hview
      rw [← Option.some.inj hview]
      exact hold
    | logout t =>
      rw [hevent] at hview
      rw [← Option.some.inj hview]
      exact List.mem_append_left _ hold
    | ended t =>
      rw [hevent] at hview
      rw [← Option.some.inj hview]
      exact List.mem_append_left _ hold
    | idle =>
      rw [hevent] at hview
      rw [← Option.some.inj hview]
      exact hold

/-- `Handle_LOGOUT` without a player queues a null player, and the handlers of moves
and texts use it. -/
theorem handlePacket_missing {inputs : Inputs}
    (hneeds : needsPlayer parser (server.session s) packet = true)
    (hown : (server.session s).ownPlayer = none) :
    server.handlePacket parser inputs s packet.bytes = .error .nullPlayer ∨
      ∃ result, server.handlePacket parser inputs s packet.bytes = .ok result ∧
        none ∈ result.server.roomJobs := by
  simp only [needsPlayer] at hneeds
  simp only [Server.handlePacket]
  split at hneeds
  · cases hneeds
  · rename_i hlogin
    rw [if_neg hlogin]
    split at hneeds
    · rename_i hlogout
      rw [if_pos hlogout, Server.handleLogout, if_neg (not_size_gt packet)]
      refine .inr ⟨_, rfl, ?_⟩
      rw [hown]
      exact List.mem_append_right _ List.mem_cons_self
    · rename_i hlogout
      rw [if_neg hlogout]
      left
      split at hneeds
      · rename_i hmove
        rw [if_pos hmove, Server.handleC2SMove, if_neg (not_size_gt packet)]
        dsimp only
        rw [if_neg (not_not.mpr (of_decide_eq_true hneeds)), hown]
      · rename_i hmove
        rw [if_neg hmove]
        split at hneeds
        · rename_i hchat
          rw [if_pos hchat, Server.handleChat, if_neg (not_size_gt packet)]
          dsimp only
          rw [if_neg (not_not.mpr (of_decide_eq_true hneeds)), hown]
          rfl
        · cases hneeds

/-- The result of a move uses the player of its session. -/
theorem runZoneJob_missing (hvalid : (server.room.player p).isValidPlayer = true)
    (hrequest : (server.session p.1).requestResult = true)
    (hown : (server.session p.1).ownPlayer = none) :
    ∀ server', server.runZoneJob (.movePlayer p) ≠ .ok server' := by
  intro server' h
  change server.inRoom (server.room.movePlayer p) = _ at h
  cases hcall : server.room.movePlayer p with
  | none =>
    rw [hcall] at h
    cases h
  | some called =>
    obtain ⟨room', out⟩ := called
    rw [hcall] at h
    obtain ⟨moved, -, -, rfl⟩ := SectorSearch.movePlayer_eq_some hvalid hcall
    change Server.send _ _ = _ at h
    rw [Server.send, if_pos] at h
    · cases h
    · refine List.any_eq_true.mpr ⟨(p, .moveResult), by simp, ?_⟩
      exact Bool.and_eq_true_iff.mpr ⟨hrequest, Option.isNone_iff_eq_none.mpr hown⟩

/-- A step whose packet or move lacks the player it needs uses a null player or queues
one. -/
theorem missing_of_not {a : Action S} (hnot : ¬ PlayerThere parser st a)
    (h : step parser c st a = some st') : Missing st' := by
  obtain ⟨-, hact⟩ := step_eq_some.mp h
  cases a with
  | packet t inputs =>
    obtain ⟨-, packet, rest, hpackets, hafter⟩ := packet_eq_some hact
    have hlack : needsPlayer parser (st.server.session t) packet = true ∧
        (st.server.session t).ownPlayer = none := by
      simpa [PlayerThere, NeedsMet, HasPlayer, hpackets] using hnot
    rcases after_eq_some hafter with ⟨result, hresult, rfl⟩ | ⟨-, rfl⟩
    · rcases handlePacket_missing hlack.1 hlack.2 with hnull | ⟨other, hother, hmem⟩
      · rw [hnull] at hresult
        cases hresult
      · cases hother.symm.trans hresult
        exact .inr hmem
    · exact .inl rfl
  | runZone zone =>
    obtain ⟨job, rest, hjobs, hafter⟩ := runZone_eq_some hact
    cases job with
    | movePlayer p =>
      have hlack : (st.server.room.player p).isValidPlayer = true ∧
          (st.server.session p.1).requestResult = true ∧
            (st.server.session p.1).ownPlayer = none := by
        simpa [PlayerThere, NeedsMet, HasPlayer, hjobs] using hnot
      rcases after_eq_some hafter with ⟨value, hresult, -⟩ | ⟨-, rfl⟩
      · refine absurd hresult (runZoneJob_missing ?_ ?_ ?_ value)
        · exact hlack.1
        · exact hlack.2.1
        · exact hlack.2.2
      · exact .inl rfl
    | chat p text => simp [PlayerThere, NeedsMet, hjobs] at hnot
  | receive t packets => exact (hnot trivial).elim
  | leave t accepted => exact (hnot trivial).elim
  | disconnect t accepted => exact (hnot trivial).elim
  | processDisconnect t => exact (hnot trivial).elim
  | runRoom => exact (hnot trivial).elim

/-- The sessions with a player are those with such a login. -/
def Known (r : Recorded S) : Prop := ∀ s, r.loggedIn s = true ↔ HasPlayer r.state s

omit [DecidableEq S] in
theorem known_init (player : PlayerPtr S → Player (PlayerPtr S)) :
    Known (Recorded.init player) := by
  intro s
  simp [Recorded.init, HasPlayer, ServerRun.init, Session.new]

/-- A changed session keeps the history in accordance with the players. -/
theorem known_update {loggedIn : S → Bool} {own : S → Option (PlayerPtr S)}
    (hknown : ∀ s, loggedIn s = true ↔ own s ≠ none) {t : S} {flag : Bool}
    {player : Option (PlayerPtr S)} (ht : flag = true ↔ player ≠ none) (s : S) :
    Function.update loggedIn t flag s = true ↔ Function.update own t player s ≠ none := by
  by_cases hs : s = t
  · rw [hs, Function.update_self, Function.update_self]
    exact ht
  · rw [Function.update_of_ne hs, Function.update_of_ne hs]
    exact hknown s

/-- A session gets its player by a login and loses it by its end. -/
theorem known_perform {event : Event S} {loggedIn : S → Bool}
    (hknown : ∀ s, loggedIn s = true ↔ r.own s ≠ none) (h : perform r event = some r') :
    ∀ s, loggedInAfter loggedIn event s = true ↔ r'.own s ≠ none := by
  rw [own_perform h]
  cases event with
  | login t => exact known_update hknown (by simp)
  | ended t => exact known_update hknown (by simp)
  | logout t | run | idle => exact hknown

/-- Every step keeps the history in accordance with the players. -/
theorem known_step {recorded : Recorded S} (hknown : Known recorded) {a : Action S}
    (h : step parser c recorded.state a = some st') :
    Known ⟨st', loggedInAfter recorded.loggedIn (recorded.state.event c a)⟩ := by
  have hown : ∀ s, recorded.loggedIn s = true ↔ recorded.state.view.own s ≠ none := hknown
  exact known_perform hown (view_step h)

/-- A run comes after the logins it needs exactly if it finds the players it needs. -/
theorem loggedInFirst_iff_playerThere {recorded : Recorded S} (hknown : Known recorded)
    {actions : List (Action S)} :
    StepsMeet (Recorded.step parser c) (LoggedInFirst parser) recorded actions ↔
      StepsMeet (step parser c) (PlayerThere parser) recorded.state actions := by
  induction actions generalizing recorded with
  | nil => exact Iff.rfl
  | cons a actions ih =>
    have hfirst : LoggedInFirst parser recorded a ↔ PlayerThere parser recorded.state a := by
      have hthere : (fun s => recorded.loggedIn s = true) = HasPlayer recorded.state :=
        funext fun s => propext (hknown s)
      rw [LoggedInFirst, PlayerThere, hthere]
    refine and_congr hfirst ⟨fun h st' hs => ?_, fun h recorded' hs => ?_⟩
    · exact (ih (known_step hknown hs)).mp (h _ (Option.map_eq_some_iff.mpr ⟨st', hs, rfl⟩))
    · obtain ⟨st', hst', rfl⟩ := Option.map_eq_some_iff.mp hs
      exact (ih (known_step hknown hst')).mpr (h st' hst')

end Steps

end System

/-- In every run in which each packet that needs the player of its session, and each
move of a connected player whose session wants the result, comes after a `C2S_LOGIN` of
that session which no `OnDisconnected` has followed, no null player is used; and every run
without such a use in which the jobs of the room have all been executed is of that kind. -/
theorem no_missing_player {S : Type*} [DecidableEq S] {parser : Parser} {c : SessionClass}
    {player : PlayerPtr S → Player (PlayerPtr S)} {actions : List (Action S)} {st : State S}
    (hr : run (step parser c) (init player) actions = some st) :
    (StepsMeet (Recorded.step parser c) (LoggedInFirst parser) (Recorded.init player) actions →
      st.crashed = false) ∧
    (st.crashed = false → st.server.roomJobs = [] →
      StepsMeet (Recorded.step parser c) (LoggedInFirst parser) (Recorded.init player)
        actions) := by
  rw [loggedInFirst_iff_playerThere (known_init player)]
  constructor
  · intro hmeet
    have halive : Alive st :=
      run_preserves (fun _ _ _ alive hok h => alive_step alive hok h)
        ⟨rfl, List.not_mem_nil⟩ hmeet hr
    exact halive.running
  · intro hrun hjobs
    have hor : StepsMeet (step parser c) (PlayerThere parser) (init player) actions ∨
        Missing st :=
      stepsMeet_or_of_kept (fun _ _ _ (hi : True) _ => hi)
        (fun _ _ _ _ hnot h => missing_of_not hnot h)
        (fun _ _ _ _ hmissing h => missing_step hmissing h) trivial hr
    rcases hor with hmeet | hcrashed | hmem
    · exact hmeet
    · rw [hrun] at hcrashed
      cases hcrashed
    · rw [hjobs] at hmem
      exact (List.not_mem_nil hmem).elim

/-- A client logs in, moves, talks and logs out, and all jobs are executed. -/
def visit : List (Action Unit) :=
  [.receive () [emptyPacket .c2sLogin, sessionPacket .c2sMove, sessionPacket .c2sChat,
      emptyPacket .c2sLogout],
    .packet () (inputsAt 0), .packet () (inputsAt 5), .packet () (inputsAt 6),
    .packet () (inputsAt 7), .runZone (2, 2), .runZone (2, 2), .runRoom, .leave () true]

/-- The process survives. -/
theorem no_missing_player_visit : ∃ st : State Unit,
    run (step shortParser .rio) (init noPlayer) visit = some st ∧
      (st.server.session ()).connected = false ∧ st.server.room.players.elems = [] ∧
      st.crashed = false := by
  have h : ((run (step shortParser .rio) (init noPlayer) visit).any fun st =>
      (st.server.session ()).connected = false ∧ st.server.room.players.elems = []) = true := by
    decide +kernel
  obtain ⟨st, hr, hview⟩ := (Option.any_eq_true _ _).mp h
  obtain ⟨hconnected, hplayers⟩ := of_decide_eq_true hview
  exact ⟨st, hr, hconnected, hplayers, (no_missing_player hr).1 (by decide +kernel)⟩

/-- The first packet is a `C2S_MOVE` with `session_id` 0. -/
theorem missing_player_crashes : ∃ st : State Unit,
    run (step shortParser .rio) (init noPlayer)
      [.receive () [emptyPacket .c2sMove], .packet () (inputsAt 0)] = some st ∧
    st.crashed = true := by
  have h : ((run (step shortParser .rio) (init noPlayer)
      [.receive () [emptyPacket .c2sMove], .packet () (inputsAt 0)]).any
      fun st => st.crashed) = true := by
    decide +kernel
  exact (Option.any_eq_true _ _).mp h

end RioIocpServer.MissingPlayer
