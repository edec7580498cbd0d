import RioIocpServer.ServerRun

/-!
# From login to logout

A session remembers one player, and its logout is queued by `Handle_LOGOUT` and by
`OnDisconnected`. A login that neither of them follows leaves a player in the room for
good; one that both of them follow is counted down twice, because the job that
`Handle_LOGOUT` has queued has not changed `m_playerState` yet.
-/

namespace RioIocpServer.PlayerLifetime

open TransitionSystem Contents PacketHandler PlayerRegistry ServerRun

section System

variable {S : Type*} [DecidableEq S]

/-- The session sends no `C2S_LOGIN` while its last one was followed neither by a
`C2S_LOGOUT` nor by `OnDisconnected`. -/
def LoginsMatched (c : SessionClass) (s : S) (st : State S) (a : Action S) : Prop :=
  LoginMatched s st.view (st.event c a)

/-- A `C2S_LOGOUT` of a session with a player, and an `OnDisconnected` that finds the
player connected, is the first of the two since the `C2S_LOGIN`. -/
def LogoutsOnce (c : SessionClass) (st : State S) (a : Action S) : Prop :=
  LogoutOnce st.view (st.event c a)

instance (c : SessionClass) (s : S) (st : State S) : DecidablePred (LoginsMatched c s st) :=
  fun a => inferInstanceAs (Decidable (LoginMatched s st.view (st.event c a)))

instance (c : SessionClass) (st : State S) : DecidablePred (LogoutsOnce c st) :=
  fun a => inferInstanceAs (Decidable (LogoutOnce st.view (st.event c a)))

omit [DecidableEq S] in
/-- No player of a session is left. -/
structure NoGhost (st : State S) (s : S) : Prop where
  /-- None is in the set of a sector. -/
  sectors : ∀ idx p, p ∈ st.server.room.sectors idx → p.1 ≠ s
  /-- None is in `Room::m_players`. -/
  players : ∀ p, p ∈ st.server.room.players → p.1 ≠ s
  /-- None is connected. -/
  states : ∀ p, p.1 = s → (st.server.room.player p).state = .disconnected

/-- The invariants of the registry and of the sectors. -/
structure Inv (st : State S) : Prop where
  /-- The registry. -/
  registry : PlayerRegistry.Inv st.view
  /-- The room. -/
  room : SectorSearch.Inv st.server.room

section Steps

variable {parser : Parser} {c : SessionClass} {st st' : State S} {server server' : Server S}
variable {s : S} {packet : Frame} {result : Handled S}

/-- A login of a new player keeps the sectors in order. -/
theorem room_loggedIn (inv : SectorSearch.Inv server.room) {inputs : Inputs} {pkt : C2SLogin}
    (hnew : (s, server.sessionCnt + 1) ∉ server.room.players) :
    SectorSearch.Inv (loggedIn server inputs s pkt).room := by
  refine SectorSearch.inv_login (inv.setPlayer_of ?_ ?_) hnew (login_created server inputs s pkt)
  · intro h
    cases h
  · exact fun h => (hnew h).elim

/-- The handlers keep the sectors in order. -/
theorem room_handlePacket (inv : SectorSearch.Inv server.room) {inputs : Inputs}
    (hnew : (s, server.sessionCnt + 1) ∉ server.room.players)
    (h : server.handlePacket parser inputs s packet.bytes = .ok result) :
    SectorSearch.Inv result.server.room := by
  simp only [Server.handlePacket] at h
  split at h
  · rw [handleLogin_eq] at h
    split at h <;> cases h
    exact room_loggedIn inv hnew
  · split at h
    · rw [Server.handleLogout, if_neg (not_size_gt packet)] at h
      cases h
      exact inv
    · split at h
      · rw [Server.handleC2SMove, if_neg (not_size_gt packet)] at h
        dsimp only at h
        split at h
        · cases h
          exact inv
        · cases hown : (server.session s).ownPlayer with
          | none =>
            rw [hown] at h
            cases h
          | some p =>
            rw [hown] at h
            cases h
            exact inv.setPlayer rfl rfl
      · split at h
        · rw [Server.handleChat, if_neg (not_size_gt packet)] at h
          dsimp only at h
          split at h
          · cases h
            exact inv
          · cases hown : (server.session s).ownPlayer with
            | none =>
              rw [hown] at h
              cases h
            | some p =>
              rw [hown] at h
              cases h
              exact inv
        · cases h
          exact inv

/-- So does `OnDisconnected`. -/
theorem room_onDisconnected (inv : SectorSearch.Inv server.room) (s : S) :
    SectorSearch.Inv (server.onDisconnected s).room := by
  cases hown : (server.session s).ownPlayer with
  | none =>
    rw [onDisconnected_of_none hown]
    exact inv
  | some p =>
    rw [onDisconnected_of_own hown]
    split
    · refine inv.setPlayer_of ?_ fun _ => rfl
      intro h
      cases h
    · exact inv

/-- So does `Disconnect`. -/
theorem room_disconnect (inv : SectorSearch.Inv st.server.room) (c : SessionClass) (s : S)
    (accepted : Bool) : SectorSearch.Inv (st.disconnect c s accepted).server.room := by
  rw [State.disconnect]
  split
  · exact inv
  · split
    · exact inv
    · cases c with
      | rio =>
        have hflag : SectorSearch.Inv (st.setDisconnected s).server.room := inv
        exact room_onDisconnected hflag s
      | iocp => exact inv

/-- So does every job. -/
theorem room_runZoneJob (inv : SectorSearch.Inv server.room) {job : ZoneJob S}
    (h : server.runZoneJob job = .ok server') : SectorSearch.Inv server'.room := by
  cases job with
  | movePlayer p =>
    obtain ⟨room, out, hcall, rfl⟩ := inRoom_eq_ok h
    exact SectorSearch.inv_movePlayer inv hcall
  | chat p text =>
    cases send_eq_ok h
    exact inv

/-- Every step keeps the sectors in order. -/
theorem room_step (inv : Inv st) {a : Action S} (h : step parser c st a = some st') :
    SectorSearch.Inv st'.server.room := by
  obtain ⟨hreg, hroom⟩ := inv
  obtain ⟨-, hact⟩ := step_eq_some.mp h
  cases a with
  | receive t packets =>
    rw [State.act] at hact
    split at hact <;> cases hact
    exact hroom
  | packet t inputs =>
    obtain ⟨-, packet, rest, -, hafter⟩ := packet_eq_some hact
    rcases after_eq_some hafter with ⟨result, hresult, rfl⟩ | ⟨-, rfl⟩
    · exact room_handlePacket hroom (hreg.next_new t).1 hresult
    · exact hroom
  | leave t accepted =>
    rw [State.act] at hact
    split at hact <;> cases hact
    exact room_disconnect hroom c t accepted
  | disconnect t accepted =>
    rw [State.act] at hact
    split at hact <;> cases hact
    exact room_disconnect hroom c t accepted
  | processDisconnect t =>
    rw [State.act] at hact
    split at hact <;> cases hact
    exact room_onDisconnected hroom t
  | runRoom =>
    obtain ⟨job, rest, -, hafter⟩ := runRoom_eq_some hact
    rcases after_eq_some hafter with ⟨value, hresult, rfl⟩ | ⟨-, rfl⟩
    · cases job with
      | none => cases hresult
      | some p =>
        obtain ⟨room', out, hlogout, rfl⟩ := inRoom_eq_ok hresult
        exact SectorSearch.inv_logout hroom hlogout
    · exact hroom
  | runZone zone =>
    obtain ⟨job, rest, -, hafter⟩ := runZone_eq_some hact
    rcases after_eq_some hafter with ⟨value, hresult, rfl⟩ | ⟨-, rfl⟩
    · refine room_runZoneJob ?_ hresult
      exact hroom
    · exact hroom

/-- Every step keeps the invariants. -/
theorem inv_step (inv : Inv st) {a : Action S} (h : step parser c st a = some st') : Inv st' :=
  ⟨inv_perform inv.registry (view_step h), room_step inv h⟩

omit [DecidableEq S] in
/-- Nobody has logged in yet. -/
theorem inv_init {player : PlayerPtr S → Player (PlayerPtr S)} (hfresh : ∀ p, (player p).Fresh) :
    Inv (init player) := by
  have hroom : SectorSearch.Inv (init player).server.room := SectorSearch.inv_new hfresh
  refine ⟨⟨fun p hp => ?_, fun p hp => ?_, fun t p hp => ?_, fun p hp => ?_, fun p hp => ?_,
    fun t ht => ?_⟩, hroom⟩
  · exact (UnorderedSet.not_mem_empty hp).elim
  · exact (List.not_mem_nil hp).elim
  · cases hp
  · exact hroom.connected p hp
  · exact fun _ => (UnorderedSet.not_mem_empty hp).elim
  · cases ht

omit [DecidableEq S] in
/-- The sectors and the states say what `m_players` says. -/
theorem noGhost_iff (inv : Inv st) : NoGhost st s ↔ ∀ p, p ∈ st.server.room.players → p.1 ≠ s := by
  constructor
  · exact fun h => h.players
  · intro hplayers
    refine ⟨fun idx p hp => hplayers p ((inv.room.mem_sectors idx p).mp hp).1, hplayers,
      fun p howner => ?_⟩
    cases hstate : (st.server.room.player p).state with
    | connected => exact (hplayers p (inv.room.connected p (decide_eq_true hstate)) howner).elim
    | disconnected => rfl

end Steps

end System

/-- At the end of every run in which the jobs of the room have all been executed, no
player of a session is left, in the sectors, in `m_players` or in the state connected,
exactly if every `C2S_LOGIN` handled on the session was followed, before the next one
and before the end, by a `C2S_LOGOUT` handled or by `OnDisconnected`. -/
theorem noGhost_iff_matched {S : Type*} [DecidableEq S] {parser : Parser} {c : SessionClass}
    {player : PlayerPtr S → Player (PlayerPtr S)} (hfresh : ∀ p, (player p).Fresh)
    {actions : List (Action S)} {st : State S}
    (hr : run (step parser c) (init player) actions = some st)
    (hdone : st.server.roomJobs = []) (s : S) :
    NoGhost st s ↔ StepsMeet (step parser c) (LoginsMatched c s) (init player) actions ∧
      st.unmatched s = false := by
  have inv : Inv st := run_preserves (fun _ _ _ inv (_ : True) h => inv_step inv h)
    (inv_init hfresh) stepsMeet_true hr
  rw [noGhost_iff inv]
  constructor
  · intro hnone
    have hor : StepsMeet (step parser c) (LoginsMatched c s) (init player) actions ∨
        Abandoned s st.view :=
      stepsMeet_or_of_kept (fun _ _ _ inv h => inv_step inv h)
        (fun _ _ _ inv hnot h => abandoned_of_login inv.registry hnot (view_step h))
        (fun _ _ _ inv hab h => abandoned_perform inv.registry hab (view_step h))
        (inv_init hfresh) hr
    constructor
    · refine hor.resolve_right ?_
      rintro ⟨p, howner, hp, -⟩
      exact hnone p hp howner
    · cases hun : st.unmatched s with
      | false => rfl
      | true =>
        obtain ⟨p, howner, hp⟩ := inv.registry.unmatched_player hun
        exact (hnone p hp howner).elim
  · rintro ⟨hmatched, hun⟩
    have hinit : Inv (init player) ∧ Covered s (init player).view :=
      ⟨inv_init hfresh, fun p hp => (UnorderedSet.not_mem_empty hp).elim⟩
    have hstep : ∀ (st : State S) (a : Action S) (st' : State S), Inv st ∧ Covered s st.view →
        LoginsMatched c s st a → step parser c st a = some st' → Inv st' ∧ Covered s st'.view :=
      fun _ _ _ hinv hok h =>
        ⟨inv_step hinv.1 h, covered_perform hinv.1.registry hinv.2 hok (view_step h)⟩
    exact (run_preserves hstep hinit hmatched hr).2.gone hdone hun

/-- A client logs in and out, and the logout is executed before `Disconnect` is called. -/
def visit : List (Action Unit) :=
  [.receive () [emptyPacket .c2sLogin, emptyPacket .c2sLogout],
    .packet () (inputsAt 0), .packet () (inputsAt 0), .runRoom, .leave () true]

/-- No player is left. -/
theorem noGhost_visit : ∃ st : State Unit,
    run (step shortParser .rio) (init noPlayer) visit = some st ∧
      (st.server.session ()).connected = false ∧ NoGhost st () := by
  have h : ((run (step shortParser .rio) (init noPlayer) visit).any fun st =>
      (st.server.session ()).connected = false ∧ st.server.roomJobs = [] ∧
        st.unmatched () = false) = true := by
    decide +kernel
  obtain ⟨st, hr, hview⟩ := (Option.any_eq_true _ _).mp h
  obtain ⟨hconnected, hdone, hun⟩ := of_decide_eq_true hview
  exact ⟨st, hr, hconnected,
    (noGhost_iff_matched (fun p => ⟨rfl, rfl⟩) hr hdone ()).mpr ⟨by decide +kernel, hun⟩⟩

/-- A client logs in twice and its session ends. -/
def secondLogin : List (Action Unit) :=
  [.receive () [emptyPacket .c2sLogin, emptyPacket .c2sLogin],
    .packet () (inputsAt 0), .packet () (inputsAt 0), .disconnect () true, .runRoom]

/-- The first of the two players stays in the room, connected. -/
theorem ghost_of_secondLogin : ∃ st : State Unit,
    run (step shortParser .rio) (init noPlayer) secondLogin = some st ∧
      (st.server.session ()).connected = false ∧ st.server.roomJobs = [] ∧
      ((), 1) ∈ st.server.room.players ∧ ¬ NoGhost st () := by
  have h : ((run (step shortParser .rio) (init noPlayer) secondLogin).any fun st =>
      (st.server.session ()).connected = false ∧ st.server.roomJobs = [] ∧
        ((), 1) ∈ st.server.room.players) = true := by
    decide +kernel
  obtain ⟨st, hr, hview⟩ := (Option.any_eq_true _ _).mp h
  obtain ⟨hconnected, hdone, hplayer⟩ := of_decide_eq_true hview
  exact ⟨st, hr, hconnected, hdone, hplayer, fun hno => hno.players _ hplayer rfl⟩

/-- In every run in which no session queues the logout of a player twice, the counter
is the number of players in every state. -/
theorem loginCnt_exact {S : Type*} [DecidableEq S] {parser : Parser} {c : SessionClass}
    {player : PlayerPtr S → Player (PlayerPtr S)} (hfresh : ∀ p, (player p).Fresh)
    {st : State S} (h : ReachableVia (step parser c) (LogoutsOnce c) (init player) st) :
    st.server.room.loginCnt = st.server.room.players.elems.length := by
  have hinit : Inv (init player) ∧ Exact (init player).view :=
    ⟨inv_init hfresh, rfl, fun p => Nat.zero_le 1, fun p hp => (List.not_mem_nil hp).elim⟩
  have hstep : ∀ (st : State S) (a : Action S) (st' : State S), Inv st ∧ Exact st.view →
      LogoutsOnce c st a → step parser c st a = some st' → Inv st' ∧ Exact st'.view :=
    fun _ _ _ hinv hok h =>
      ⟨inv_step hinv.1 h, exact_perform hinv.1.registry hinv.2 hok (view_step h)⟩
  obtain ⟨actions, hr, hok⟩ := h
  exact (run_preserves hstep hinit hok hr).2.loginCnt_eq

/-- It is when the logout is executed before `Disconnect` is called. -/
theorem loginCnt_exact_visit : ∃ st : State Unit,
    run (step shortParser .rio) (init noPlayer) visit = some st ∧
      st.server.room.loginCnt = st.server.room.players.elems.length := by
  have h : (run (step shortParser .rio) (init noPlayer) visit).isSome = true := by
    decide +kernel
  obtain ⟨st, hr⟩ := Option.isSome_iff_exists.mp h
  exact ⟨st, hr, loginCnt_exact (fun p => ⟨rfl, rfl⟩) ⟨visit, hr, by decide +kernel⟩⟩

/-- `Disconnect` runs before the logout that `Handle_LOGOUT` has queued: the player is
logged out twice. -/
theorem loginCnt_negative : ∃ st : State Unit,
    run (step shortParser .rio) (init noPlayer)
      [.receive () [emptyPacket .c2sLogin, emptyPacket .c2sLogout],
        .packet () (inputsAt 0), .packet () (inputsAt 0), .leave () true, .runRoom,
        .runRoom] = some st ∧
    st.server.room.loginCnt = -1 ∧ st.server.room.players.elems.length = 0 := by
  have h : ((run (step shortParser .rio) (init noPlayer)
      [.receive () [emptyPacket .c2sLogin, emptyPacket .c2sLogout],
        .packet () (inputsAt 0), .packet () (inputsAt 0), .leave () true, .runRoom,
        .runRoom]).any fun st =>
      st.server.room.loginCnt = -1 ∧ st.server.room.players.elems.length = 0) = true := by
    decide +kernel
  obtain ⟨st, hr, hview⟩ := (Option.any_eq_true _ _).mp h
  exact ⟨st, hr, of_decide_eq_true hview⟩

end RioIocpServer.PlayerLifetime
