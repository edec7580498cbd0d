import RioIocpServer.MessageDelivery

/-!
# What clients and server agree on

With clients that behave as the dummy clients do, the checks of both packet handlers
never fail: every position carries the id of its session and every answer that of its
client. A session logs in at most once, so the counter of the room is exact in every
state and nothing is left of a session that has forgotten its player once all jobs of
the room are done. As long as nobody disconnects, every session that has logged in
has its player, and no null player is ever used.
-/

namespace RioIocpServer.LoginSafety

open TransitionSystem Contents PacketHandler PlayerRegistry ServerRun LoginProtocol

variable {S : Type*} [DecidableEq S] {parser : Parser} {c : SessionClass}

/-- What a single login of each session means for the registry. -/
structure Once (r : Registry S) : Prop where
  /-- A session that remembers a player has an unmatched login. -/
  own : ∀ s, r.own s ≠ none → r.unmatched s = true
  /-- Every player of a session is remembered or about to be logged out. -/
  covered : ∀ s, Covered s r
  /-- The counter is exact. -/
  exact : Exact r

/-- It is kept by logins that are the first and by ends of sessions. -/
theorem once_perform {r r' : Registry S} (inv : PlayerRegistry.Inv r) (once : Once r)
    {event : Event S} (hlogin : ∀ s, event = .login s → r.unmatched s = false)
    (hlogout : ∀ s, event ≠ .logout s) (h : perform r event = some r') : Once r' := by
  refine ⟨fun s => ?_, fun s => ?_, ?_⟩
  · cases event with
    | login t =>
      cases h
      intro hown
      show Function.update r.unmatched t true s = true
      by_cases hs : s = t
      · rw [hs, Function.update_self]
      · have hold : Function.update r.own t (some (r.next t)) s ≠ none := hown
        rw [Function.update_of_ne hs] at hold
        rw [Function.update_of_ne hs]
        exact once.own s hold
    | logout t => exact (hlogout t rfl).elim
    | ended t =>
      cases h
      intro hown
      have hold : Function.update r.own t none s ≠ none := hown
      show Function.update r.unmatched t false s = true
      by_cases hs : s = t
      · rw [hs, Function.update_self] at hold
        exact (hold rfl).elim
      · rw [Function.update_of_ne hs] at hold
        rw [Function.update_of_ne hs]
        exact once.own s hold
    | run =>
      obtain ⟨p, rest, -, rfl⟩ := perform_run_eq_some.mp h
      exact once.own s
    | idle =>
      cases h
      exact once.own s
  · refine covered_perform inv (once.covered s) ?_ h
    cases event with
    | login t => exact fun hts => hts ▸ hlogin t rfl
    | logout t => trivial
    | ended t => trivial
    | run => trivial
    | idle => trivial
  · refine exact_perform inv once.exact ?_ h
    cases event with
    | logout t => exact (hlogout t rfl).elim
    | ended t =>
      intro p hp _
      exact once.own t (by rw [hp]; exact Option.some_ne_none p)
    | login t => trivial
    | run => trivial
    | idle => trivial

/-- A step of the server that logs nobody in: ids stay, and nobody is connected again. -/
structure Keeps (st st' : ServerRun.State S) : Prop where
  /-- The ids of the sessions stay. -/
  sessionId : ∀ s, (st'.server.session s).sessionId = (st.server.session s).sessionId
  /-- No session is connected that was not. -/
  connected : ∀ s, (st.server.session s).connected = false →
    (st'.server.session s).connected = false
  /-- No packet is handed out. -/
  packets : st'.packets = st.packets
  /-- No logout begins. -/
  leaving : st'.leaving = st.leaving
  /-- No job is queued in a zone. -/
  zoneJobs : ∀ zone job, job ∈ st'.server.zoneJobs zone → job ∈ st.server.zoneJobs zone
  /-- The number of logins stays. -/
  sessionCnt : st'.server.sessionCnt = st.server.sessionCnt
  /-- No login is left unmatched that was not. -/
  unmatched : ∀ s, st.unmatched s = false → st'.unmatched s = false

section Keeping

variable {st st' : ServerRun.State S}

omit [DecidableEq S] in
/-- Nothing the sessions and the queues of the zones are about has changed. -/
theorem Keeps.of_eq (hsession : st'.server.session = st.server.session)
    (hpackets : st'.packets = st.packets) (hleaving : st'.leaving = st.leaving)
    (hzone : st'.server.zoneJobs = st.server.zoneJobs)
    (hcnt : st'.server.sessionCnt = st.server.sessionCnt)
    (hunmatched : st'.unmatched = st.unmatched) : Keeps st st' :=
  ⟨fun s => by rw [hsession], fun s h => by rwa [hsession], hpackets, hleaving,
    fun zone job h => by rwa [hzone] at h, hcnt, fun s h => by rwa [hunmatched]⟩

omit [DecidableEq S] in
theorem Keeps.trans {st'' : ServerRun.State S} (h : Keeps st st') (h' : Keeps st' st'') :
    Keeps st st'' :=
  ⟨fun s => (h'.sessionId s).trans (h.sessionId s),
    fun s hs => h'.connected s (h.connected s hs), h'.packets.trans h.packets,
    h'.leaving.trans h.leaving, fun zone job hj => h.zoneJobs zone job (h'.zoneJobs zone job hj),
    h'.sessionCnt.trans h.sessionCnt, fun s hs => h'.unmatched s (h.unmatched s hs)⟩

/-- One session changes and keeps its id. -/
theorem keeps_setSession (st : ServerRun.State S) {s : S} {session : Session S}
    (hid : session.sessionId = (st.server.session s).sessionId)
    (hconnected : (st.server.session s).connected = false → session.connected = false) :
    Keeps st { st with server := st.server.setSession s session } := by
  refine ⟨fun t => ?_, fun t ht => ?_, rfl, rfl, fun _ _ h => h, rfl, fun _ h => h⟩
  · show (Function.update st.server.session s session t).sessionId = _
    by_cases hts : t = s
    · rw [hts, Function.update_self, hid]
    · rw [Function.update_of_ne hts]
  · show (Function.update st.server.session s session t).connected = false
    by_cases hts : t = s
    · rw [hts] at ht
      rw [hts, Function.update_self]
      exact hconnected ht
    · rw [Function.update_of_ne hts]
      exact ht

/-- A login that is matched. -/
theorem keeps_matched (st : ServerRun.State S) (s : S) :
    Keeps st { st with unmatched := Function.update st.unmatched s false } := by
  refine ⟨fun _ => rfl, fun _ h => h, rfl, rfl, fun _ _ h => h, rfl, fun t ht => ?_⟩
  show Function.update st.unmatched s false t = false
  by_cases hts : t = s
  · rw [hts, Function.update_self]
  · rw [Function.update_of_ne hts]
    exact ht

/-- `OnDisconnected` keeps the ids. -/
theorem keeps_onDisconnected (st : ServerRun.State S) (s : S) : Keeps st (st.onDisconnected s) := by
  cases hown : (st.server.session s).ownPlayer with
  | none =>
    rw [State.onDisconnected, onDisconnected_of_none hown]
    exact keeps_matched st s
  | some p =>
    have hforget : Keeps st { st with
        server := st.server.setSession s { st.server.session s with ownPlayer := none } } :=
      keeps_setSession st rfl fun h => h
    rw [State.onDisconnected, onDisconnected_of_own hown]
    split
    · exact (hforget.trans (keeps_matched _ s)).trans (.of_eq rfl rfl rfl rfl rfl rfl)
    · exact hforget.trans (keeps_matched _ s)

/-- `Disconnect` keeps the ids. -/
theorem keeps_disconnect (c : SessionClass) (st : ServerRun.State S) (s : S) (accepted : Bool) :
    Keeps st (st.disconnect c s accepted) := by
  have hflag : Keeps st (st.setDisconnected s) := keeps_setSession st rfl fun _ => rfl
  rw [State.disconnect]
  split
  · exact .of_eq rfl rfl rfl rfl rfl rfl
  · split
    · exact hflag
    · cases c with
      | rio => exact hflag.trans (keeps_onDisconnected _ s)
      | iocp => exact hflag.trans (.of_eq rfl rfl rfl rfl rfl rfl)

/-- A job of the room keeps the ids. -/
theorem keeps_runRoom (h : st.act parser c .runRoom = some st') : Keeps st st' := by
  obtain ⟨job, rest, -, hafter⟩ := runRoom_eq_some h
  rcases after_eq_some hafter with ⟨value, hresult, rfl⟩ | ⟨-, rfl⟩
  · cases job with
    | none => cases hresult
    | some p =>
      obtain ⟨room, out, -, rfl⟩ := inRoom_eq_ok hresult
      exact .of_eq rfl rfl rfl rfl rfl rfl
  · exact .of_eq rfl rfl rfl rfl rfl rfl

/-- A job of a zone keeps the ids. -/
theorem keeps_runZone {zone : ℤ × ℤ} (h : st.act parser c (.runZone zone) = some st') :
    Keeps st st' := by
  obtain ⟨job, rest, hjobs, hafter⟩ := runZone_eq_some h
  have hrest : Keeps st { st with server := { st.server with
      zoneJobs := Function.update st.server.zoneJobs zone rest } } := by
    refine ⟨fun _ => rfl, fun _ h => h, rfl, rfl, fun z other hother => ?_, rfl, fun _ h => h⟩
    change other ∈ Function.update st.server.zoneJobs zone rest z at hother
    by_cases hz : z = zone
    · rw [hz, Function.update_self] at hother
      rw [hz, hjobs]
      exact List.mem_cons_of_mem job hother
    · rwa [Function.update_of_ne hz] at hother
  rcases after_eq_some hafter with ⟨value, hresult, rfl⟩ | ⟨-, rfl⟩
  · refine hrest.trans ?_
    cases job with
    | movePlayer p =>
      obtain ⟨room, out, -, rfl⟩ := inRoom_eq_ok hresult
      exact .of_eq rfl rfl rfl rfl rfl rfl
    | chat p text =>
      rw [send_eq_ok hresult]
      exact .of_eq rfl rfl rfl rfl rfl rfl
  · exact .of_eq rfl rfl rfl rfl rfl rfl

end Keeping

/-- The ids of the sessions of a server. -/
structure Ids (st : ServerRun.State S) : Prop where
  /-- The number of logins is one. -/
  nonneg : 0 ≤ st.server.sessionCnt
  /-- It has not overflowed. -/
  bounded : st.server.sessionCnt < 2 ^ 31
  /-- An id is 0 or was given to a login. -/
  given : ∀ s, (st.server.session s).sessionId ≤ st.server.sessionCnt
  /-- No id was given twice. -/
  distinct : ∀ s t, 0 < (st.server.session s).sessionId →
    (st.server.session s).sessionId = (st.server.session t).sessionId → s = t
  /-- A session without an id has no login. -/
  new : ∀ s, (st.server.session s).sessionId = 0 → st.unmatched s = false
  /-- A session whose player moves has an id. -/
  jobs : ∀ zone p, ZoneJob.movePlayer p ∈ st.server.zoneJobs zone →
    0 < (st.server.session p.1).sessionId
  /-- No session has asked for a logout. -/
  stays : ∀ s, st.leaving s = false

/-- The system is in order. -/
structure Inv (parser : Parser) (st : LoginProtocol.State S) : Prop where
  /-- The registry and the room. -/
  server : PlayerLifetime.Inv st.server
  /-- Every session logs in once. -/
  once : Once st.server.view
  /-- The ids. -/
  ids : Ids st.server
  /-- The clients. -/
  stage : ∀ s, Stage parser (st.client s) (st.server.server.session s).sessionId
    (st.server.server.session s).connected (st.server.packets s ++ st.toServer s) (st.toClient s)
  /-- No client has refused a message. -/
  accepts : ∀ s, (st.client s).refused = false

section Serving

variable {st : LoginProtocol.State S} {server : ServerRun.State S} {s t : S}
variable {frame : Frame} {rest : List Frame} {inputs : Inputs} {result : Handled S}

omit [DecidableEq S] in
/-- A step that keeps the ids keeps what is known about them. -/
theorem Ids.keep {before after : ServerRun.State S} (ids : Ids before)
    (hkeeps : Keeps before after) : Ids after := by
  refine ⟨?_, ?_, fun u => ?_, fun u v => ?_, fun u hu => ?_, fun zone p hp => ?_, fun u => ?_⟩
  · rw [hkeeps.sessionCnt]
    exact ids.nonneg
  · rw [hkeeps.sessionCnt]
    exact ids.bounded
  · rw [hkeeps.sessionId, hkeeps.sessionCnt]
    exact ids.given u
  · rw [hkeeps.sessionId, hkeeps.sessionId]
    exact ids.distinct u v
  · rw [hkeeps.sessionId] at hu
    exact hkeeps.unmatched u (ids.new u hu)
  · rw [hkeeps.sessionId]
    exact ids.jobs zone p (hkeeps.zoneJobs zone _ hp)
  · rw [hkeeps.leaving]
    exact ids.stays u

/-- Neither a login nor a logout. -/
def Quiet : Event S → Prop
  | .login _ => False
  | .logout _ => False
  | _ => True

omit [DecidableEq S] in
/-- `Disconnect` is neither. -/
theorem quiet_disconnectEvent (c : SessionClass) (before : ServerRun.State S) (s : S)
    (accepted : Bool) : Quiet (before.disconnectEvent c s accepted) := by
  rw [State.disconnectEvent]
  split <;> trivial

/-- What a step sends that logs nobody in. -/
structure Fitting (sessionId : ℤ) (reply : Reply S) : Prop where
  /-- A client that has logged in does not refuse it. -/
  answers : Answers sessionId reply
  /-- Results of positions follow a login. -/
  ignored : sessionId = 0 → Ignored reply

/-- A step of the server that logs nobody in keeps the system in order. -/
theorem Inv.keep (inv : Inv parser st) {a : ServerRun.Action S}
    (hstep : ServerRun.step parser c st.server a = some server)
    (hquiet : Quiet (st.server.event c a)) (hkeeps : Keeps st.server server)
    (hfitting : ∀ s, ∀ m ∈ replies server.server (out parser st.server a) s,
      Fitting (st.server.server.session s).sessionId m) :
    Inv parser { st with
      server := server
      toClient := fun s => st.toClient s ++ replies server.server (out parser st.server a) s } := by
  refine ⟨PlayerLifetime.inv_step inv.server hstep, ?_, inv.ids.keep hkeeps, fun u => ?_,
    inv.accepts⟩
  · refine once_perform inv.server.registry inv.once (fun u hu => ?_) (fun u hu => ?_)
      (view_step hstep)
    · rw [hu] at hquiet
      exact hquiet.elim
    · rw [hu] at hquiet
      exact hquiet.elim
  · show Stage parser (st.client u) (server.server.session u).sessionId
      (server.server.session u).connected (server.packets u ++ st.toServer u) _
    rw [hkeeps.sessionId, hkeeps.packets]
    have hclosed : (server.server.session u).connected = false →
        replies server.server (out parser st.server a) u = [] := fun h => if_pos h
    have hstage : Stage parser (st.client u) (st.server.server.session u).sessionId
        (server.server.session u).connected (st.server.packets u ++ st.toServer u)
        (st.toClient u) := by
      cases hafter : (server.server.session u).connected with
      | false => exact (inv.stage u).disconnect
      | true =>
        have hbefore : (st.server.server.session u).connected = true := by
          by_contra hfalse
          rw [hkeeps.connected u (Bool.eq_false_of_not_eq_true hfalse)] at hafter
          cases hafter
        rw [← hbefore]
        exact inv.stage u
    exact hstage.append (fun m hm => (hfitting u m hm).answers)
      (fun hzero m hm => (hfitting u m hm).ignored hzero) hclosed

/-- What a job of a zone sends: no answers to logins, and the result of a position only
to the player that has moved. -/
theorem zoneOut_message {before : Server S} {job : ZoneJob S}
    {m : PlayerPtr S × Message (PlayerPtr S)} (hm : m ∈ zoneOut before job) :
    (∀ result playerType, m.2 ≠ .loginResult result playerType) ∧
      (m.2 = .moveResult → job = .movePlayer m.1) := by
  cases job with
  | chat p text =>
    change m ∈ before.room.chat p text at hm
    rw [Room.chat] at hm
    split at hm
    · obtain ⟨target, -, rfl⟩ := List.mem_map.mp hm
      exact ⟨fun _ _ h => (by cases h), fun h => (by cases h)⟩
    · exact (List.not_mem_nil hm).elim
  | movePlayer p =>
    change m ∈ ((before.room.movePlayer p).map Prod.snd).getD [] at hm
    cases hcall : before.room.movePlayer p with
    | none =>
      rw [hcall] at hm
      exact (List.not_mem_nil hm).elim
    | some called =>
      obtain ⟨room', sent⟩ := called
      rw [hcall] at hm
      change m ∈ sent at hm
      by_cases hvalid : (before.room.player p).isValidPlayer = true
      · obtain ⟨moved, -, -, rfl⟩ := SectorSearch.movePlayer_eq_some hvalid hcall
        rcases List.mem_append.mp hm with hm | hm
        · have hother : (∀ result playerType, m.2 ≠ .loginResult result playerType) ∧
              m.2 ≠ .moveResult := by
            rcases List.mem_append.mp hm with hm | hm
            · obtain ⟨target, -, hm⟩ := List.mem_flatMap.mp hm
              rw [Room.moveMessages] at hm
              split at hm <;> split at hm <;> simp at hm <;> rcases hm with rfl | rfl <;> simp
            · obtain ⟨target, -, hm⟩ := List.mem_flatMap.mp hm
              rw [Room.leaveMessages] at hm
              split at hm <;> simp at hm <;> rcases hm with rfl | rfl <;> simp
          exact ⟨hother.1, fun h => (hother.2 h).elim⟩
        · rw [List.mem_singleton.mp hm]
          exact ⟨fun _ _ h => (by cases h), fun _ => rfl⟩
      · rw [Room.movePlayer, if_neg hvalid] at hcall
        cases hcall
        exact (List.not_mem_nil hm).elim

/-- A message that is sent to a client. -/
theorem mem_replies {after : Server S} {calls : List (PlayerPtr S × Message (PlayerPtr S))}
    {reply : Reply S} (h : reply ∈ replies after calls s) :
    ∃ m ∈ calls, m.1.1 = s ∧ reply = ((after.session s).sessionId, m.2) := by
  rw [replies] at h
  split at h
  · exact (List.not_mem_nil h).elim
  · obtain ⟨m, hm, rfl⟩ := List.mem_map.mp h
    obtain ⟨hmem, hsends⟩ := List.mem_filter.mp hm
    exact ⟨m, hmem, of_decide_eq_true (Bool.and_eq_true_iff.mp hsends).1, rfl⟩

/-- Nothing is sent to anybody. -/
theorem replies_nil (after : Server S) (s : S) : replies after [] s = [] := by
  rw [replies]
  split <;> rfl

/-- What a job of a zone sends fits every client. -/
theorem fitting_runZone (ids : Ids st.server) {zone : ℤ × ℤ} {after : Server S}
    (hsession : (after.session s).sessionId = (st.server.server.session s).sessionId)
    {reply : Reply S} (h : reply ∈ replies after (out parser st.server (.runZone zone)) s) :
    Fitting (st.server.server.session s).sessionId reply := by
  obtain ⟨m, hm, howner, rfl⟩ := mem_replies h
  rw [out] at hm
  cases hjobs : st.server.server.zoneJobs zone with
  | nil =>
    rw [hjobs] at hm
    exact (List.not_mem_nil hm).elim
  | cons job rest =>
    rw [hjobs] at hm
    obtain ⟨hlogin, hmove⟩ := zoneOut_message hm
    rw [hsession]
    obtain ⟨target, message⟩ := m
    cases message with
    | loginResult result playerType => exact (hlogin result playerType rfl).elim
    | moveResult =>
      refine ⟨rfl, fun hzero => ?_⟩
      have hpos := ids.jobs zone target
        (by rw [hjobs, ← hmove rfl]; exact List.mem_cons_self)
      rw [howner, hzero] at hpos
      exact (lt_irrefl 0 hpos).elim
    | _ => exact ⟨trivial, fun _ => trivial⟩

/-- The ids after a login. -/
theorem Ids.loggedIn (ids : Ids st.server) {pkt : C2SLogin} {refuses : Bool}
    (hnext : st.server.server.sessionCnt ≠ 2 ^ 31 - 1) :
    Ids (st.server.handled s frame rest
      ⟨ServerRun.loggedIn st.server.server inputs s pkt, refuses, false⟩) := by
  have hcnt := ids.nonneg
  have hbounded := ids.bounded
  have hself : ((ServerRun.loggedIn st.server.server inputs s pkt).session s).sessionId =
      st.server.server.sessionCnt + 1 := by
    show (Function.update st.server.server.session s _ s).sessionId = _
    rw [Function.update_self]
  have hother : ∀ u, u ≠ s → ((ServerRun.loggedIn st.server.server inputs s pkt).session u) =
      st.server.server.session u := fun u hu => Function.update_of_ne hu ..
  refine ⟨?_, ?_, fun u => ?_, fun u v hu huv => ?_, fun u hu => ?_, fun zone p hp => ?_,
    fun u => ?_⟩
  · show 0 ≤ st.server.server.sessionCnt + 1
    omega
  · show st.server.server.sessionCnt + 1 < 2 ^ 31
    omega
  · show ((ServerRun.loggedIn st.server.server inputs s pkt).session u).sessionId ≤
      st.server.server.sessionCnt + 1
    by_cases hu : u = s
    · rw [hu, hself]
    · rw [hother u hu]
      have hle := ids.given u
      omega
  · change 0 < ((ServerRun.loggedIn st.server.server inputs s pkt).session u).sessionId at hu
    change ((ServerRun.loggedIn st.server.server inputs s pkt).session u).sessionId =
      ((ServerRun.loggedIn st.server.server inputs s pkt).session v).sessionId at huv
    by_cases hus : u = s
    · by_cases hvs : v = s
      · rw [hus, hvs]
      · rw [hus, hself, hother v hvs] at huv
        have hle := ids.given v
        omega
    · rw [hother u hus] at hu huv
      by_cases hvs : v = s
      · rw [hvs, hself] at huv
        have hle := ids.given u
        omega
      · rw [hother v hvs] at huv
        exact ids.distinct u v hu huv
  · change ((ServerRun.loggedIn st.server.server inputs s pkt).session u).sessionId = 0 at hu
    show Function.update st.server.unmatched s _ u = false
    by_cases hus : u = s
    · rw [hus, hself] at hu
      omega
    · rw [hother u hus] at hu
      rw [Function.update_of_ne hus]
      exact ids.new u hu
  · have hold := ids.jobs zone p hp
    show 0 < ((ServerRun.loggedIn st.server.server inputs s pkt).session p.1).sessionId
    by_cases hps : p.1 = s
    · rw [hps, hself]
      omega
    · rw [hother p.1 hps]
      exact hold
  · show Function.update st.server.leaving s false u = false
    by_cases hus : u = s
    · rw [hus, Function.update_self]
    · rw [Function.update_of_ne hus]
      exact ids.stays u

/-- What a login sends. -/
theorem loginOut_eq (before : Server S) (parser : Parser) (inputs : Inputs) (s : S)
    (packet : List UInt8) : loginOut before parser inputs s packet =
      [((s, before.sessionCnt + 1),
        .loginResult true (parser.login (packet.drop PacketHeader.sizeOf)).2.playerType)] := by
  have hlogin := login_created before inputs s
    (parser.login (packet.drop PacketHeader.sizeOf)).2
  simp only [createdPlayer] at hlogin
  simp only [loginOut, hlogin]
  rfl

/-- A step of the server that handles a login. -/
theorem Inv.loggedIn (inv : Inv parser st) (hpackets : st.server.packets s = frame :: rest)
    (hframe : IsLogin frame) (hzero : (st.server.server.session s).sessionId = 0)
    (hstep : ServerRun.step parser c st.server (.packet s inputs) = some server)
    (hresult : st.server.server.handlePacket parser inputs s frame.bytes = .ok result)
    (hserver : server = st.server.handled s frame rest result) :
    Inv parser { st with
      server := server
      toClient := fun u => st.toClient u ++
        replies server.server (out parser st.server (.packet s inputs)) u } := by
  have hid : (PacketHeader.ofBytes frame.bytes).id = ProtoId.c2sLogin.value := hframe
  have hevent : st.server.event c (.packet s inputs) = .login s := by
    simp only [State.event, hpackets, packetEvent]
    rw [if_pos hid]
  have hout : out parser st.server (.packet s inputs) =
      [((s, st.server.server.sessionCnt + 1), .loginResult true
        (parser.login (frame.bytes.drop PacketHeader.sizeOf)).2.playerType)] := by
    simp only [out, hpackets]
    rw [if_pos hid, loginOut_eq]
  simp only [Server.handlePacket] at hresult
  rw [if_pos hid, handleLogin_eq] at hresult
  split at hresult
  · cases hresult
  · rename_i hnext
    cases hresult
    refine ⟨PlayerLifetime.inv_step inv.server hstep, ?_, ?_, fun u => ?_, inv.accepts⟩
    · refine once_perform inv.server.registry inv.once (fun u hu => ?_) (fun u hu => ?_)
        (view_step hstep)
      · cases hevent.symm.trans hu
        exact inv.ids.new s hzero
      · cases hevent.symm.trans hu
    · rw [hserver]
      exact inv.ids.loggedIn hnext
    · have hstage := inv.stage u
      subst hserver
      rw [hout]
      by_cases hu : u = s
      · subst hu
        rw [hpackets, List.cons_append] at hstage
        have hreplied := hstage.loggedIn
          (parser.login (frame.bytes.drop PacketHeader.sizeOf)).2.playerType hzero
          (Int.lt_add_one_of_le inv.ids.nonneg)
        simpa [State.handled, ServerRun.loggedIn, replies, reachesSend, Server.usesNull]
          using hreplied
      · have hnone : ∀ x : PlayerPtr S × Message (PlayerPtr S), x.1.1 = s → ¬ (x.1.1 = u) :=
          fun x hx hxu => hu (hxu.symm.trans hx)
        simpa [State.handled, ServerRun.loggedIn, replies, Function.update_of_ne hu, Ne.symm hu]
          using hstage

theorem move_ne_login : ProtoId.c2sMove.value ≠ ProtoId.c2sLogin.value := by decide

theorem move_ne_logout : ProtoId.c2sMove.value ≠ ProtoId.c2sLogout.value := by decide

omit [DecidableEq S] in
/-- A position is neither a login nor a logout. -/
theorem packetEvent_move {sessionId : ℤ} (h : IsMove parser sessionId frame) :
    packetEvent s frame = .idle := by
  simp only [packetEvent, h.1]
  rw [if_neg move_ne_login, if_neg move_ne_logout]

/-- What `Handle_C2S_MOVE` does for a position with the id of the session. -/
structure Moved (before : Server S) (s : S) (after : Server S) (p : PlayerPtr S) : Prop where
  /-- The player is that of the session. -/
  own : (before.session s).ownPlayer = some p
  /-- The ids stay. -/
  sessionId : ∀ t, (after.session t).sessionId = (before.session t).sessionId
  /-- So do the connections. -/
  connected : ∀ t, (after.session t).connected = (before.session t).connected
  /-- A job for the player is queued. -/
  zoneJobs : ∀ zone job, job ∈ after.zoneJobs zone →
    job ∈ before.zoneJobs zone ∨ job = .movePlayer p
  /-- Nobody logs in. -/
  sessionCnt : after.sessionCnt = before.sessionCnt

/-- A handler of a position with the id of the session that returns has queued its job. -/
theorem handlePacket_move {before : Server S}
    (hmove : IsMove parser (before.session s).sessionId frame)
    (h : before.handlePacket parser inputs s frame.bytes = .ok result) :
    result.disconnects = false ∧ ∃ p, Moved before s result.server p := by
  simp only [Server.handlePacket, hmove.1] at h
  rw [if_neg move_ne_login, if_neg move_ne_logout, if_pos trivial, Server.handleC2SMove,
    if_neg (not_size_gt frame)] at h
  dsimp only at h
  rw [if_neg (not_not.mpr hmove.2)] at h
  cases hown : (before.session s).ownPlayer with
  | none =>
    rw [hown] at h
    cases h
  | some p =>
    rw [hown] at h
    cases h
    refine ⟨rfl, p, hown, fun t => ?_, fun t => ?_, fun zone job hjob => ?_, rfl⟩
    · show (Function.update before.session s _ t).sessionId = _
      by_cases hts : t = s
      · rw [hts, Function.update_self]
      · rw [Function.update_of_ne hts]
    · show (Function.update before.session s _ t).connected = _
      by_cases hts : t = s
      · rw [hts, Function.update_self]
      · rw [Function.update_of_ne hts]
    · change job ∈ Function.update before.zoneJobs _ _ zone at hjob
      generalize getPlayerZoneIdx _ = target at hjob
      by_cases hzone : zone = target
      · subst hzone
        rw [Function.update_self] at hjob
        rcases List.mem_append.mp hjob with hold | hnew
        · exact .inl hold
        · exact .inr (List.mem_singleton.mp hnew)
      · rw [Function.update_of_ne hzone] at hjob
        exact .inl hjob

/-- A step of the server that handles a position. -/
theorem Inv.moved (inv : Inv parser st) (hpackets : st.server.packets s = frame :: rest)
    (hmove : IsMove parser (st.server.server.session s).sessionId frame)
    (hpos : 0 < (st.server.server.session s).sessionId)
    (hstep : ServerRun.step parser c st.server (.packet s inputs) = some server)
    (hresult : st.server.server.handlePacket parser inputs s frame.bytes = .ok result)
    (hserver : server = st.server.handled s frame rest result) :
    Inv parser { st with
      server := server
      toClient := fun u => st.toClient u ++
        replies server.server (out parser st.server (.packet s inputs)) u } := by
  obtain ⟨hstays, p, hmoved⟩ := handlePacket_move hmove hresult
  have hevent : st.server.event c (.packet s inputs) = .idle := by
    simp only [State.event, hpackets]
    exact packetEvent_move hmove
  have hout : out parser st.server (.packet s inputs) = [] := by
    simp only [out, hpackets, hmove.1]
    rw [if_neg move_ne_login]
  have howner : p.1 = s := (inv.server.registry.owned s p hmoved.own).1
  refine ⟨PlayerLifetime.inv_step inv.server hstep, ?_, ?_, fun u => ?_, inv.accepts⟩
  · refine once_perform inv.server.registry inv.once (fun u hu => ?_) (fun u hu => ?_)
      (view_step hstep)
    · cases hevent.symm.trans hu
    · cases hevent.symm.trans hu
  · subst hserver
    refine ⟨?_, ?_, fun u => ?_, fun u v => ?_, fun u hu => ?_, fun zone q hq => ?_, fun u => ?_⟩
    · exact hmoved.sessionCnt.symm ▸ inv.ids.nonneg
    · exact hmoved.sessionCnt.symm ▸ inv.ids.bounded
    · show (result.server.session u).sessionId ≤ result.server.sessionCnt
      rw [hmoved.sessionId, hmoved.sessionCnt]
      exact inv.ids.given u
    · show 0 < (result.server.session u).sessionId → (result.server.session u).sessionId =
        (result.server.session v).sessionId → u = v
      rw [hmoved.sessionId, hmoved.sessionId]
      exact inv.ids.distinct u v
    · change (result.server.session u).sessionId = 0 at hu
      rw [hmoved.sessionId] at hu
      show Function.update st.server.unmatched s (unmatchedAfter (st.server.unmatched s) frame) u =
        false
      have hsame : unmatchedAfter (st.server.unmatched s) frame = st.server.unmatched s := by
        simp only [unmatchedAfter, hmove.1]
        rw [if_neg move_ne_login, if_neg move_ne_logout]
      rw [hsame, Function.update_eq_self]
      exact inv.ids.new u hu
    · show 0 < (result.server.session q.1).sessionId
      rw [hmoved.sessionId]
      rcases hmoved.zoneJobs zone _ hq with hold | hnew
      · exact inv.ids.jobs zone q hold
      · cases hnew
        rw [howner]
        exact hpos
    · show Function.update st.server.leaving s result.disconnects u = false
      by_cases hus : u = s
      · rw [hus, Function.update_self, hstays]
      · rw [Function.update_of_ne hus]
        exact inv.ids.stays u
  · have hstage := inv.stage u
    subst hserver
    rw [hout]
    show Stage parser (st.client u) (result.server.session u).sessionId
      (result.server.session u).connected
      (Function.update st.server.packets s rest u ++ st.toServer u) _
    rw [hmoved.sessionId, hmoved.connected]
    show Stage parser _ _ _ _ (st.toClient u ++ replies _ [] u)
    rw [replies_nil, List.append_nil]
    by_cases hus : u = s
    · subst hus
      rw [hpackets, List.cons_append] at hstage
      rw [Function.update_self]
      exact hstage.moved hpos
    · rw [Function.update_of_ne hus]
      exact hstage

/-- Every packet that is handed out keeps the system in order. -/
theorem Inv.packet (inv : Inv parser st)
    (hstep : ServerRun.step parser c st.server (.packet s inputs) = some server) :
    Inv parser { st with
      server := server
      toClient := fun u => st.toClient u ++
        replies server.server (out parser st.server (.packet s inputs)) u } := by
  obtain ⟨-, hact⟩ := step_eq_some.mp hstep
  obtain ⟨-, frame, rest, hpackets, hafter⟩ := packet_eq_some hact
  have hstage := inv.stage s
  rw [hpackets, List.cons_append] at hstage
  rcases after_eq_some hafter with ⟨result, hresult, hserver⟩ | ⟨hnull, hserver⟩
  · rcases hstage.next with ⟨hframe, hzero⟩ | ⟨hmove, hpos⟩
    · exact inv.loggedIn hpackets hframe hzero hstep hresult hserver
    · exact inv.moved hpackets hmove hpos hstep hresult hserver
  · -- the player of the session was missing
    have hidle : packetEvent s frame = .idle := packetEvent_of_null hnull
    have hout : out parser st.server (.packet s inputs) = [] := by
      simp only [out, hpackets]
      refine if_neg fun hid => ?_
      simp only [packetEvent, if_pos hid] at hidle
      cases hidle
    refine inv.keep hstep ?_ ?_ fun u m hm => ?_
    · simp only [State.event, hpackets, hidle]
      trivial
    · rw [hserver]
      exact .of_eq rfl rfl rfl rfl rfl rfl
    · rw [hout, replies_nil] at hm
      exact (List.not_mem_nil hm).elim

/-- Every step of the server keeps the system in order. -/
theorem Inv.serve (inv : Inv parser st) {a : ServerRun.Action S} {st' : LoginProtocol.State S}
    (hreceive : ∀ s packets, a ≠ .receive s packets) (h : st.serve parser c a = some st') :
    Inv parser st' := by
  rw [State.serve, Option.map_eq_some_iff] at h
  obtain ⟨server, hstep, rfl⟩ := h
  obtain ⟨-, hact⟩ := step_eq_some.mp hstep
  -- only packets and the jobs of the zones send
  have hsilent : ∀ u, ∀ m ∈ replies server.server [] u,
      Fitting (st.server.server.session u).sessionId m := by
    intro u m hm
    rw [replies_nil] at hm
    exact (List.not_mem_nil hm).elim
  cases a with
  | receive t packets => exact (hreceive t packets rfl).elim
  | packet t inputs => exact inv.packet hstep
  | leave t accepted =>
    rw [State.act, if_neg (by rw [inv.ids.stays t]; exact Bool.false_ne_true)] at hact
    cases hact
  | disconnect t accepted =>
    rw [State.act] at hact
    split at hact <;> cases hact
    exact inv.keep hstep (quiet_disconnectEvent c st.server t accepted)
      (keeps_disconnect c st.server t accepted) hsilent
  | processDisconnect t =>
    rw [State.act] at hact
    split at hact <;> cases hact
    exact inv.keep hstep trivial
      ((keeps_onDisconnected st.server t).trans (.of_eq rfl rfl rfl rfl rfl rfl)) hsilent
  | runRoom =>
    refine inv.keep hstep ?_ (keeps_runRoom hact) hsilent
    rw [State.event]
    split <;> trivial
  | runZone zone =>
    have hkeeps := keeps_runZone hact
    exact inv.keep hstep trivial hkeeps
      fun u m hm => fitting_runZone inv.ids (hkeeps.sessionId u) hm

/-- A step of one client keeps the system in order if it keeps the client so. -/
theorem Inv.client (inv : Inv parser st) {st' : LoginProtocol.State S} {client : Client}
    {packets : List Frame} {messages : List (Reply S)} (hserver : st'.server = st.server)
    (hclient : st'.client = Function.update st.client s client)
    (hto : st'.toServer = Function.update st.toServer s packets)
    (hback : st'.toClient = Function.update st.toClient s messages)
    (hstage : Stage parser client (st.server.server.session s).sessionId
      (st.server.server.session s).connected (st.server.packets s ++ packets) messages)
    (haccepts : client.refused = false) : Inv parser st' := by
  refine ⟨hserver ▸ inv.server, hserver ▸ inv.once, hserver ▸ inv.ids, fun u => ?_, fun u => ?_⟩
  · rw [hserver, hclient, hto, hback]
    by_cases hu : u = s
    · subst hu
      rw [Function.update_self, Function.update_self, Function.update_self]
      exact hstage
    · rw [Function.update_of_ne hu, Function.update_of_ne hu, Function.update_of_ne hu]
      exact inv.stage u
  · rw [hclient]
    by_cases hu : u = s
    · rw [hu, Function.update_self]
      exact haccepts
    · rw [Function.update_of_ne hu]
      exact inv.accepts u

/-- So does a step that changes neither channel. -/
theorem Inv.client_only (inv : Inv parser st) {st' : LoginProtocol.State S} {client : Client}
    (hserver : st'.server = st.server)
    (hclient : st'.client = Function.update st.client s client)
    (hto : st'.toServer = st.toServer) (hback : st'.toClient = st.toClient)
    (hstage : Stage parser client (st.server.server.session s).sessionId
      (st.server.server.session s).connected (st.server.packets s ++ st.toServer s)
      (st.toClient s))
    (haccepts : client.refused = false) : Inv parser st' :=
  inv.client hserver hclient (hto.trans (Function.update_eq_self s st.toServer).symm)
    (hback.trans (Function.update_eq_self s st.toClient).symm) hstage haccepts

end Serving

section Runs

variable {ser : Serializer parser} {st st' : LoginProtocol.State S}

/-- The packet of a login is one. -/
theorem isLogin_loginFrame (n : Fin (2 ^ 31)) (playerType loginTime : ℤ) :
    IsLogin (loginFrame ser n playerType loginTime) :=
  (Prod.mk.inj (FrameRoundTrip.deliver_createNetBuffer
    (ser.login ⟨"test" ++ toString (n : ℕ), playerType, loginTime⟩) ProtoId.c2sLogin.value)).1

/-- The packet of a position carries the id that was written. -/
theorem isMove_moveFrame {sessionId : ℤ} (hnonneg : 0 ≤ sessionId) (hlt : sessionId < 2 ^ 31)
    (posInfo : PosInfo) (timeStamp : ℤ) :
    IsMove parser sessionId (moveFrame ser sessionId posInfo timeStamp) := by
  obtain ⟨hid, hpayload⟩ := Prod.mk.inj (FrameRoundTrip.deliver_createNetBuffer
    (ser.move ⟨sessionId, true, timeStamp, posInfo⟩) ProtoId.c2sMove.value)
  refine ⟨hid, ?_⟩
  show (parser.move ((createNetBuffer (ser.move ⟨sessionId, true, timeStamp, posInfo⟩)
    ProtoId.c2sMove.value).drop PacketHeader.sizeOf)).2.sessionId = sessionId
  rw [hpayload]
  exact ser.move_sessionId _ hnonneg hlt

/-- What `Send` of a client does with a packet: it is sent or dropped. -/
theorem send_toServer (st : LoginProtocol.State S) (s : S) (frame : Frame) :
    ∃ sent, (sent = [] ∨ sent = [frame]) ∧ st.send s frame =
      { st with toServer := Function.update st.toServer s (st.toServer s ++ sent) } := by
  rw [State.send]
  split
  · exact ⟨[], .inl rfl, by rw [List.append_nil, Function.update_eq_self]⟩
  · exact ⟨[frame], .inr rfl, rfl⟩

/-- Nobody has sent anything. -/
theorem inv_init {player : PlayerPtr S → Player (PlayerPtr S)} (hfresh : ∀ p, (player p).Fresh) :
    Inv parser (LoginProtocol.init player) := by
  have hserver := PlayerLifetime.inv_init hfresh
  refine ⟨hserver, ⟨fun s h => (h rfl).elim, fun s p hp => (UnorderedSet.not_mem_empty hp).elim,
    rfl, fun p => Nat.zero_le 1, fun p hp => (List.not_mem_nil hp).elim⟩, ?_, fun s => ?_,
    fun _ => rfl⟩
  · exact ⟨le_refl 0, Int.pow_pos (by decide), fun _ => le_refl 0, fun s t h => (lt_irrefl 0 h).elim,
      fun _ _ => rfl, fun _ p hp => (List.not_mem_nil hp).elim, fun _ => rfl⟩
  · exact .fresh ⟨rfl, rfl, rfl, fun h => (by cases h), fun h => (by cases h)⟩ rfl rfl
      fun m hm => (List.not_mem_nil hm).elim

/-- Every step keeps the system in order. -/
theorem inv_step (inv : Inv parser st) {a : LoginProtocol.Action S}
    (h : LoginProtocol.step ser c st a = some st') : Inv parser st' := by
  cases a with
  | onConnected s =>
    rw [LoginProtocol.step] at h
    split at h
    · cases h
    · rename_i hconnect
      cases h
      exact inv.client_only rfl rfl rfl rfl
        ((inv.stage s).onConnected (Bool.eq_false_of_not_eq_true hconnect)) (inv.accepts s)
  | sendPacket s =>
    simp only [LoginProtocol.step] at h
    split at h
    · cases h
    · split at h
      · rename_i hlogin
        cases h
        exact inv.client_only rfl rfl rfl rfl ((inv.stage s).decideMove hlogin) (inv.accepts s)
      · split at h
        · rename_i hstart
          cases h
          exact inv.client_only rfl rfl rfl rfl ((inv.stage s).decideLogin hstart.1 hstart.2)
            (inv.accepts s)
        · cases h
          exact inv
  | sendLogin s n playerType loginTime =>
    simp only [LoginProtocol.step] at h
    split at h
    · rename_i hsending
      cases h
      obtain ⟨sent, hsent, heq⟩ := send_toServer (st.setClient s
        { st.client s with startLogin := true, sending := .idle }) s
        (loginFrame ser n playerType loginTime)
      rw [heq]
      refine inv.client rfl rfl rfl (Function.update_eq_self s st.toClient).symm ?_ (inv.accepts s)
      rw [← List.append_assoc]
      exact (inv.stage s).sendLogin hsending (isLogin_loginFrame n playerType loginTime) hsent
    · cases h
  | sendMove s posInfo timeStamp =>
    simp only [LoginProtocol.step] at h
    split at h
    · rename_i hsending
      cases h
      obtain ⟨hclient, hpos, -⟩ := (inv.stage s).playing_of_move hsending
      have hlt := (inv.ids.given s).trans_lt inv.ids.bounded
      obtain ⟨sent, hsent, heq⟩ := send_toServer (st.setClient s
        { st.client s with sending := .idle }) s
        (moveFrame ser (st.client s).sessionId posInfo timeStamp)
      rw [heq]
      refine inv.client rfl rfl rfl (Function.update_eq_self s st.toClient).symm ?_ (inv.accepts s)
      rw [← List.append_assoc]
      refine (inv.stage s).sendMove hsending ?_ hsent
      rw [hclient.sessionId_eq]
      exact isMove_moveFrame hpos.le hlt posInfo timeStamp
    · cases h
  | disconnect s =>
    cases h
    exact inv.client_only rfl rfl rfl rfl (inv.stage s).close (inv.accepts s)
  | deliver s n =>
    rw [LoginProtocol.step, Option.map_eq_some_iff] at h
    obtain ⟨server, hstep, rfl⟩ := h
    obtain ⟨-, hact⟩ := step_eq_some.mp hstep
    rw [State.act] at hact
    split at hact
    · rename_i hidle
      cases hact
      have honce : Once st.server.view := inv.once
      refine ⟨PlayerLifetime.inv_step inv.server hstep, honce, ?_, fun u => ?_, inv.accepts⟩
      · exact ⟨inv.ids.nonneg, inv.ids.bounded, inv.ids.given, inv.ids.distinct, inv.ids.new,
          inv.ids.jobs, inv.ids.stays⟩
      · have hstage := inv.stage u
        show Stage parser _ _ _ (Function.update st.server.packets s ((st.toServer s).take n) u ++
          Function.update st.toServer s ((st.toServer s).drop n) u) _
        by_cases hu : u = s
        · subst hu
          rw [hidle.1, List.nil_append] at hstage
          rw [Function.update_self, Function.update_self, List.take_append_drop]
          exact hstage
        · rw [Function.update_of_ne hu, Function.update_of_ne hu]
          exact hstage
    · cases hact
  | server a =>
    cases a with
    | receive s packets => cases h
    | packet s inputs => exact inv.serve (fun _ _ h => by cases h) h
    | leave s accepted => exact inv.serve (fun _ _ h => by cases h) h
    | disconnect s accepted => exact inv.serve (fun _ _ h => by cases h) h
    | processDisconnect s => exact inv.serve (fun _ _ h => by cases h) h
    | runRoom => exact inv.serve (fun _ _ h => by cases h) h
    | runZone zone => exact inv.serve (fun _ _ h => by cases h) h
  | handlePacket s =>
    simp only [LoginProtocol.step] at h
    split at h
    · cases h
    · rename_i hhandling
      cases hmessages : st.toClient s with
      | nil =>
        rw [hmessages] at h
        cases h
      | cons message rest =>
        rw [hmessages] at h
        cases h
        have hstage := inv.stage s
        rw [hmessages] at hstage
        obtain ⟨hnext, hrefused⟩ :=
          hstage.handlePacket (Bool.eq_false_of_not_eq_true hhandling)
        exact inv.client rfl rfl (Function.update_eq_self s st.toServer).symm rfl hnext
          (hrefused.trans (inv.accepts s))
  | setLogin s =>
    simp only [LoginProtocol.step] at h
    split at h
    · rename_i hhandling
      cases h
      exact inv.client_only rfl rfl rfl rfl ((inv.stage s).setLogin hhandling) (inv.accepts s)
    · cases h

end Runs

/-- Clients and server agree. -/
structure Agreement {S : Type*} [DecidableEq S] (parser : Parser) (st : LoginProtocol.State S) :
    Prop where
  /-- No client has refused a message. -/
  accepts : ∀ s, (st.client s).refused = false
  /-- The check of `Handle_C2S_MOVE` passes for every position on its way. -/
  moves : ∀ s, ∀ frame ∈ st.server.packets s ++ st.toServer s,
    (PacketHeader.ofBytes frame.bytes).id = ProtoId.c2sMove.value →
    (parser.move (frame.bytes.drop PacketHeader.sizeOf)).2.sessionId =
      (st.server.server.session s).sessionId
  /-- A client that has logged in knows the id of its session. -/
  known : ∀ s, (st.client s).login = true →
    (st.client s).sessionId = (st.server.server.session s).sessionId
  /-- No two of them have the same. -/
  distinct : ∀ s t, (st.client s).login = true → (st.client t).login = true →
    (st.client s).sessionId = (st.client t).sessionId → s = t
  /-- The counter of the room is exact. -/
  counted : st.server.server.room.loginCnt = st.server.server.room.players.elems.length
  /-- Nothing is left of a session that has forgotten its player. -/
  gone : ∀ s, st.server.server.roomJobs = [] → (st.server.server.session s).ownPlayer = none →
    PlayerLifetime.NoGhost st.server s

/-- Whatever the order in which clients log in, send positions, lose their connections
and handle what they receive, and in which the server handles packets, executes jobs and
ends sessions, one packet and one job at a time, clients and server agree. -/
theorem login_agreement {S : Type*} [DecidableEq S] {parser : Parser} (ser : Serializer parser)
    (c : SessionClass) {player : PlayerPtr S → Player (PlayerPtr S)}
    (hfresh : ∀ p, (player p).Fresh) {st : LoginProtocol.State S}
    (h : Reachable (LoginProtocol.step ser c) (LoginProtocol.init player) st) :
    Agreement parser st := by
  have inv : Inv parser st :=
    h.invariant (inv_init hfresh) fun _ _ _ inv hstep => inv_step inv hstep
  refine ⟨inv.accepts, fun s frame hframe hid => ?_, fun s hs => ((inv.stage s).known hs).1,
    fun s t hs ht hst => ?_, inv.once.exact.loginCnt_eq, fun s hdone hown => ?_⟩
  · rcases (inv.stage s).frames hframe with hlogin | hmove
    · exact (move_ne_login (hid.symm.trans hlogin)).elim
    · exact hmove.2
  · obtain ⟨hsid, hpos⟩ := (inv.stage s).known hs
    obtain ⟨htid, -⟩ := (inv.stage t).known ht
    exact inv.ids.distinct s t hpos (by rw [← hsid, hst, htid])
  · rw [PlayerLifetime.noGhost_iff inv.server]
    intro p hp howner
    rcases inv.once.covered s p hp howner with ⟨hmine, -⟩ | hjob
    · have hmine' : (st.server.server.session s).ownPlayer = some p := hmine
      rw [hown] at hmine'
      cases hmine'
    · have hjob' : some p ∈ st.server.server.roomJobs := hjob
      rw [hdone] at hjob'
      exact List.not_mem_nil hjob'

/-- A client as it sends positions at the origin. -/
def atOrigin : LoginProtocol.Serializer (MessageDelivery.wireParser (fun _ => 0)
    ProtocolMessages.noSkipper) :=
  MessageDelivery.wireSerializer (fun _ => 0) (fun _ => 0) ProtocolMessages.noSkipper

/-- Two players before their construction. -/
def noPlayers (_ : PlayerPtr Bool) : Player (PlayerPtr Bool) := newPlayer (inputsAt 0)

/-- A client logs in and its session moves to the origin. -/
def comesToOrigin (s : Bool) : List (LoginProtocol.Action Bool) :=
  [.onConnected s, .sendPacket s, .sendLogin s 1 3 0, .deliver s 1,
    .server (.packet s (inputsAt 0)), .handlePacket s, .setLogin s, .sendPacket s,
    .sendMove s ⟨0, 0, 0, 0, 0, 0, 0, 0, 0, 0, 0, 0⟩ 5, .deliver s 1,
    .server (.packet s (inputsAt 7)), .server (.runZone (2, 2))]

/-- Two clients come one after the other, and the first one handles what it has got. -/
def twoClients : List (LoginProtocol.Action Bool) :=
  comesToOrigin true ++ comesToOrigin false ++ [.handlePacket true, .handlePacket true]

/-- Both know the ids of their sessions. -/
theorem login_agreement_two : ∃ st : LoginProtocol.State Bool,
    run (LoginProtocol.step atOrigin .rio) (LoginProtocol.init noPlayers) twoClients = some st ∧
      (st.client true).sessionId = 1 ∧ (st.client false).sessionId = 2 ∧
      Agreement (MessageDelivery.wireParser (fun _ => 0) ProtocolMessages.noSkipper) st := by
  have h : ((run (LoginProtocol.step atOrigin .rio) (LoginProtocol.init noPlayers)
      twoClients).any fun st => (st.client true).sessionId = 1 ∧
        (st.client false).sessionId = 2) = true := by
    decide +kernel
  obtain ⟨st, hr, hview⟩ := (Option.any_eq_true _ _).mp h
  obtain ⟨hfirst, hsecond⟩ := of_decide_eq_true hview
  exact ⟨st, hr, hfirst, hsecond,
    login_agreement atOrigin .rio (fun p => ⟨rfl, rfl⟩) ⟨twoClients, hr⟩⟩

/-- The server ends no session. -/
def EndsNone {S : Type*} (_ : LoginProtocol.State S) : LoginProtocol.Action S → Prop
  | .server (.disconnect _ _) => False
  | .server (.processDisconnect _) => False
  | _ => True

/-- No null player was used, and every session that has logged in has its player. -/
structure Manned {S : Type*} [DecidableEq S] (st : LoginProtocol.State S) : Prop where
  /-- The process is alive. -/
  alive : MissingPlayer.Alive st.server
  /-- The players are there. -/
  players : ∀ s, 0 < (st.server.server.session s).sessionId → MissingPlayer.HasPlayer st.server s

section Manning

variable {S : Type*} [DecidableEq S] {parser : Parser} {ser : Serializer parser}
variable {c : SessionClass} {st st' : LoginProtocol.State S} {s : S}

/-- What a packet or a job of a zone needs is there. -/
theorem Manned.playerThere (inv : Inv parser st) (manned : Manned st) (a : ServerRun.Action S) :
    MissingPlayer.PlayerThere parser st.server a := by
  cases a with
  | packet s inputs =>
    intro packet hpacket hneeds
    obtain ⟨rest, hpackets⟩ := List.head?_eq_some_iff.mp (Option.mem_def.mp hpacket)
    have hstage := inv.stage s
    rw [hpackets, List.cons_append] at hstage
    rcases hstage.next with ⟨hframe, -⟩ | ⟨-, hpos⟩
    · have hid : (PacketHeader.ofBytes packet.bytes).id = ProtoId.c2sLogin.value := hframe
      simp only [MissingPlayer.needsPlayer, if_pos hid] at hneeds
      cases hneeds
    · exact manned.players s hpos
  | runZone zone =>
    intro job hjob
    cases job with
    | movePlayer p =>
      exact fun _ _ => manned.players p.1
        (inv.ids.jobs zone p (List.mem_of_mem_head? hjob))
    | chat p text => trivial
  | receive s packets => trivial
  | leave s accepted => trivial
  | disconnect s accepted => trivial
  | processDisconnect s => trivial
  | runRoom => trivial

/-- Only the end of a session takes its player away. -/
theorem own_kept {r r' : Registry S} {event : Event S} (hevent : ∀ t, event ≠ .ended t)
    (h : perform r event = some r') (hown : r.own s ≠ none) : r'.own s ≠ none := by
  rw [own_perform h]
  cases event with
  | login t =>
    show Function.update r.own t (some (r.next t)) s ≠ none
    by_cases hs : s = t
    · rw [hs, Function.update_self]
      exact Option.some_ne_none _
    · rw [Function.update_of_ne hs]
      exact hown
  | ended t => exact (hevent t rfl).elim
  | logout t | run | idle => exact hown

/-- A session that has an id had one before the packet or was logged in by it. -/
theorem packet_id (inv : Inv parser st) {server : ServerRun.State S} {inputs : Inputs} {t : S}
    (hstep : ServerRun.step parser c st.server (.packet s inputs) = some server)
    (hpos : 0 < (server.server.session t).sessionId) :
    0 < (st.server.server.session t).sessionId ∨ (server.server.session t).ownPlayer ≠ none := by
  obtain ⟨-, hact⟩ := step_eq_some.mp hstep
  obtain ⟨-, frame, rest, hpackets, hafter⟩ := packet_eq_some hact
  have hstage := inv.stage s
  rw [hpackets, List.cons_append] at hstage
  rcases after_eq_some hafter with ⟨result, hresult, rfl⟩ | ⟨-, rfl⟩
  · rcases hstage.next with ⟨hframe, -⟩ | ⟨hmove, -⟩
    · have hid : (PacketHeader.ofBytes frame.bytes).id = ProtoId.c2sLogin.value := hframe
      simp only [Server.handlePacket] at hresult
      rw [if_pos hid, handleLogin_eq] at hresult
      split at hresult
      · cases hresult
      · cases hresult
        by_cases hts : t = s
        · right
          show (Function.update st.server.server.session s _ t).ownPlayer ≠ none
          rw [hts, Function.update_self]
          exact Option.some_ne_none _
        · left
          change 0 < (Function.update st.server.server.session s _ t).sessionId at hpos
          rwa [Function.update_of_ne hts] at hpos
    · obtain ⟨-, p, hmoved⟩ := handlePacket_move hmove hresult
      change 0 < (result.server.session t).sessionId at hpos
      rw [hmoved.sessionId] at hpos
      exact .inl hpos
  · exact .inl hpos

/-- A step of the server that ends no session leaves every player where it is. -/
theorem Manned.serve (inv : Inv parser st) (manned : Manned st) {a : ServerRun.Action S}
    (hends : EndsNone st (.server a)) (h : st.serve parser c a = some st') : Manned st' := by
  rw [State.serve, Option.map_eq_some_iff] at h
  obtain ⟨server, hstep, rfl⟩ := h
  obtain ⟨-, hact⟩ := step_eq_some.mp hstep
  refine ⟨MissingPlayer.alive_step manned.alive (manned.playerThere inv a) hstep,
    fun t hpos => ?_⟩
  have hkept : (∀ u, st.server.event c a ≠ .ended u) →
      MissingPlayer.HasPlayer st.server t → MissingPlayer.HasPlayer server t :=
    fun hevent hown => own_kept hevent (view_step hstep) hown
  cases a with
  | receive u packets =>
    rw [State.act] at hact
    split at hact <;> cases hact
    exact manned.players t hpos
  | packet u inputs =>
    rcases packet_id inv hstep hpos with hold | hown
    · refine hkept (fun v hv => ?_) (manned.players t hold)
      rw [State.event] at hv
      split at hv
      · cases hv
      · simp only [packetEvent] at hv
        split at hv
        · cases hv
        · split at hv <;> cases hv
    · exact hown
  | leave u accepted =>
    rw [State.act, if_neg (by rw [inv.ids.stays u]; exact Bool.false_ne_true)] at hact
    cases hact
  | disconnect u accepted => exact hends.elim
  | processDisconnect u => exact hends.elim
  | runRoom =>
    change 0 < (server.server.session t).sessionId at hpos
    rw [(keeps_runRoom hact).sessionId] at hpos
    refine hkept (fun v hv => ?_) (manned.players t hpos)
    rw [State.event] at hv
    split at hv <;> cases hv
  | runZone zone =>
    change 0 < (server.server.session t).sessionId at hpos
    rw [(keeps_runZone hact).sessionId] at hpos
    exact hkept (fun v hv => by cases hv) (manned.players t hpos)

/-- A step that ends no session leaves every player where it is. -/
theorem manned_step (inv : Inv parser st) (manned : Manned st) {a : LoginProtocol.Action S}
    (hends : EndsNone st a) (h : LoginProtocol.step ser c st a = some st') : Manned st' := by
  cases a with
  | server a =>
    cases a with
    | receive s packets => cases h
    | disconnect s accepted => exact hends.elim
    | processDisconnect s => exact hends.elim
    | packet s inputs => exact manned.serve inv hends h
    | leave s accepted => exact manned.serve inv hends h
    | runRoom => exact manned.serve inv hends h
    | runZone zone => exact manned.serve inv hends h
  | deliver s n =>
    rw [LoginProtocol.step, Option.map_eq_some_iff] at h
    obtain ⟨server, hstep, rfl⟩ := h
    obtain ⟨-, hact⟩ := step_eq_some.mp hstep
    rw [State.act] at hact
    split at hact <;> cases hact
    exact ⟨⟨manned.alive.running, manned.alive.jobs⟩, manned.players⟩
  | onConnected s =>
    rw [LoginProtocol.step] at h
    split at h <;> cases h
    exact ⟨manned.alive, manned.players⟩
  | sendPacket s =>
    simp only [LoginProtocol.step] at h
    split at h
    · cases h
    · split at h
      · cases h
        exact ⟨manned.alive, manned.players⟩
      · split at h <;> cases h
        · exact ⟨manned.alive, manned.players⟩
        · exact manned
  | sendLogin s n playerType loginTime =>
    simp only [LoginProtocol.step] at h
    split at h <;> cases h
    rw [State.send]
    split <;> exact ⟨manned.alive, manned.players⟩
  | sendMove s posInfo timeStamp =>
    simp only [LoginProtocol.step] at h
    split at h <;> cases h
    rw [State.send]
    split <;> exact ⟨manned.alive, manned.players⟩
  | disconnect s =>
    cases h
    exact ⟨manned.alive, manned.players⟩
  | handlePacket s =>
    simp only [LoginProtocol.step] at h
    split at h
    · cases h
    · split at h <;> cases h
      exact ⟨manned.alive, manned.players⟩
  | setLogin s =>
    simp only [LoginProtocol.step] at h
    split at h <;> cases h
    exact ⟨manned.alive, manned.players⟩

end Manning

/-- As long as the server ends no session, whatever the dummy clients do and in whatever
order their packets are handled and jobs executed, one at a time, no null player is used,
and every session that has an id has its player connected in the room. -/
theorem login_players {S : Type*} [DecidableEq S] {parser : Parser} (ser : Serializer parser)
    (c : SessionClass) {player : PlayerPtr S → Player (PlayerPtr S)}
    (hfresh : ∀ p, (player p).Fresh) {st : LoginProtocol.State S}
    (h : ReachableVia (LoginProtocol.step ser c) EndsNone (LoginProtocol.init player) st) :
    st.server.crashed = false ∧ ∀ s, 0 < (st.server.server.session s).sessionId →
      ∃ p, (st.server.server.session s).ownPlayer = some p ∧ p ∈ st.server.server.room.players ∧
        (st.server.server.room.player p).isValidPlayer = true := by
  have hinit : Inv parser (LoginProtocol.init player) ∧ Manned (LoginProtocol.init player) :=
    ⟨inv_init hfresh, ⟨rfl, fun h => (List.not_mem_nil h).elim⟩, fun s h => (lt_irrefl 0 h).elim⟩
  have hstep : ∀ (st : LoginProtocol.State S) (a : LoginProtocol.Action S)
      (st' : LoginProtocol.State S), Inv parser st ∧ Manned st → EndsNone st a →
      LoginProtocol.step ser c st a = some st' → Inv parser st' ∧ Manned st' :=
    fun _ _ _ hinv hends h => ⟨inv_step hinv.1 h, manned_step hinv.1 hinv.2 hends h⟩
  obtain ⟨actions, hr, hends⟩ := h
  obtain ⟨inv, manned⟩ := run_preserves hstep hinit hends hr
  refine ⟨manned.alive.running, fun s hpos => ?_⟩
  obtain ⟨p, hown, hvalid, -⟩ :=
    inv.server.registry.logged s (inv.once.own s (manned.players s hpos))
  exact ⟨p, hown, inv.server.registry.registered p hvalid, hvalid⟩

/-- Both clients that have come have their players. -/
theorem login_players_two : ∃ st : LoginProtocol.State Bool,
    run (LoginProtocol.step atOrigin .rio) (LoginProtocol.init noPlayers) twoClients = some st ∧
      st.server.crashed = false ∧
      ∃ p, (st.server.server.session false).ownPlayer = some p ∧
        p ∈ st.server.server.room.players ∧
        (st.server.server.room.player p).isValidPlayer = true := by
  have h : ((run (LoginProtocol.step atOrigin .rio) (LoginProtocol.init noPlayers)
      twoClients).any fun st => 0 < (st.server.server.session false).sessionId) = true := by
    decide +kernel
  obtain ⟨st, hr, hview⟩ := (Option.any_eq_true _ _).mp h
  have hends : StepsMeet (LoginProtocol.step atOrigin .rio) EndsNone
      (LoginProtocol.init noPlayers) twoClients :=
    stepsMeet_of_forall (by simp [twoClients, comesToOrigin, EndsNone])
  obtain ⟨hrunning, hplayers⟩ :=
    login_players atOrigin .rio (fun p => ⟨rfl, rfl⟩) ⟨twoClients, hr, hends⟩
  exact ⟨st, hr, hrunning, hplayers false (of_decide_eq_true hview)⟩

end RioIocpServer.LoginSafety
