import RioIocpServer.SectorJobs

/-!
# Searching sectors instead of players

Operations of the room are executed one at a time. A player that is logged in is
then in the set of exactly one sector, the one `m_idxInfo` names. While that is
the sector of its position, the search of the adjacent sectors finds exactly the
players a scan over all of them would find, each of them once.
-/

namespace RioIocpServer.SectorSearch

open TransitionSystem Contents

/-- The operations of the room. -/
inductive Op (P : Type*) where
  /-- `Room::Login`. -/
  | login (p : P)
  /-- A new position. -/
  | updatePosition (p : P) (pos : PosInfo) (timeStamp : ℤ)
  /-- `Zone::MovePlayer`. -/
  | movePlayer (p : P)
  /-- `Zone::Chat`. -/
  | chat (p : P) (chat : String)
  /-- `Room::Logout`. -/
  | logout (p : P)

section System

variable {P : Type*} [DecidableEq P]

/-- The room after an operation and what the operation sends. -/
def perform (room : Room P) : Op P → Option (Room P × List (P × Message P))
  | .login p => room.login p
  | .updatePosition p pos timeStamp => some (room.updatePosition p pos timeStamp, [])
  | .movePlayer p => room.movePlayer p
  | .chat p chat => some (room, room.chat p chat)
  | .logout p => room.logout p

/-- The room after an operation. -/
def step (room : Room P) (op : Op P) : Option (Room P) := (perform room op).map Prod.fst

omit [DecidableEq P] in
/-- `Room::Login` is called for a player that is not logged in: a new one. -/
def LoginNew (room : Room P) : Op P → Prop
  | .login p => p ∉ room.players
  | _ => True

instance (room : Room P) : DecidablePred (LoginNew room)
  | .login p => inferInstanceAs (Decidable (p ∉ room.players))
  | .updatePosition _ _ _ => isTrue trivial
  | .movePlayer _ => isTrue trivial
  | .chat _ _ => isTrue trivial
  | .logout _ => isTrue trivial

/-- The invariant of the room. -/
structure Inv (room : Room P) : Prop where
  /-- A sector's set holds the players logged in whose `m_idxInfo` names it. -/
  mem_sectors : ∀ c p, p ∈ room.sectors c ↔ p ∈ room.players ∧ (room.player p).idxInfo = c
  /-- A connected player is logged in. -/
  connected : ∀ p, (room.player p).isValidPlayer = true → p ∈ room.players
  /-- The sector `m_idxInfo` names exists. -/
  inGrid : ∀ p, p ∈ room.players → InGrid (room.player p).idxInfo

omit [DecidableEq P] in
/-- The players of a room with the invariant can start to move concurrently. -/
theorem Inv.placed {room : Room P} (inv : Inv room) : SectorJobs.Placed room :=
  fun p c hc => ((inv.mem_sectors c p).mp hc).2.symm

section Operations

variable {room room' : Room P} {p q : P} {c : ℤ × ℤ}

/-- A player that is changed keeps the invariant, if it is connected only while it is
logged in and keeps its `m_idxInfo` then. -/
theorem Inv.setPlayer_of (inv : Inv room) {player : Player P}
    (hstate : player.state = .connected → p ∈ room.players)
    (hidx : p ∈ room.players → player.idxInfo = (room.player p).idxInfo) :
    Inv (room.setPlayer p player) := by
  constructor
  · intro c q
    by_cases hq : q = p
    · subst hq
      rw [setPlayer_self]
      refine (inv.mem_sectors c q).trans (and_congr_right fun hq => ?_)
      rw [hidx hq]
    · rw [setPlayer_of_ne player hq]
      exact inv.mem_sectors c q
  · intro q hq
    by_cases hqp : q = p
    · subst hqp
      rw [setPlayer_self] at hq
      exact hstate (of_decide_eq_true hq)
    · rw [setPlayer_of_ne player hqp] at hq
      exact inv.connected q hq
  · intro q hq
    by_cases hqp : q = p
    · subst hqp
      rw [setPlayer_self, hidx hq]
      exact inv.inGrid q hq
    · rw [setPlayer_of_ne player hqp]
      exact inv.inGrid q hq

/-- A player that keeps its state and `m_idxInfo` keeps the invariant. -/
theorem Inv.setPlayer (inv : Inv room) {player : Player P}
    (hstate : player.state = (room.player p).state)
    (hidx : player.idxInfo = (room.player p).idxInfo) : Inv (room.setPlayer p player) :=
  inv.setPlayer_of (fun h => inv.connected p (decide_eq_true (hstate.symm.trans h))) fun _ => hidx

/-- What `Room::Login` does. -/
theorem login_eq (room : Room P) (p : P) :
    room.login p = some
      (({ room with
          sectors := Function.update room.sectors
            (getPlayerSectorIdx (room.player p).info.toPosInfo)
            ((room.sectors (getPlayerSectorIdx (room.player p).info.toPosInfo)).insert p)
          loginCnt := room.loginCnt + 1
          players := room.players.insert p }).setPlayer p
        { room.player p with
          state := .connected
          idxInfo := getPlayerSectorIdx (room.player p).info.toPosInfo },
        [(p, .loginResult true (room.player p).info.playerType)]) := by
  simp only [Room.login, Room.insertSector, if_pos (inGrid_getPlayerSectorIdx _)]
  rfl

/-- `Room::Login` of a new player keeps the invariant. -/
theorem inv_login (inv : Inv room) (hp : p ∉ room.players) {out : List (P × Message P)}
    (h : room.login p = some (room', out)) : Inv room' := by
  rw [login_eq] at h
  cases h
  have hnone : ∀ c, p ∉ room.sectors c := fun c hc => hp ((inv.mem_sectors c p).mp hc).1
  constructor
  · intro c q
    show q ∈ Function.update room.sectors _ _ c ↔ q ∈ room.players.insert p ∧ _
    rw [mem_insertSector, UnorderedSet.mem_insert]
    by_cases hq : q = p
    · subst hq
      rw [setPlayer_self]
      simp [hnone c, eq_comm]
    · rw [setPlayer_of_ne _ hq]
      simp [hq, inv.mem_sectors c q]
  · intro q hq
    refine UnorderedSet.mem_insert.mpr ?_
    by_cases hqp : q = p
    · exact .inl hqp
    · rw [setPlayer_of_ne _ hqp] at hq
      exact .inr (inv.connected q hq)
  · intro q hq
    rcases UnorderedSet.mem_insert.mp hq with hqp | hold
    · rw [hqp, setPlayer_self]
      exact inGrid_getPlayerSectorIdx _
    · by_cases hqp : q = p
      · exact (hp (hqp ▸ hold)).elim
      · rw [setPlayer_of_ne _ hqp]
        exact inv.inGrid q hold

/-- What `Room::Logout` does. -/
theorem logout_eq_some {out : List (P × Message P)} (h : room.logout p = some (room', out)) :
    room' = ({ room with
      sectors := Function.update room.sectors (room.player p).idxInfo
        ((room.sectors (room.player p).idxInfo).erase p)
      players := room.players.erase p
      loginCnt := room.loginCnt - 1 }).setPlayer p
        { room.player p with state := .disconnected } ∧ out = [] := by
  obtain ⟨erased, herased, hrest⟩ := Option.bind_eq_some_iff.mp h
  cases eraseSector_eq_some herased
  cases hrest
  exact ⟨rfl, rfl⟩

/-- `Room::Logout` keeps the invariant. -/
theorem inv_logout (inv : Inv room) {out : List (P × Message P)}
    (h : room.logout p = some (room', out)) : Inv room' := by
  obtain ⟨rfl, -⟩ := logout_eq_some h
  constructor
  · intro c q
    show q ∈ Function.update room.sectors _ _ c ↔ q ∈ room.players.erase p ∧ _
    rw [mem_eraseSector, UnorderedSet.mem_erase]
    by_cases hq : q = p
    · subst hq
      simp only [ne_eq, not_true_eq_false, false_and, iff_false, not_and, forall_const, not_not]
      intro hc
      exact ((inv.mem_sectors c q).mp hc).2.symm
    · rw [setPlayer_of_ne _ hq]
      simp [hq, inv.mem_sectors c q]
  · intro q hq
    by_cases hqp : q = p
    · rw [hqp, setPlayer_self] at hq
      cases hq
    · rw [setPlayer_of_ne _ hqp] at hq
      exact UnorderedSet.mem_erase.mpr ⟨hqp, inv.connected q hq⟩
  · intro q hq
    obtain ⟨hqp, hold⟩ := UnorderedSet.mem_erase.mp hq
    rw [setPlayer_of_ne _ hqp]
    exact inv.inGrid q hold

/-- What `Zone::MovePlayer` does to the sectors. -/
theorem updateSector_eq (hgrid : InGrid (room.player p).idxInfo) :
    room.updateSector p = some
      (if getPlayerSectorIdx (room.player p).info.toPosInfo ≠ (room.player p).idxInfo then
        ({ room with
          sectors := Function.update
            (Function.update room.sectors (room.player p).idxInfo
              ((room.sectors (room.player p).idxInfo).erase p))
            (getPlayerSectorIdx (room.player p).info.toPosInfo)
            ((room.sectors (getPlayerSectorIdx (room.player p).info.toPosInfo)).insert p)
            }).setPlayer p
          { room.player p with idxInfo := getPlayerSectorIdx (room.player p).info.toPosInfo }
      else room) := by
  rw [Room.updateSector]
  split
  · rename_i hne
    simp only [Room.eraseSector, Room.insertSector, if_pos hgrid,
      if_pos (inGrid_getPlayerSectorIdx _), Option.bind_eq_bind, Option.bind_some,
      Function.update_of_ne hne]
    rfl
  · rfl

/-- Moving a player that is logged in keeps the invariant. -/
theorem inv_updateSector (inv : Inv room) (hp : p ∈ room.players)
    (h : room.updateSector p = some room') : Inv room' := by
  rw [updateSector_eq (inv.inGrid p hp)] at h
  cases h
  split
  · rename_i hne
    constructor
    · intro c q
      show q ∈ Function.update (Function.update room.sectors _ _) _ _ c ↔ q ∈ room.players ∧ _
      rw [← Function.update_of_ne hne ((room.sectors (room.player p).idxInfo).erase p) room.sectors,
        mem_insertSector, mem_eraseSector]
      by_cases hq : q = p
      · subst hq
        rw [setPlayer_self, inv.mem_sectors c q]
        simp only [true_implies, true_and, hp, eq_comm (b := c)]
        tauto
      · rw [setPlayer_of_ne _ hq]
        simp [hq, inv.mem_sectors c q]
    · intro q hq
      by_cases hqp : q = p
      · rw [hqp]
        exact hp
      · rw [setPlayer_of_ne _ hqp] at hq
        exact inv.connected q hq
    · intro q hq
      by_cases hqp : q = p
      · rw [hqp, setPlayer_self]
        exact inGrid_getPlayerSectorIdx _
      · rw [setPlayer_of_ne _ hqp]
        exact inv.inGrid q hq
  · exact inv

/-- What `Zone::MovePlayer` does for a valid player. -/
theorem movePlayer_eq_some {out : List (P × Message P)}
    (hvalid : (room.player p).isValidPlayer = true)
    (h : room.movePlayer p = some (room', out)) : ∃ moved, room.updateSector p = some moved ∧
      room' = moved.setPlayer p { moved.player p with
        viewList := UnorderedSet.empty.insertAll (moved.visited p) } ∧
      out = (moved.visited p).flatMap (moved.moveMessages p) ++
        ((room.player p).viewList.elems.filter fun target =>
          target ∉ UnorderedSet.empty.insertAll (moved.visited p)).flatMap (moved.leaveMessages p) ++
        [(p, .moveResult)] := by
  rw [Room.movePlayer, if_pos hvalid] at h
  obtain ⟨moved, hmoved, hrest⟩ := Option.bind_eq_some_iff.mp h
  cases hrest
  exact ⟨moved, hmoved, rfl, rfl⟩

/-- `Zone::MovePlayer` keeps the invariant. -/
theorem inv_movePlayer (inv : Inv room) {out : List (P × Message P)}
    (h : room.movePlayer p = some (room', out)) : Inv room' := by
  by_cases hvalid : (room.player p).isValidPlayer = true
  · obtain ⟨moved, hmoved, rfl, -⟩ := movePlayer_eq_some hvalid h
    exact (inv_updateSector inv (inv.connected p hvalid) hmoved).setPlayer rfl rfl
  · rw [Room.movePlayer, if_neg hvalid] at h
    cases h
    exact inv

/-- Every operation keeps the invariant. -/
theorem inv_step (inv : Inv room) {op : Op P} (ok : LoginNew room op)
    (h : step room op = some room') : Inv room' := by
  obtain ⟨⟨m, out⟩, hperform, rfl⟩ := Option.map_eq_some_iff.mp h
  cases op with
  | login p => exact inv_login inv ok hperform
  | updatePosition p pos timeStamp =>
    cases hperform
    exact inv.setPlayer rfl rfl
  | movePlayer p => exact inv_movePlayer inv hperform
  | chat p text =>
    cases hperform
    exact inv
  | logout p => exact inv_logout inv hperform

omit [DecidableEq P] in
/-- Nobody is logged in to a new room. -/
theorem inv_new {player : P → Player P} (hfresh : ∀ p, (player p).Fresh) :
    Inv (Room.new player) where
  mem_sectors c p := by
    constructor
    · intro h
      exact (UnorderedSet.not_mem_empty h).elim
    · intro h
      exact (UnorderedSet.not_mem_empty h.1).elim
  connected p hp := by
    have hstate : (player p).state = .connected := of_decide_eq_true hp
    rw [(hfresh p).state_eq] at hstate
    cases hstate
  inGrid p hp := (UnorderedSet.not_mem_empty hp).elim

/-- The sector every player logged in is looked for in is that of its position. -/
def InSync (room : Room P) : Prop :=
  ∀ p, p ∈ room.players → (room.player p).idxInfo = getPlayerSectorIdx (room.player p).info.toPosInfo

/-- A connected player near another one. -/
def Sees (room : Room P) (p q : P) (viewDist : ℤ) : Prop :=
  q ∈ room.players ∧ (room.player q).state = .connected ∧
    near (room.player p).info.toPosInfo (room.player q).info.toPosInfo viewDist = true

omit [DecidableEq P] in
/-- What the search of some sectors finds. -/
theorem mem_nearby (inv : Inv room) {view : List (ℤ × ℤ)} {viewDist : ℤ} :
    q ∈ room.nearby p view viewDist ↔
      Sees room p q viewDist ∧ (room.player q).idxInfo ∈ view := by
  simp only [Room.nearby, List.mem_flatMap, List.mem_filter, Bool.and_eq_true]
  constructor
  · rintro ⟨c, hc, hq, hvalid, hnear⟩
    obtain ⟨hplayer, hidx⟩ := (inv.mem_sectors c q).mp hq
    exact ⟨⟨hplayer, of_decide_eq_true hvalid, hnear⟩, hidx ▸ hc⟩
  · rintro ⟨⟨hplayer, hstate, hnear⟩, hview⟩
    exact ⟨_, hview, (inv.mem_sectors _ q).mpr ⟨hplayer, rfl⟩, decide_eq_true hstate, hnear⟩

omit [DecidableEq P] in
/-- The search of different sectors finds nobody twice, since the sets of the
sectors are disjoint. -/
theorem nodup_nearby (inv : Inv room) {view : List (ℤ × ℤ)} {viewDist : ℤ} (hview : view.Nodup) :
    (room.nearby p view viewDist).Nodup := by
  rw [Room.nearby, List.nodup_flatMap]
  constructor
  · intro c _
    exact (room.sectors c).nodup.filter _
  · refine hview.imp fun {c d} hcd q hc hd => hcd ?_
    have hqc := (inv.mem_sectors c q).mp (List.mem_of_mem_filter hc)
    have hqd := (inv.mem_sectors d q).mp (List.mem_of_mem_filter hd)
    exact hqc.2.symm.trans hqd.2

omit [DecidableEq P] in
/-- A search that covers the view distance agrees with a scan over all players. -/
theorem mem_nearby_iff_sees (inv : Inv room) (hsync : InSync room) {view : List (ℤ × ℤ)}
    {viewDist : ℤ} (hcover : ∀ target : PosInfo,
      near (room.player p).info.toPosInfo target viewDist = true → getPlayerSectorIdx target ∈ view) :
    q ∈ room.nearby p view viewDist ↔ Sees room p q viewDist := by
  rw [mem_nearby inv]
  constructor
  · exact fun h => h.1
  · intro h
    refine ⟨h, ?_⟩
    rw [hsync q h.1]
    exact hcover _ h.2.2

/-- A message that shows a player to another one. -/
def shows (p q : P) : P × Message P → Bool
  | (receiver, .move targetId _) => receiver = q ∧ targetId = p
  | (receiver, .enter targetId _) => receiver = q ∧ targetId = p
  | _ => false

/-- A visited target is shown the player once, and nobody else is. -/
theorem countP_moveMessages {target : P} (hp : target ≠ p) :
    (room.moveMessages p target).countP (shows p q) = if target = q then 1 else 0 := by
  have hto : (if p ∈ (room.player target).viewList then
      [(target, Message.move p (room.player p).info)]
      else [(target, .enter p (room.player p).info)]).countP (shows p q) =
      if target = q then 1 else 0 := by
    split <;> simp [shows, List.countP_cons]
  have hback : (if target ∈ (room.player p).viewList then []
      else [(p, Message.enter target (room.player target).info)]).countP (shows p q) = 0 := by
    split <;> simp [shows, hp]
  rw [Room.moveMessages, List.countP_append, hto, hback, Nat.add_zero]

/-- The targets of a loop are shown the player as often as they are visited. -/
theorem countP_visits {targets : List P} (hp : p ∉ targets) :
    (targets.flatMap (room.moveMessages p)).countP (shows p q) = targets.count q := by
  induction targets with
  | nil => rfl
  | cons target targets ih =>
    have htarget : target ≠ p := fun h => hp (h ▸ List.mem_cons_self)
    rw [List.flatMap_cons, List.countP_append, countP_moveMessages htarget,
      ih fun h => hp (List.mem_cons_of_mem target h), List.count_cons]
    by_cases hq : target = q
    · simp [hq, Nat.add_comm]
    · simp [hq]

/-- A leave message shows nobody. -/
theorem countP_leaves (targets : List P) :
    (targets.flatMap (room.leaveMessages p)).countP (shows p q) = 0 := by
  rw [List.countP_eq_zero]
  intro m hm
  obtain ⟨target, -, hmem⟩ := List.mem_flatMap.mp hm
  rw [Room.leaveMessages] at hmem
  split at hmem <;> simp at hmem
  · rcases hmem with rfl | rfl <;> simp [shows]
  · rw [hmem]
    simp [shows]

/-- A move of a player in its sector, compared with a scan over all players. -/
structure MoveAgrees (room : Room P) (p : P) (room' : Room P) (out : List (P × Message P)) :
    Prop where
  /-- The view list is the set of the players seen. -/
  viewList : ∀ q, q ∈ (room'.player p).viewList ↔ q ≠ p ∧ Sees room p q viewDistance
  /-- Each of them is visited once. -/
  once : ∀ q, q ≠ p → Sees room p q viewDistance → out.countP (shows p q) = 1
  /-- Nobody else is visited. -/
  never : ∀ q, ¬ (q ≠ p ∧ Sees room p q viewDistance) → out.countP (shows p q) = 0

/-- A chat, compared with a scan over all players. -/
structure ChatAgrees (room : Room P) (p : P) (text : String) (out : List (P × Message P)) :
    Prop where
  /-- Each player in reach gets one message. -/
  once : ∀ q, Sees room p q viewDistanceNarrow → out.countP (fun m => m.1 = q) = 1
  /-- So does the player itself. -/
  self : out.countP (fun m => m.1 = p) = 1
  /-- Nobody else gets one. -/
  never : ∀ q, ¬ Sees room p q viewDistanceNarrow → out.countP (fun m => m.1 = q) = 0
  /-- Every message is the text of the player. -/
  text_eq : ∀ m ∈ out, m.2 = .chat p (room.player p).info.playerId text

/-- What a move in sync visits. -/
theorem mem_visited (inv : Inv room) (hsync : InSync room) :
    q ∈ room.visited p ↔ q ≠ p ∧ Sees room p q viewDistance := by
  rw [Room.visited, List.mem_filter,
    mem_nearby_iff_sees inv hsync fun target => mem_adjacentSectors, and_comm]
  simp

/-- A move in sync agrees with a scan. -/
theorem moveAgrees (inv : Inv room) (hsync : InSync room)
    (hp : (room.player p).isValidPlayer = true) :
    ∃ room' out, room.movePlayer p = some (room', out) ∧ MoveAgrees room p room' out := by
  have hplayer := inv.connected p hp
  have hstay : room.updateSector p = some room := by
    rw [updateSector_eq (inv.inGrid p hplayer), hsync p hplayer, if_neg (by simp)]
  have hmove : ∃ result, room.movePlayer p = some result := by
    rw [Room.movePlayer, if_pos hp, hstay]
    exact ⟨_, rfl⟩
  obtain ⟨⟨room', out⟩, hmove⟩ := hmove
  obtain ⟨moved, hmoved, hroom, hout⟩ := movePlayer_eq_some hp hmove
  cases hstay.symm.trans hmoved
  have hnodup : (room.visited p).Nodup :=
    (nodup_nearby inv GridWindow.nodup_window).filter _
  have hself : p ∉ room.visited p := fun h => ((mem_visited inv hsync).mp h).1 rfl
  have hcount : ∀ q, out.countP (shows p q) = (room.visited p).count q := by
    intro q
    rw [hout, List.countP_append, List.countP_append, countP_visits hself, countP_leaves]
    simp [shows]
  refine ⟨room', out, hmove, fun q => ?_, fun q hq hsees => ?_, fun q hnot => ?_⟩
  · rw [hroom, setPlayer_self, UnorderedSet.mem_insertAll, ← mem_visited inv hsync]
    exact or_iff_right UnorderedSet.not_mem_empty
  · rw [hcount, List.count_eq_one_of_mem hnodup ((mem_visited inv hsync).mpr ⟨hq, hsees⟩)]
  · rw [hcount, List.count_eq_zero_of_not_mem fun h => hnot ((mem_visited inv hsync).mp h)]

/-- A chat in sync agrees with a scan. -/
theorem chatAgrees (inv : Inv room) (hsync : InSync room)
    (hp : (room.player p).isValidPlayer = true) (text : String) :
    ChatAgrees room p text (room.chat p text) := by
  have hmem : ∀ q, q ∈ room.nearby p (getNarrowAdjacentSectors (room.player p).info.toPosInfo)
      viewDistanceNarrow ↔ Sees room p q viewDistanceNarrow :=
    fun q => mem_nearby_iff_sees inv hsync fun target => mem_narrowAdjacentSectors
  have hnodup : (room.nearby p (getNarrowAdjacentSectors (room.player p).info.toPosInfo)
      viewDistanceNarrow).Nodup := nodup_nearby inv GridWindow.nodup_window
  have hcount : ∀ q, (room.chat p text).countP (fun m => m.1 = q) =
      (room.nearby p (getNarrowAdjacentSectors (room.player p).info.toPosInfo)
        viewDistanceNarrow).count q := by
    intro q
    rw [Room.chat, if_pos hp, List.countP_map, List.count]
    rfl
  have honce : ∀ q, Sees room p q viewDistanceNarrow →
      (room.chat p text).countP (fun m => m.1 = q) = 1 := by
    intro q hsees
    rw [hcount, List.count_eq_one_of_mem hnodup ((hmem q).mpr hsees)]
  have hself : Sees room p p viewDistanceNarrow :=
    ⟨inv.connected p hp, of_decide_eq_true hp, near_self _ (by decide)⟩
  refine ⟨honce, honce p hself, fun q hnot => ?_, fun m hm => ?_⟩
  · rw [hcount, List.count_eq_zero_of_not_mem fun h => hnot ((hmem q).mp h)]
  · rw [Room.chat, if_pos hp] at hm
    obtain ⟨target, -, rfl⟩ := List.mem_map.mp hm
    rfl

end Operations

/-- In every room reached from one of new players, while every player logged in
is in the sector of its position, a move of a connected player leaves it with the
view list a scan over all players gives and visits each of them once, and a chat
reaches exactly the players a scan finds, each of them once. -/
theorem sectorSearch_agrees {player : P → Player P} (hfresh : ∀ p, (player p).Fresh)
    {room : Room P} (h : ReachableVia step LoginNew (Room.new player) room) (hsync : InSync room)
    {p : P} (hp : (room.player p).state = .connected) :
    (∃ room' out, room.movePlayer p = some (room', out) ∧ MoveAgrees room p room' out) ∧
      ∀ text, ChatAgrees room p text (room.chat p text) := by
  have inv : Inv room := h.invariant (inv_new hfresh) fun _ _ _ inv ok hs => inv_step inv ok hs
  have hvalid : (room.player p).isValidPlayer = true := decide_eq_true hp
  exact ⟨moveAgrees inv hsync hvalid, chatAgrees inv hsync hvalid⟩

end System

/-- Two new players, in neighbouring sectors at the border. -/
def twoPlayers (p : Bool) : Player Bool where
  info :=
    { toPosInfo := if p then SectorJobs.cornerPos else { SectorJobs.cornerPos with x := -18000 }
      playerId := "a"
      playerType := 0
      timeStamp := 0 }
  state := .disconnected
  idxInfo := (0, 0)
  viewList := .empty

/-- Both log in, and one moves toward the other. -/
def approach : List (Op Bool) :=
  [.login true, .login false, .updatePosition true { SectorJobs.cornerPos with x := -19000 } 1,
    .movePlayer true]

/-- The search of the sectors agrees with a scan when it moves again. -/
theorem sectorSearch_agrees_two : ∃ room, run step (Room.new twoPlayers) approach = some room ∧
    Sees room true false viewDistanceNarrow ∧
    (∃ room' out, room.movePlayer true = some (room', out) ∧ MoveAgrees room true room' out) ∧
      ∀ text, ChatAgrees room true text (room.chat true text) := by
  have h : ((run step (Room.new twoPlayers) approach).any fun room =>
      (∀ p : Bool, (room.player p).idxInfo = getPlayerSectorIdx (room.player p).info.toPosInfo) ∧
      (room.player true).state = .connected ∧ false ∈ room.players ∧
      (room.player false).state = .connected ∧
      near (room.player true).info.toPosInfo (room.player false).info.toPosInfo
        viewDistanceNarrow = true) = true := by
    decide +kernel
  obtain ⟨room, hr, hview⟩ := (Option.any_eq_true _ _).mp h
  obtain ⟨hsync, hconnected, hsees⟩ := of_decide_eq_true hview
  exact ⟨room, hr, hsees, sectorSearch_agrees (fun p => ⟨rfl, rfl⟩)
    ⟨approach, hr, by decide +kernel⟩ (fun p _ => hsync p) hconnected⟩

end RioIocpServer.SectorSearch
