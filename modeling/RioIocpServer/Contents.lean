import RioIocpServer.GridWindow
import Mathlib.Data.Rat.Floor
import Mathlib.Data.List.Nodup

/-!
# The game room

Players stand on a map cut into zones and sectors. `Room::Login` and
`Room::Logout` enter and remove a player, `Zone::MovePlayer` moves a player
between sectors and tells the players around it, `Zone::Chat` passes a text on.
Coordinates are exact rationals, converted to `int` by truncation toward zero.
A player is told apart by its `m_playerId`, so ids are distinct. An access to a
sector that `m_sectors` does not have is undefined in the source and `none` here.
What a function sends is the list of its `Send*Msg` calls with the player whose
session is called; the clock readings of `MovePlayer` are left out.
-/

namespace RioIocpServer.Contents

/-- A hash set: its elements in the order of iteration, none of them twice. -/
structure UnorderedSet (P : Type*) where
  /-- The elements. -/
  elems : List P
  /-- No element occurs twice. -/
  nodup : elems.Nodup

namespace UnorderedSet

variable {P : Type*} {p q : P} {set : UnorderedSet P}

instance : Membership P (UnorderedSet P) where
  mem set p := p ∈ set.elems

/-- The empty set. -/
def empty : UnorderedSet P := ⟨[], List.nodup_nil⟩

theorem not_mem_empty : p ∉ (empty : UnorderedSet P) := List.not_mem_nil

variable [DecidableEq P]

instance : Decidable (p ∈ set) := inferInstanceAs (Decidable (p ∈ set.elems))

/-- `insert`. -/
def insert (set : UnorderedSet P) (p : P) : UnorderedSet P :=
  ⟨set.elems.insert p, set.nodup.insert⟩

/-- `erase`. -/
def erase (set : UnorderedSet P) (p : P) : UnorderedSet P :=
  ⟨set.elems.erase p, set.nodup.erase p⟩

/-- Every element of a list inserted, one after the other. -/
def insertAll (set : UnorderedSet P) (items : List P) : UnorderedSet P := items.foldl insert set

@[simp] theorem mem_insert : q ∈ set.insert p ↔ q = p ∨ q ∈ set := List.mem_insert_iff

@[simp] theorem mem_erase : q ∈ set.erase p ↔ q ≠ p ∧ q ∈ set := set.nodup.mem_erase_iff

/-- A new element makes the set larger by one. -/
theorem length_insert (h : p ∉ set) : (set.insert p).elems.length = set.elems.length + 1 :=
  List.length_insert_of_not_mem h

/-- An element that is erased makes it smaller by one. -/
theorem length_erase (h : p ∈ set) : (set.erase p).elems.length = set.elems.length - 1 :=
  List.length_erase_of_mem h

@[simp] theorem mem_insertAll {items : List P} :
    q ∈ set.insertAll items ↔ q ∈ set ∨ q ∈ items := by
  induction items generalizing set with
  | nil => simp [insertAll]
  | cons item items ih =>
    have hrest : q ∈ (set.insert item).insertAll items ↔ q ∈ set.insert item ∨ q ∈ items := ih
    rw [mem_insert] at hrest
    rw [List.mem_cons]
    exact hrest.trans ⟨fun h => by tauto, fun h => by tauto⟩

end UnorderedSet

/-- `Protocol::PLAYER_POS_INFO`. -/
structure PosInfo where
  /-- Coordinates. -/
  x : ℚ
  y : ℚ
  z : ℚ
  /-- Orientation. -/
  yaw : ℚ
  pitch : ℚ
  roll : ℚ
  /-- Velocity. -/
  vx : ℚ
  vy : ℚ
  vz : ℚ
  /-- Acceleration. -/
  ax : ℚ
  ay : ℚ
  az : ℚ
  deriving DecidableEq

/-- `PlayerInfo`. -/
structure PlayerInfo extends PosInfo where
  /-- The name the client gave. -/
  playerId : String
  /-- The type the client gave. -/
  playerType : ℤ
  /-- The time of the last position. -/
  timeStamp : ℤ
  deriving DecidableEq

/-- `State`. -/
inductive PlayerState where
  | connected
  | disconnected
  deriving DecidableEq

/-- `Player`. -/
structure Player (P : Type*) where
  /-- `m_playerInfo`. -/
  info : PlayerInfo
  /-- `m_playerState`. -/
  state : PlayerState
  /-- `m_idxInfo.sector_y` and `m_idxInfo.sector_x`; the zone indices of
  `IdxInfo` are never used. -/
  idxInfo : ℤ × ℤ
  /-- `m_viewList`. -/
  viewList : UnorderedSet P

/-- `IsValidPlayer`. -/
def Player.isValidPlayer {P : Type*} (player : Player P) : Bool := player.state = .connected

/-- A player whose constructor has run. `m_idxInfo` is not initialized. -/
structure Player.Fresh {P : Type*} (player : Player P) : Prop where
  /-- `m_playerState(State::Disconnected)`. -/
  state_eq : player.state = .disconnected
  /-- `m_viewList()`. -/
  viewList_eq : player.viewList = .empty

/-- The calls a player's session gets. -/
inductive Message (P : Type*) where
  /-- `SendLoginResultMsg`. -/
  | loginResult (result : Bool) (playerType : ℤ)
  /-- `SendMoveMsg`. -/
  | move (targetId : P) (info : PlayerInfo)
  /-- `SendEnterMsg`. -/
  | enter (targetId : P) (info : PlayerInfo)
  /-- `SendLeaveMsg`. -/
  | leave (targetId : P)
  /-- `SendMoveResultMsg`. -/
  | moveResult
  /-- `SendChat`. -/
  | chat (targetId : P) (playerStrId : String) (chat : String)

/-- `VIEW_DISTANCE`. -/
def viewDistance : ℤ := 2500

/-- `VIEW_DISTANCE_NARROW`. -/
def viewDistanceNarrow : ℤ := 1250

/-- `MAP_MIN_Y` and `MAP_MIN_X`. -/
def mapMin : ℤ := -20000

/-- `ZONE_WIDTH` and `ZONE_HEIGHT`. -/
def zoneWidth : ℤ := 10000

/-- `SECTOR_WIDTH` and `SECTOR_HEIGHT`. -/
def sectorWidth : ℤ := 1250

/-- `MAP_WIDTH` and `MAP_HEIGHT`. -/
def mapWidth : ℤ := 40000

/-- `m_zoneListSizeY` and `m_zoneListSizeX`. -/
def zoneListSize : ℤ := mapWidth / zoneWidth

/-- `m_sectorListSizeY` and `m_sectorListSizeX`. -/
def sectorListSize : ℤ := mapWidth / sectorWidth

/-- `Room::GetPlayerZoneIdx`. -/
def getPlayerZoneIdx (pos : PosInfo) : ℤ × ℤ :=
  (GridWindow.cell mapMin zoneWidth zoneListSize pos.y,
    GridWindow.cell mapMin zoneWidth zoneListSize pos.x)

/-- `Room::GetPlayerSectorIdx`. -/
def getPlayerSectorIdx (pos : PosInfo) : ℤ × ℤ :=
  (GridWindow.cell mapMin sectorWidth sectorListSize pos.y,
    GridWindow.cell mapMin sectorWidth sectorListSize pos.x)

/-- The indices of the sectors `Room::GetAdjacentSectors` collects. -/
def getAdjacentSectors (pos : PosInfo) : List (ℤ × ℤ) :=
  GridWindow.window 2 sectorListSize sectorListSize (getPlayerSectorIdx pos)

/-- The indices of the sectors `Room::GetNarrowAdjacentSectors` collects. -/
def getNarrowAdjacentSectors (pos : PosInfo) : List (ℤ × ℤ) :=
  GridWindow.window 1 sectorListSize sectorListSize (getPlayerSectorIdx pos)

/-- `Zone::IsNear`, with both sides of the comparison squared. -/
def isNear (posX1 posY1 posX2 posY2 viewDist : ℤ) : Bool :=
  (posX1 - posX2) * (posX1 - posX2) + (posY1 - posY2) * (posY1 - posY2) < viewDist * viewDist

/-- `IsNear` of two players, whose coordinates are converted to `int`. -/
def near (pos target : PosInfo) (viewDist : ℤ) : Bool :=
  isNear (GridWindow.trunc pos.x) (GridWindow.trunc pos.y) (GridWindow.trunc target.x)
    (GridWindow.trunc target.y) viewDist

/-- An index `m_sectors` has. -/
def InGrid (c : ℤ × ℤ) : Prop :=
  (0 ≤ c.1 ∧ c.1 < sectorListSize) ∧ (0 ≤ c.2 ∧ c.2 < sectorListSize)

instance (c : ℤ × ℤ) : Decidable (InGrid c) := inferInstanceAs (Decidable (_ ∧ _))

/-- `Room` and the players created. -/
structure Room (P : Type*) where
  /-- The `Player` objects. -/
  player : P → Player P
  /-- The keys of `m_players`. -/
  players : UnorderedSet P
  /-- `m_sectors[y][x]->m_players`. -/
  sectors : ℤ × ℤ → UnorderedSet P
  /-- `m_loginCnt`. -/
  loginCnt : ℤ

/-- A room nobody has logged in to. -/
def Room.new {P : Type*} (player : P → Player P) : Room P where
  player := player
  players := .empty
  sectors _ := .empty
  loginCnt := 0

section Windows

variable {pos target : PosInfo}

/-- A position has a sector. -/
theorem inGrid_getPlayerSectorIdx (pos : PosInfo) : InGrid (getPlayerSectorIdx pos) :=
  ⟨GridWindow.cell_mem (by decide) _, GridWindow.cell_mem (by decide) _⟩

/-- A window of radius `k` contains the sectors of all positions nearer than `k`
widths. -/
theorem mem_window_of_near {k : ℕ} (h : near pos target (k * sectorWidth) = true) :
    getPlayerSectorIdx target ∈
      GridWindow.window k sectorListSize sectorListSize (getPlayerSectorIdx pos) := by
  have hsq := of_decide_eq_true h
  have hd : 0 ≤ (k : ℤ) * sectorWidth := mul_nonneg (Int.natCast_nonneg k) (by decide)
  obtain ⟨hx, hy⟩ := GridWindow.abs_lt_of_sq_add_lt hd hsq
  have hgrid := inGrid_getPlayerSectorIdx target
  exact GridWindow.mem_window.mpr ⟨hgrid.1, hgrid.2,
    GridWindow.abs_cell_sub_le (by decide) (by decide) (Int.natCast_nonneg k) hy,
    GridWindow.abs_cell_sub_le (by decide) (by decide) (Int.natCast_nonneg k) hx⟩

/-- The adjacent sectors cover the view distance. -/
theorem mem_adjacentSectors (h : near pos target viewDistance = true) :
    getPlayerSectorIdx target ∈ getAdjacentSectors pos :=
  mem_window_of_near (k := 2) h

/-- The narrow adjacent sectors cover the narrow view distance. -/
theorem mem_narrowAdjacentSectors (h : near pos target viewDistanceNarrow = true) :
    getPlayerSectorIdx target ∈ getNarrowAdjacentSectors pos :=
  mem_window_of_near (k := 1) h

/-- What the windows of sectors are for, with two positions anywhere on the map or
outside of it. -/
structure WindowsCover (pos target : PosInfo) : Prop where
  /-- The first one has a sector. -/
  sector_inGrid : InGrid (getPlayerSectorIdx pos)
  /-- A position in view is in an adjacent sector. -/
  adjacent : near pos target viewDistance = true →
    getPlayerSectorIdx target ∈ getAdjacentSectors pos
  /-- One in the narrow view is in a narrow adjacent sector. -/
  narrow : near pos target viewDistanceNarrow = true →
    getPlayerSectorIdx target ∈ getNarrowAdjacentSectors pos
  /-- Only sectors of the map are collected, -/
  adjacent_inGrid : ∀ c ∈ getAdjacentSectors pos, InGrid c
  narrow_inGrid : ∀ c ∈ getNarrowAdjacentSectors pos, InGrid c
  /-- each of them once. -/
  adjacent_nodup : (getAdjacentSectors pos).Nodup
  narrow_nodup : (getNarrowAdjacentSectors pos).Nodup

/-- A sector of a window is one of the map. -/
theorem inGrid_of_mem_window {k : ℕ} {c n : ℤ × ℤ}
    (h : n ∈ GridWindow.window k sectorListSize sectorListSize c) : InGrid n := by
  obtain ⟨hy, hx, -, -⟩ := GridWindow.mem_window.mp h
  exact ⟨hy, hx⟩

/-- The windows cover the view distances, whatever the positions. -/
theorem windows_cover (pos target : PosInfo) : WindowsCover pos target where
  sector_inGrid := inGrid_getPlayerSectorIdx pos
  adjacent := mem_adjacentSectors
  narrow := mem_narrowAdjacentSectors
  adjacent_inGrid _ := inGrid_of_mem_window
  narrow_inGrid _ := inGrid_of_mem_window
  adjacent_nodup := GridWindow.nodup_window
  narrow_nodup := GridWindow.nodup_window

/-- A player is near itself. -/
theorem near_self (pos : PosInfo) {viewDist : ℤ} (hd : 0 < viewDist) :
    near pos pos viewDist = true := by
  apply decide_eq_true
  have hpos := mul_pos hd hd
  simpa using hpos

end Windows

section Operations

variable {P : Type*} [DecidableEq P]

/-- The room with one player changed. -/
def Room.setPlayer (room : Room P) (p : P) (player : Player P) : Room P :=
  { room with player := Function.update room.player p player }

/-- `m_sectors[c]->m_players.Insert`. -/
def Room.insertSector (room : Room P) (c : ℤ × ℤ) (p : P) : Option (Room P) :=
  if InGrid c then
    some { room with sectors := Function.update room.sectors c ((room.sectors c).insert p) }
  else none

/-- `m_sectors[c]->m_players.Erase`. -/
def Room.eraseSector (room : Room P) (c : ℤ × ℤ) (p : P) : Option (Room P) :=
  if InGrid c then
    some { room with sectors := Function.update room.sectors c ((room.sectors c).erase p) }
  else none

/-- `Room::Login`. -/
def Room.login (room : Room P) (p : P) : Option (Room P × List (P × Message P)) := do
  let idx := getPlayerSectorIdx (room.player p).info.toPosInfo
  let inserted ← room.insertSector idx p
  let entered := { inserted with
    loginCnt := room.loginCnt + 1
    players := room.players.insert p }
  return (entered.setPlayer p { room.player p with state := .connected, idxInfo := idx },
    [(p, .loginResult true (room.player p).info.playerType)])

/-- `Room::Logout`. -/
def Room.logout (room : Room P) (p : P) : Option (Room P × List (P × Message P)) := do
  let erased ← room.eraseSector (room.player p).idxInfo p
  let left := { erased with
    players := room.players.erase p
    loginCnt := room.loginCnt - 1 }
  return (left.setPlayer p { room.player p with state := .disconnected }, [])

/-- The part of `Handle_C2S_MOVE` that stores the new position. -/
def Room.updatePosition (room : Room P) (p : P) (pos : PosInfo) (timeStamp : ℤ) : Room P :=
  room.setPlayer p { room.player p with
    info := { (room.player p).info with toPosInfo := pos, timeStamp := timeStamp } }

/-- The part of `Zone::MovePlayer` that changes the sector. -/
def Room.updateSector (room : Room P) (p : P) : Option (Room P) :=
  let idx := getPlayerSectorIdx (room.player p).info.toPosInfo
  if idx ≠ (room.player p).idxInfo then do
    let erased ← room.eraseSector (room.player p).idxInfo p
    let inserted ← erased.insertSector idx p
    return inserted.setPlayer p { room.player p with idxInfo := idx }
  else some room

/-- The players of some sectors that are `Connected` and near a player, in the
order of the two loops. -/
def Room.nearby (room : Room P) (p : P) (view : List (ℤ × ℤ)) (viewDist : ℤ) : List P :=
  view.flatMap fun c => (room.sectors c).elems.filter fun target =>
    (room.player target).isValidPlayer &&
      near (room.player p).info.toPosInfo (room.player target).info.toPosInfo viewDist

/-- The targets `Zone::MovePlayer` does not skip. -/
def Room.visited (room : Room P) (p : P) : List P :=
  (room.nearby p (getAdjacentSectors (room.player p).info.toPosInfo) viewDistance).filter
    fun target => target ≠ p

/-- What `Zone::MovePlayer` sends for one target. -/
def Room.moveMessages (room : Room P) (p target : P) : List (P × Message P) :=
  (if p ∈ (room.player target).viewList then [(target, .move p (room.player p).info)]
    else [(target, .enter p (room.player p).info)]) ++
  (if target ∈ (room.player p).viewList then []
    else [(p, .enter target (room.player target).info)])

/-- What `Zone::MovePlayer` sends for a target that left the view. -/
def Room.leaveMessages (room : Room P) (p target : P) : List (P × Message P) :=
  [(p, .leave target)] ++ if target ∈ room.players then [(target, .leave p)] else []

/-- `Zone::MovePlayer`. -/
def Room.movePlayer (room : Room P) (p : P) : Option (Room P × List (P × Message P)) :=
  if (room.player p).isValidPlayer = true then do
    let moved ← room.updateSector p
    let targets := moved.visited p
    let newViewList := UnorderedSet.empty.insertAll targets
    let gone := (room.player p).viewList.elems.filter fun target => target ∉ newViewList
    return (moved.setPlayer p { moved.player p with viewList := newViewList },
      targets.flatMap (moved.moveMessages p) ++ gone.flatMap (moved.leaveMessages p) ++
        [(p, .moveResult)])
  else some (room, [])

/-- `Zone::Chat`. -/
def Room.chat (room : Room P) (p : P) (chat : String) : List (P × Message P) :=
  if (room.player p).isValidPlayer = true then
    (room.nearby p (getNarrowAdjacentSectors (room.player p).info.toPosInfo)
      viewDistanceNarrow).map fun target =>
        (target, .chat p (room.player p).info.playerId chat)
  else []

section Sectors

variable {room room' : Room P} {p q : P} {sectors : ℤ × ℤ → UnorderedSet P} {c d : ℤ × ℤ}

@[simp] theorem setPlayer_self (player : Player P) : (room.setPlayer p player).player p = player := by
  rw [Room.setPlayer]
  exact Function.update_self p player room.player

/-- The other players stay as they are. -/
theorem setPlayer_of_ne (player : Player P) (hq : q ≠ p) :
    (room.setPlayer p player).player q = room.player q := by
  rw [Room.setPlayer]
  exact Function.update_of_ne hq player room.player

/-- An `Erase` changes one set. -/
theorem eraseSector_eq_some (h : room.eraseSector c p = some room') :
    room' = { room with sectors := Function.update room.sectors c ((room.sectors c).erase p) } := by
  rw [Room.eraseSector] at h
  split at h <;> cases h
  rfl

/-- An `Insert` changes one set. -/
theorem insertSector_eq_some (h : room.insertSector c p = some room') :
    room' = { room with sectors := Function.update room.sectors c ((room.sectors c).insert p) } := by
  rw [Room.insertSector] at h
  split at h <;> cases h
  rfl

/-- The sets after an `Insert`. -/
theorem mem_insertSector : q ∈ Function.update sectors c ((sectors c).insert p) d ↔
    q ∈ sectors d ∨ (q = p ∧ d = c) := by
  by_cases hd : d = c
  · subst hd
    rw [Function.update_self, UnorderedSet.mem_insert, or_comm]
    simp
  · rw [Function.update_of_ne hd]
    simp [hd]

/-- The sets after an `Erase`. -/
theorem mem_eraseSector : q ∈ Function.update sectors c ((sectors c).erase p) d ↔
    q ∈ sectors d ∧ (q = p → d ≠ c) := by
  by_cases hd : d = c
  · subst hd
    rw [Function.update_self, UnorderedSet.mem_erase, and_comm]
    simp
  · rw [Function.update_of_ne hd]
    simp [hd]

end Sectors

end Operations

end RioIocpServer.Contents
