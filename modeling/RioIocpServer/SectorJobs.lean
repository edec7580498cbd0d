import RioIocpServer.TransitionSystem
import RioIocpServer.Contents

/-!
# Moves and logouts of a player at the same time

`Room::MovePlayer` queues a job on the zone the player stands in when it is
called, `Room::Logout` is a job of the room. Each queue runs one job at a time
and the queues run in parallel, so jobs of one player may overlap. Each read of
the state, the position and `m_idxInfo`, each change of a sector's set, of
`m_players` and of `m_idxInfo`, and each write of `m_playerState` is one step.
What `Zone::MovePlayer` does after it has written `m_idxInfo` concerns view lists
only and is one step without effect here. The two histories are read by no step.
-/

namespace RioIocpServer.SectorJobs

open TransitionSystem Contents

/-- Where a `Zone::MovePlayer` job stands. -/
inductive MovePc where
  /-- At `IsValidPlayer`. -/
  | valid
  /-- At `GetPlayerSectorIdx`. -/
  | sectorIdx
  /-- At the comparison with `m_idxInfo`. -/
  | compare (idx : ℤ × ℤ)
  /-- At the `Erase`. -/
  | erase (idx : ℤ × ℤ)
  /-- At the `Insert`. -/
  | insert (idx : ℤ × ℤ)
  /-- At the update of `m_idxInfo`. -/
  | writeIdx (idx : ℤ × ℤ)
  /-- At the view list. -/
  | view
  deriving DecidableEq

/-- The sector a job between its `Erase` and its update of `m_idxInfo` moves the
player to. -/
def MovePc.target : MovePc → Option (ℤ × ℤ)
  | .insert idx => some idx
  | .writeIdx idx => some idx
  | _ => none

/-- Where a `Room::Logout` job stands. -/
inductive LogoutPc where
  /-- At the `Erase` of the sector. -/
  | eraseSector
  /-- At the `Erase` of `m_players`. -/
  | erasePlayer
  /-- At the write of `m_playerState`. -/
  | writeState
  /-- At `m_loginCnt`. -/
  | loginCnt
  deriving DecidableEq

/-- The room and its job queues. -/
structure State (P : Type*) where
  /-- The room and the players. -/
  room : Room P
  /-- The players whose moves wait in the queue of a zone. -/
  zoneQueue : ℤ × ℤ → List P
  /-- The move a zone executes. -/
  zoneJob : ℤ × ℤ → Option (P × MovePc)
  /-- The players whose logouts wait in the queue of the room. -/
  roomQueue : List P
  /-- The logout the room executes. -/
  roomJob : Option (P × LogoutPc)
  /-- History: a logout of the player has erased it from a sector. -/
  erased : P → Bool
  /-- History: a logout of the player has completed. -/
  loggedOut : P → Bool

/-- A room of players that have logged in, with empty queues. -/
def init {P : Type*} (room : Room P) : State P where
  room := room
  zoneQueue _ := []
  zoneJob _ := none
  roomQueue := []
  roomJob := none
  erased _ := false
  loggedOut _ := false

/-- The steps of the sessions and of the queues. -/
inductive Action (P : Type*) where
  /-- `Handle_C2S_MOVE` stores a position. -/
  | updatePosition (p : P) (pos : PosInfo) (timeStamp : ℤ)
  /-- `Room::MovePlayer`. -/
  | movePlayer (p : P)
  /-- `DoAsync(&Room::Logout)`. -/
  | logout (p : P)
  /-- A zone starts its next job or goes on with the one it executes. -/
  | zoneRun (zone : ℤ × ℤ)
  /-- The room starts its next job or goes on with the one it executes. -/
  | roomRun

section System

variable {P : Type*} [DecidableEq P]

/-- The state with the job of one zone changed. -/
def State.setZone (s : State P) (zone : ℤ × ℤ) (job : Option (P × MovePc)) : State P :=
  { s with zoneJob := Function.update s.zoneJob zone job }

/-- One step of a `Zone::MovePlayer` job. -/
def moveStep (s : State P) (zone : ℤ × ℤ) (p : P) : MovePc → Option (State P)
  | .valid =>
    if (s.room.player p).isValidPlayer = true then some (s.setZone zone (some (p, .sectorIdx)))
    else some (s.setZone zone none)
  | .sectorIdx =>
    some (s.setZone zone (some (p, .compare (getPlayerSectorIdx (s.room.player p).info.toPosInfo))))
  | .compare idx =>
    if idx ≠ (s.room.player p).idxInfo then some (s.setZone zone (some (p, .erase idx)))
    else some (s.setZone zone (some (p, .view)))
  | .erase idx =>
    (s.room.eraseSector (s.room.player p).idxInfo p).map fun room =>
      { (s.setZone zone (some (p, .insert idx))) with room := room }
  | .insert idx =>
    (s.room.insertSector idx p).map fun room =>
      { (s.setZone zone (some (p, .writeIdx idx))) with room := room }
  | .writeIdx idx =>
    some { (s.setZone zone (some (p, .view))) with
      room := s.room.setPlayer p { s.room.player p with idxInfo := idx } }
  | .view => some (s.setZone zone none)

/-- One step of a `Room::Logout` job. -/
def logoutStep (s : State P) (p : P) : LogoutPc → Option (State P)
  | .eraseSector =>
    (s.room.eraseSector (s.room.player p).idxInfo p).map fun room =>
      { s with
        room := room
        roomJob := some (p, .erasePlayer)
        erased := Function.update s.erased p true }
  | .erasePlayer => some { s with
      room := { s.room with players := s.room.players.erase p }
      roomJob := some (p, .writeState) }
  | .writeState => some { s with
      room := s.room.setPlayer p { s.room.player p with state := .disconnected }
      roomJob := some (p, .loginCnt) }
  | .loginCnt => some { s with
      room := { s.room with loginCnt := s.room.loginCnt - 1 }
      roomJob := none
      loggedOut := Function.update s.loggedOut p true }

/-- One step. -/
def step (s : State P) : Action P → Option (State P)
  | .updatePosition p pos timeStamp =>
    some { s with room := s.room.updatePosition p pos timeStamp }
  | .movePlayer p =>
    let zone := getPlayerZoneIdx (s.room.player p).info.toPosInfo
    some { s with zoneQueue := Function.update s.zoneQueue zone (s.zoneQueue zone ++ [p]) }
  | .logout p => some { s with roomQueue := s.roomQueue ++ [p] }
  | .zoneRun zone =>
    match s.zoneJob zone, s.zoneQueue zone with
    | some (p, pc), _ => moveStep s zone p pc
    | none, p :: rest => some { (s.setZone zone (some (p, .valid))) with
        zoneQueue := Function.update s.zoneQueue zone rest }
    | none, [] => none
  | .roomRun =>
    match s.roomJob, s.roomQueue with
    | some (p, pc), _ => logoutStep s p pc
    | none, p :: rest => some { s with
        roomQueue := rest
        roomJob := some (p, .eraseSector) }
    | none, [] => none

/-- No job of the player is executed. -/
structure Idle (s : State P) (p : P) : Prop where
  /-- No zone moves it. -/
  zoneJob : ∀ zone pc, s.zoneJob zone ≠ some (p, pc)
  /-- The room does not log it out. -/
  roomJob : ∀ pc, s.roomJob ≠ some (p, pc)

/-- Between its jobs a player is in the set of no sector but the one `m_idxInfo`
names, and in none once it has logged out. -/
def Settled (s : State P) : Prop :=
  ∀ p, Idle s p → (∀ c, p ∈ s.room.sectors c → c = (s.room.player p).idxInfo) ∧
    (s.loggedOut p = true → ∀ c, p ∉ s.room.sectors c)

/-- A zone is about to insert the player into a sector, or to write that it has,
for the target given. -/
def Moving (s : State P) (p : P) (target : ℤ × ℤ) : Prop :=
  ∃ zone pc, s.zoneJob zone = some (p, pc) ∧ pc.target = some target

/-- The moves and logouts of one player do not cross: a move erases the player
from its sector only while every other move between its `Erase` and its update of
`m_idxInfo` has the same target and no logout has erased the player; a logout
erases it only while there is no such move. -/
def Uncrossed (s : State P) : Action P → Prop
  | .zoneRun zone => ∀ p idx, s.zoneJob zone = some (p, .erase idx) →
      s.erased p = false ∧ ∀ target, Moving s p target → target = idx
  | .roomRun => ∀ p, s.roomJob = some (p, .eraseSector) → ∀ target, ¬ Moving s p target
  | _ => True

/-- What `Room::Login` establishes: a player is in the set of no sector but the
one `m_idxInfo` names. -/
def Placed (room : Room P) : Prop :=
  ∀ p c, p ∈ room.sectors c → c = (room.player p).idxInfo

/-- The invariant of runs whose moves and logouts do not cross. -/
structure Inv (s : State P) : Prop where
  /-- The moves of a player between `Erase` and `m_idxInfo` have one target. -/
  target_unique : ∀ p target target', Moving s p target → Moving s p target' → target = target'
  /-- While there is such a move the player is nowhere but at its target. -/
  moving : ∀ p target c, Moving s p target → p ∈ s.room.sectors c → c = target
  /-- While there is none it is nowhere but where `m_idxInfo` says. -/
  resting : ∀ p c, (∀ target, ¬ Moving s p target) → p ∈ s.room.sectors c →
    c = (s.room.player p).idxInfo
  /-- A player that a logout has erased does not move any more. -/
  not_moving : ∀ p target, s.erased p = true → ¬ Moving s p target
  /-- It is nowhere. -/
  not_mem : ∀ p c, s.erased p = true → p ∉ s.room.sectors c

/-- The histories fit the job of the room. -/
structure Recorded (s : State P) : Prop where
  /-- A logout past its first step has erased the player. -/
  erased_of_job : ∀ p pc, s.roomJob = some (p, pc) → pc ≠ .eraseSector → s.erased p = true
  /-- So has a completed one. -/
  erased_of_loggedOut : ∀ p, s.loggedOut p = true → s.erased p = true

/-- The player a job is moving and its target, while the job is between its
`Erase` and its update of `m_idxInfo`. -/
def jobTarget (job : Option (P × MovePc)) : Option (P × (ℤ × ℤ)) :=
  job.bind fun (p, pc) => pc.target.map fun target => (p, target)

/-- What one step does to the sectors, to `m_idxInfo` and to the moves. -/
inductive Effect (s s' : State P) : Action P → Prop
  | quiet (a : Action P) (hsectors : s'.room.sectors = s.room.sectors)
      (hidx : ∀ q, (s'.room.player q).idxInfo = (s.room.player q).idxInfo)
      (htarget : ∀ z, jobTarget (s'.zoneJob z) = jobTarget (s.zoneJob z))
      (herased : s'.erased = s.erased) : Effect s s' a
  | erased (zone : ℤ × ℤ) (p : P) (idx : ℤ × ℤ) (hjob : s.zoneJob zone = some (p, .erase idx))
      (hsectors : s'.room.sectors = Function.update s.room.sectors (s.room.player p).idxInfo
        ((s.room.sectors (s.room.player p).idxInfo).erase p))
      (hidx : ∀ q, (s'.room.player q).idxInfo = (s.room.player q).idxInfo)
      (hjob' : s'.zoneJob = Function.update s.zoneJob zone (some (p, .insert idx)))
      (herased : s'.erased = s.erased) : Effect s s' (.zoneRun zone)
  | inserted (zone : ℤ × ℤ) (p : P) (idx : ℤ × ℤ) (hjob : s.zoneJob zone = some (p, .insert idx))
      (hsectors : s'.room.sectors =
        Function.update s.room.sectors idx ((s.room.sectors idx).insert p))
      (hidx : ∀ q, (s'.room.player q).idxInfo = (s.room.player q).idxInfo)
      (htarget : ∀ z, jobTarget (s'.zoneJob z) = jobTarget (s.zoneJob z))
      (herased : s'.erased = s.erased) : Effect s s' (.zoneRun zone)
  | written (zone : ℤ × ℤ) (p : P) (idx : ℤ × ℤ) (hjob : s.zoneJob zone = some (p, .writeIdx idx))
      (hsectors : s'.room.sectors = s.room.sectors)
      (hidx : ∀ q, (s'.room.player q).idxInfo =
        if q = p then idx else (s.room.player q).idxInfo)
      (hjob' : s'.zoneJob = Function.update s.zoneJob zone (some (p, .view)))
      (herased : s'.erased = s.erased) : Effect s s' (.zoneRun zone)
  | left (p : P) (hjob : s.roomJob = some (p, .eraseSector))
      (hsectors : s'.room.sectors = Function.update s.room.sectors (s.room.player p).idxInfo
        ((s.room.sectors (s.room.player p).idxInfo).erase p))
      (hidx : ∀ q, (s'.room.player q).idxInfo = (s.room.player q).idxInfo)
      (hjob' : s'.zoneJob = s.zoneJob)
      (herased : s'.erased = Function.update s.erased p true) : Effect s s' .roomRun

section Effects

variable {s s' : State P} {a : Action P} {p q : P} {zone target : ℤ × ℤ}

omit [DecidableEq P] in
/-- The moves in terms of the jobs' targets. -/
theorem moving_iff : Moving s p target ↔ ∃ z, jobTarget (s.zoneJob z) = some (p, target) := by
  constructor
  · rintro ⟨z, pc, hjob, htarget⟩
    exact ⟨z, by simp [jobTarget, hjob, htarget]⟩
  · rintro ⟨z, h⟩
    obtain ⟨⟨u, pc⟩, hjob, hmap⟩ := Option.bind_eq_some_iff.mp h
    obtain ⟨c, hc, heq⟩ := Option.map_eq_some_iff.mp hmap
    cases heq
    exact ⟨z, pc, hjob, hc⟩

omit [DecidableEq P] in
/-- Jobs with the same targets are the same moves. -/
theorem moving_congr (h : ∀ z, jobTarget (s'.zoneJob z) = jobTarget (s.zoneJob z)) :
    Moving s' p target ↔ Moving s p target := by
  simp only [moving_iff, h]

omit [DecidableEq P] in
/-- Changing the job of one zone to one with the same target changes no target. -/
theorem jobTarget_setZone {job : Option (P × MovePc)}
    (h : jobTarget job = jobTarget (s.zoneJob zone)) (z : ℤ × ℤ) :
    jobTarget ((s.setZone zone job).zoneJob z) = jobTarget (s.zoneJob z) := by
  show jobTarget (Function.update s.zoneJob zone job z) = _
  by_cases hz : z = zone
  · rw [hz, Function.update_self, h]
  · rw [Function.update_of_ne hz]

/-- Changing a player without its `m_idxInfo` changes nobody's. -/
theorem idxInfo_setPlayer {room : Room P} {player : Player P}
    (h : player.idxInfo = (room.player p).idxInfo) (q : P) :
    ((room.setPlayer p player).player q).idxInfo = (room.player q).idxInfo := by
  show (Function.update room.player p player q).idxInfo = _
  by_cases hq : q = p
  · rw [hq, Function.update_self, h]
  · rw [Function.update_of_ne hq]

/-- The effect of one step of a move. -/
theorem moveStep_effect {pc : MovePc} (hjob : s.zoneJob zone = some (p, pc))
    (h : moveStep s zone p pc = some s') : Effect s s' (.zoneRun zone) := by
  cases pc with
  | valid =>
    rw [moveStep] at h
    split at h <;> cases h <;>
      exact .quiet _ rfl (fun _ => rfl) (jobTarget_setZone (by rw [hjob]; rfl)) rfl
  | sectorIdx =>
    cases h
    exact .quiet _ rfl (fun _ => rfl) (jobTarget_setZone (by rw [hjob]; rfl)) rfl
  | compare idx =>
    rw [moveStep] at h
    split at h <;> cases h <;>
      exact .quiet _ rfl (fun _ => rfl) (jobTarget_setZone (by rw [hjob]; rfl)) rfl
  | erase idx =>
    obtain ⟨room, hroom, rfl⟩ := Option.map_eq_some_iff.mp h
    cases eraseSector_eq_some hroom
    exact .erased zone p idx hjob rfl (fun _ => rfl) rfl rfl
  | insert idx =>
    obtain ⟨room, hroom, rfl⟩ := Option.map_eq_some_iff.mp h
    cases insertSector_eq_some hroom
    exact .inserted zone p idx hjob rfl (fun _ => rfl) (jobTarget_setZone (by rw [hjob]; rfl)) rfl
  | writeIdx idx =>
    cases h
    refine .written zone p idx hjob rfl (fun q => ?_) rfl rfl
    show (Function.update s.room.player p _ q).idxInfo = _
    by_cases hq : q = p
    · rw [hq, Function.update_self, if_pos rfl]
    · rw [Function.update_of_ne hq, if_neg hq]
  | view =>
    cases h
    exact .quiet _ rfl (fun _ => rfl) (jobTarget_setZone (by rw [hjob]; rfl)) rfl

/-- The effect of one step of a logout. -/
theorem logoutStep_effect {pc : LogoutPc} (hjob : s.roomJob = some (p, pc))
    (h : logoutStep s p pc = some s') : Effect s s' .roomRun := by
  cases pc with
  | eraseSector =>
    obtain ⟨room, hroom, rfl⟩ := Option.map_eq_some_iff.mp h
    cases eraseSector_eq_some hroom
    exact .left p hjob rfl (fun _ => rfl) rfl rfl
  | erasePlayer =>
    cases h
    exact .quiet _ rfl (fun _ => rfl) (fun _ => rfl) rfl
  | writeState =>
    cases h
    exact .quiet _ rfl (idxInfo_setPlayer rfl) (fun _ => rfl) rfl
  | loginCnt =>
    cases h
    exact .quiet _ rfl (fun _ => rfl) (fun _ => rfl) rfl

/-- The effect of one step. -/
theorem step_effect (h : step s a = some s') : Effect s s' a := by
  cases a with
  | updatePosition p pos timeStamp =>
    cases h
    exact .quiet _ rfl (idxInfo_setPlayer rfl) (fun _ => rfl) rfl
  | movePlayer p =>
    cases h
    exact .quiet _ rfl (fun _ => rfl) (fun _ => rfl) rfl
  | logout p =>
    cases h
    exact .quiet _ rfl (fun _ => rfl) (fun _ => rfl) rfl
  | zoneRun zone =>
    simp only [step] at h
    split at h
    · exact moveStep_effect ‹_› h
    · cases h
      exact .quiet _ rfl (fun _ => rfl)
        (jobTarget_setZone (by rw [‹s.zoneJob zone = none›]; rfl)) rfl
    · cases h
  | roomRun =>
    simp only [step] at h
    split at h
    · exact logoutStep_effect ‹_› h
    · cases h
      exact .quiet _ rfl (fun _ => rfl) (fun _ => rfl) rfl
    · cases h

omit [DecidableEq P] in
/-- The moves after a job has erased its player. -/
theorem moving_erased {idx : ℤ × ℤ} (hjob : s.zoneJob zone = some (p, .erase idx))
    (hjob' : s'.zoneJob = Function.update s.zoneJob zone (some (p, .insert idx))) :
    Moving s' q target ↔ Moving s q target ∨ (q = p ∧ target = idx) := by
  constructor
  · rintro ⟨z, pc, hz, htarget⟩
    rw [hjob'] at hz
    by_cases hzone : z = zone
    · rw [hzone, Function.update_self] at hz
      cases hz
      cases htarget
      exact .inr ⟨rfl, rfl⟩
    · rw [Function.update_of_ne hzone] at hz
      exact .inl ⟨z, pc, hz, htarget⟩
  · rintro (⟨z, pc, hz, htarget⟩ | ⟨rfl, rfl⟩)
    · have hzone : z ≠ zone := by
        rintro rfl
        cases hjob.symm.trans hz
        cases htarget
      exact ⟨z, pc, by rw [hjob', Function.update_of_ne hzone, hz], htarget⟩
    · exact ⟨zone, .insert target, by rw [hjob', Function.update_self], rfl⟩

omit [DecidableEq P] in
/-- The moves before a job has written `m_idxInfo`. -/
theorem moving_written {idx : ℤ × ℤ} (hjob : s.zoneJob zone = some (p, .writeIdx idx))
    (hjob' : s'.zoneJob = Function.update s.zoneJob zone (some (p, .view))) :
    Moving s q target ↔ Moving s' q target ∨ (q = p ∧ target = idx) := by
  constructor
  · rintro ⟨z, pc, hz, htarget⟩
    by_cases hzone : z = zone
    · rw [hzone, hjob] at hz
      cases hz
      cases htarget
      exact .inr ⟨rfl, rfl⟩
    · exact .inl ⟨z, pc, by rw [hjob', Function.update_of_ne hzone, hz], htarget⟩
  · rintro (⟨z, pc, hz, htarget⟩ | ⟨rfl, rfl⟩)
    · rw [hjob'] at hz
      by_cases hzone : z = zone
      · rw [hzone, Function.update_self] at hz
        cases hz
        cases htarget
      · rw [Function.update_of_ne hzone] at hz
        exact ⟨z, pc, hz, htarget⟩
    · exact ⟨zone, .writeIdx target, hjob, rfl⟩

omit [DecidableEq P] in
/-- Steps that leave the sectors, `m_idxInfo` and the moves alone keep the
invariant. -/
theorem inv_quiet (inv : Inv s) (hsectors : s'.room.sectors = s.room.sectors)
    (hidx : ∀ q, (s'.room.player q).idxInfo = (s.room.player q).idxInfo)
    (htarget : ∀ z, jobTarget (s'.zoneJob z) = jobTarget (s.zoneJob z))
    (herased : s'.erased = s.erased) : Inv s' := by
  have hmoving : ∀ q target, Moving s' q target ↔ Moving s q target :=
    fun q target => moving_congr htarget
  constructor
  · intro q target target' ht ht'
    exact inv.target_unique q target target' ((hmoving q target).mp ht) ((hmoving q target').mp ht')
  · intro q target c ht hc
    rw [hsectors] at hc
    exact inv.moving q target c ((hmoving q target).mp ht) hc
  · intro q c ht hc
    rw [hsectors] at hc
    rw [hidx]
    exact inv.resting q c (fun target h => ht target ((hmoving q target).mpr h)) hc
  · intro q target he ht
    rw [herased] at he
    exact inv.not_moving q target he ((hmoving q target).mp ht)
  · intro q c he hc
    rw [herased] at he
    rw [hsectors] at hc
    exact inv.not_mem q c he hc

/-- An `Erase` of a move starts moving the player from where it was. -/
theorem inv_erased (inv : Inv s) {idx : ℤ × ℤ} (hjob : s.zoneJob zone = some (p, .erase idx))
    (hsectors : s'.room.sectors = Function.update s.room.sectors (s.room.player p).idxInfo
      ((s.room.sectors (s.room.player p).idxInfo).erase p))
    (hidx : ∀ q, (s'.room.player q).idxInfo = (s.room.player q).idxInfo)
    (hjob' : s'.zoneJob = Function.update s.zoneJob zone (some (p, .insert idx)))
    (herased : s'.erased = s.erased) (hleft : s.erased p = false)
    (hsame : ∀ target, Moving s p target → target = idx) : Inv s' := by
  have hmoving : ∀ q target, Moving s' q target ↔ Moving s q target ∨ (q = p ∧ target = idx) :=
    fun q target => moving_erased hjob hjob'
  have htarget : ∀ target, Moving s' p target → target = idx := by
    intro target ht
    rcases (hmoving p target).mp ht with hold | ⟨-, heq⟩
    · exact hsame target hold
    · exact heq
  have hother : ∀ q target, q ≠ p → Moving s' q target → Moving s q target :=
    fun q target hq ht => ((hmoving q target).mp ht).resolve_right fun h => hq h.1
  have hmem : ∀ q c, q ∈ s'.room.sectors c →
      q ∈ s.room.sectors c ∧ (q = p → c ≠ (s.room.player p).idxInfo) := by
    intro q c hc
    rw [hsectors] at hc
    exact mem_eraseSector.mp hc
  constructor
  · intro q target target' ht ht'
    by_cases hq : q = p
    · subst hq
      rw [htarget target ht, htarget target' ht']
    · exact inv.target_unique q target target' (hother q target hq ht) (hother q target' hq ht')
  · intro q target c ht hc
    obtain ⟨hold, hne⟩ := hmem q c hc
    by_cases hq : q = p
    · subst hq
      rw [htarget target ht]
      by_cases hany : ∃ target', Moving s q target'
      · obtain ⟨target', ht'⟩ := hany
        rw [← hsame target' ht']
        exact inv.moving q target' c ht' hold
      · exact (hne rfl (inv.resting q c (fun t h => hany ⟨t, h⟩) hold)).elim
    · exact inv.moving q target c (hother q target hq ht) hold
  · intro q c ht hc
    rw [hidx]
    exact inv.resting q c (fun target h => ht target ((hmoving q target).mpr (.inl h)))
      (hmem q c hc).1
  · intro q target he ht
    rw [herased] at he
    have hq : q ≠ p := by
      rintro rfl
      rw [hleft] at he
      cases he
    exact inv.not_moving q target he (hother q target hq ht)
  · intro q c he hc
    rw [herased] at he
    exact inv.not_mem q c he (hmem q c hc).1

/-- An `Insert` puts the player where it is moving. -/
theorem inv_inserted (inv : Inv s) {idx : ℤ × ℤ} (hjob : s.zoneJob zone = some (p, .insert idx))
    (hsectors : s'.room.sectors =
      Function.update s.room.sectors idx ((s.room.sectors idx).insert p))
    (hidx : ∀ q, (s'.room.player q).idxInfo = (s.room.player q).idxInfo)
    (htarget : ∀ z, jobTarget (s'.zoneJob z) = jobTarget (s.zoneJob z))
    (herased : s'.erased = s.erased) : Inv s' := by
  have hmoving : ∀ q target, Moving s' q target ↔ Moving s q target :=
    fun q target => moving_congr htarget
  have hp : Moving s p idx := ⟨zone, .insert idx, hjob, rfl⟩
  have hmem : ∀ q c, q ∈ s'.room.sectors c → q ∈ s.room.sectors c ∨ (q = p ∧ c = idx) := by
    intro q c hc
    rw [hsectors] at hc
    exact mem_insertSector.mp hc
  constructor
  · intro q target target' ht ht'
    exact inv.target_unique q target target' ((hmoving q target).mp ht) ((hmoving q target').mp ht')
  · intro q target c ht hc
    rcases hmem q c hc with hold | ⟨rfl, rfl⟩
    · exact inv.moving q target c ((hmoving q target).mp ht) hold
    · exact inv.target_unique q c target hp ((hmoving q target).mp ht)
  · intro q c ht hc
    rw [hidx]
    rcases hmem q c hc with hold | ⟨rfl, rfl⟩
    · exact inv.resting q c (fun target h => ht target ((hmoving q target).mpr h)) hold
    · exact (ht c ((hmoving q c).mpr hp)).elim
  · intro q target he ht
    rw [herased] at he
    exact inv.not_moving q target he ((hmoving q target).mp ht)
  · intro q c he hc
    rw [herased] at he
    rcases hmem q c hc with hold | ⟨rfl, rfl⟩
    · exact inv.not_mem q c he hold
    · exact inv.not_moving q c he hp

/-- Writing `m_idxInfo` brings a move to rest at its target. -/
theorem inv_written (inv : Inv s) {idx : ℤ × ℤ}
    (hjob : s.zoneJob zone = some (p, .writeIdx idx))
    (hsectors : s'.room.sectors = s.room.sectors)
    (hidx : ∀ q, (s'.room.player q).idxInfo = if q = p then idx else (s.room.player q).idxInfo)
    (hjob' : s'.zoneJob = Function.update s.zoneJob zone (some (p, .view)))
    (herased : s'.erased = s.erased) : Inv s' := by
  have hmoving : ∀ q target, Moving s q target ↔ Moving s' q target ∨ (q = p ∧ target = idx) :=
    fun q target => moving_written hjob hjob'
  have hold : ∀ q target, Moving s' q target → Moving s q target :=
    fun q target ht => (hmoving q target).mpr (.inl ht)
  constructor
  · intro q target target' ht ht'
    exact inv.target_unique q target target' (hold q target ht) (hold q target' ht')
  · intro q target c ht hc
    rw [hsectors] at hc
    exact inv.moving q target c (hold q target ht) hc
  · intro q c ht hc
    rw [hsectors] at hc
    rw [hidx]
    by_cases hq : q = p
    · subst hq
      rw [if_pos rfl]
      exact inv.moving q idx c ⟨zone, .writeIdx idx, hjob, rfl⟩ hc
    · rw [if_neg hq]
      refine inv.resting q c (fun target h => ?_) hc
      exact ((hmoving q target).mp h).elim (ht target) fun h => hq h.1
  · intro q target he ht
    rw [herased] at he
    exact inv.not_moving q target he (hold q target ht)
  · intro q c he hc
    rw [herased] at he
    rw [hsectors] at hc
    exact inv.not_mem q c he hc

/-- The `Erase` of a logout takes a resting player out of its only sector. -/
theorem inv_left (inv : Inv s)
    (hsectors : s'.room.sectors = Function.update s.room.sectors (s.room.player p).idxInfo
      ((s.room.sectors (s.room.player p).idxInfo).erase p))
    (hidx : ∀ q, (s'.room.player q).idxInfo = (s.room.player q).idxInfo)
    (hjob' : s'.zoneJob = s.zoneJob) (herased : s'.erased = Function.update s.erased p true)
    (hrest : ∀ target, ¬ Moving s p target) : Inv s' := by
  have hmoving : ∀ q target, Moving s' q target ↔ Moving s q target :=
    fun q target => moving_congr fun z => by rw [hjob']
  have hmem : ∀ q c, q ∈ s'.room.sectors c →
      q ∈ s.room.sectors c ∧ (q = p → c ≠ (s.room.player p).idxInfo) := by
    intro q c hc
    rw [hsectors] at hc
    exact mem_eraseSector.mp hc
  constructor
  · intro q target target' ht ht'
    exact inv.target_unique q target target' ((hmoving q target).mp ht) ((hmoving q target').mp ht')
  · intro q target c ht hc
    exact inv.moving q target c ((hmoving q target).mp ht) (hmem q c hc).1
  · intro q c ht hc
    rw [hidx]
    exact inv.resting q c (fun target h => ht target ((hmoving q target).mpr h)) (hmem q c hc).1
  · intro q target he ht
    by_cases hq : q = p
    · subst hq
      exact hrest target ((hmoving q target).mp ht)
    · rw [herased, Function.update_of_ne hq] at he
      exact inv.not_moving q target he ((hmoving q target).mp ht)
  · intro q c he hc
    obtain ⟨hold, hne⟩ := hmem q c hc
    by_cases hq : q = p
    · subst hq
      exact hne rfl (inv.resting q c hrest hold)
    · rw [herased, Function.update_of_ne hq] at he
      exact inv.not_mem q c he hold

/-- Every step that crosses nothing keeps the invariant. -/
theorem inv_step (inv : Inv s) (ok : Uncrossed s a) (h : step s a = some s') : Inv s' := by
  cases step_effect h with
  | quiet a hsectors hidx htarget herased => exact inv_quiet inv hsectors hidx htarget herased
  | erased zone p idx hjob hsectors hidx hjob' herased =>
    obtain ⟨hleft, hsame⟩ := ok p idx hjob
    exact inv_erased inv hjob hsectors hidx hjob' herased hleft hsame
  | inserted zone p idx hjob hsectors hidx htarget herased =>
    exact inv_inserted inv hjob hsectors hidx htarget herased
  | written zone p idx hjob hsectors hidx hjob' herased =>
    exact inv_written inv hjob hsectors hidx hjob' herased
  | left p hjob hsectors hidx hjob' herased =>
    exact inv_left inv hsectors hidx hjob' herased (ok p hjob)

omit [DecidableEq P] in
/-- Changing the job of one zone leaves the others alone. -/
theorem setZone_of_ne {z : ℤ × ℤ} (hz : z ≠ zone) (job : Option (P × MovePc)) :
    (s.setZone zone job).zoneJob z = s.zoneJob z :=
  Function.update_of_ne hz _ _

/-- A move leaves the room's job, the histories and the other zones alone. -/
theorem moveStep_frame {pc : MovePc} (h : moveStep s zone p pc = some s') :
    s'.roomJob = s.roomJob ∧ s'.erased = s.erased ∧ s'.loggedOut = s.loggedOut ∧
      ∀ z, z ≠ zone → s'.zoneJob z = s.zoneJob z := by
  cases pc with
  | valid =>
    rw [moveStep] at h
    split at h <;> cases h <;> exact ⟨rfl, rfl, rfl, fun z hz => setZone_of_ne hz _⟩
  | compare idx =>
    rw [moveStep] at h
    split at h <;> cases h <;> exact ⟨rfl, rfl, rfl, fun z hz => setZone_of_ne hz _⟩
  | erase idx =>
    obtain ⟨room, -, rfl⟩ := Option.map_eq_some_iff.mp h
    exact ⟨rfl, rfl, rfl, fun z hz => setZone_of_ne hz _⟩
  | insert idx =>
    obtain ⟨room, -, rfl⟩ := Option.map_eq_some_iff.mp h
    exact ⟨rfl, rfl, rfl, fun z hz => setZone_of_ne hz _⟩
  | _ =>
    cases h
    exact ⟨rfl, rfl, rfl, fun z hz => setZone_of_ne hz _⟩

/-- A logout leaves the zones alone. -/
theorem logoutStep_frame {pc : LogoutPc} (h : logoutStep s p pc = some s') :
    s'.zoneJob = s.zoneJob := by
  cases pc with
  | eraseSector =>
    obtain ⟨room, -, rfl⟩ := Option.map_eq_some_iff.mp h
    rfl
  | _ =>
    cases h
    rfl

omit [DecidableEq P] in
/-- Steps that leave the room's job and the histories alone keep the record. -/
theorem Recorded.congr (rec : Recorded s) (hjob : s'.roomJob = s.roomJob)
    (herased : s'.erased = s.erased) (hlog : s'.loggedOut = s.loggedOut) : Recorded s' := by
  refine ⟨fun q pc hq hpc => ?_, fun q hq => ?_⟩
  · rw [hjob] at hq
    rw [herased]
    exact rec.erased_of_job q pc hq hpc
  · rw [hlog] at hq
    rw [herased]
    exact rec.erased_of_loggedOut q hq

/-- A step of a logout keeps the record. -/
theorem recorded_logoutStep (rec : Recorded s) {pc : LogoutPc} (hjob : s.roomJob = some (p, pc))
    (h : logoutStep s p pc = some s') : Recorded s' := by
  cases pc with
  | eraseSector =>
    obtain ⟨room, -, rfl⟩ := Option.map_eq_some_iff.mp h
    refine ⟨fun q pc hq _ => ?_, fun q hq => ?_⟩
    · cases hq
      exact Function.update_self p true s.erased
    · show Function.update s.erased p true q = true
      by_cases hqp : q = p
      · rw [hqp, Function.update_self]
      · rw [Function.update_of_ne hqp]
        exact rec.erased_of_loggedOut q hq
  | erasePlayer =>
    cases h
    refine ⟨fun q pc hq _ => ?_, rec.erased_of_loggedOut⟩
    cases hq
    exact rec.erased_of_job p _ hjob (by decide)
  | writeState =>
    cases h
    refine ⟨fun q pc hq _ => ?_, rec.erased_of_loggedOut⟩
    cases hq
    exact rec.erased_of_job p _ hjob (by decide)
  | loginCnt =>
    cases h
    refine ⟨fun q pc hq _ => (by cases hq), fun q hq => ?_⟩
    have hq' : Function.update s.loggedOut p true q = true := hq
    by_cases hqp : q = p
    · rw [hqp]
      exact rec.erased_of_job p _ hjob (by decide)
    · rw [Function.update_of_ne hqp] at hq'
      exact rec.erased_of_loggedOut q hq'

/-- Every step keeps the record. -/
theorem recorded_step (rec : Recorded s) (h : step s a = some s') : Recorded s' := by
  cases a with
  | zoneRun zone =>
    simp only [step] at h
    split at h
    · obtain ⟨hjob, herased, hlog, -⟩ := moveStep_frame h
      exact rec.congr hjob herased hlog
    · cases h
      exact rec.congr rfl rfl rfl
    · cases h
  | roomRun =>
    simp only [step] at h
    split at h
    · exact recorded_logoutStep rec ‹_› h
    · cases h
      refine ⟨fun q pc hq hpc => ?_, rec.erased_of_loggedOut⟩
      cases hq
      exact (hpc rfl).elim
    · cases h
  | _ =>
    cases h
    exact rec.congr rfl rfl rfl

omit [DecidableEq P] in
/-- A room after logins has the invariant. -/
theorem inv_init {room : Room P} (hroom : Placed room) : Inv (init room) where
  target_unique _ _ _ := by
    rintro ⟨_, _, hjob, -⟩
    cases hjob
  moving _ _ _ := by
    rintro ⟨_, _, hjob, -⟩
    cases hjob
  resting p c _ hc := hroom p c hc
  not_moving _ _ h := by cases h
  not_mem _ _ h := by cases h

omit [DecidableEq P] in
/-- A room after logins has nothing recorded. -/
theorem recorded_init (room : Room P) : Recorded (init room) where
  erased_of_job _ _ h := by cases h
  erased_of_loggedOut _ h := by cases h

omit [DecidableEq P] in
/-- Between jobs the invariant says where a player is. -/
theorem settled_of_inv (inv : Inv s) (rec : Recorded s) : Settled s := by
  intro q idle
  have hrest : ∀ target, ¬ Moving s q target := by
    rintro target ⟨z, pc, hjob, -⟩
    exact idle.zoneJob z pc hjob
  exact ⟨fun c => inv.resting q c hrest,
    fun hq c => inv.not_mem q c (rec.erased_of_loggedOut q hq)⟩

/-- A zone's job is changed by steps of that zone only. -/
theorem zoneJob_step (h : step s a = some s') (ha : a ≠ .zoneRun zone) :
    s'.zoneJob zone = s.zoneJob zone := by
  cases a with
  | zoneRun z =>
    have hz : zone ≠ z := fun heq => ha (heq ▸ rfl)
    simp only [step] at h
    split at h
    · exact (moveStep_frame h).2.2.2 zone hz
    · cases h
      exact setZone_of_ne hz _
    · cases h
  | roomRun =>
    simp only [step] at h
    split at h
    · rw [logoutStep_frame h]
    · cases h
      rfl
    · cases h
  | _ =>
    cases h
    rfl

/-- A run leaves the zones alone that it does not name. -/
theorem zoneJob_run {as : List (Action P)} (h : run step s as = some s')
    (ha : ∀ a ∈ as, a ≠ .zoneRun zone) : s'.zoneJob zone = s.zoneJob zone := by
  induction as generalizing s with
  | nil =>
    cases h
    rfl
  | cons a as ih =>
    obtain ⟨m, hm, hrest⟩ := run_cons_eq_some.mp h
    rw [ih hrest fun b hb => ha b (List.mem_cons_of_mem a hb)]
    exact zoneJob_step hm (ha a List.mem_cons_self)

/-- A step of some zones, or of the room, at which the moves of these zones do not cross. -/
def uncrossedIn (zones : List (ℤ × ℤ)) (s : State P) : Action P → Bool
  | .zoneRun zone =>
    zones.contains zone &&
      match s.zoneJob zone with
      | some (p, .erase idx) => !s.erased p && zones.all fun z =>
          (jobTarget (s.zoneJob z)).all fun (q, target) => q ≠ p || target = idx
      | _ => true
  | .roomRun =>
    match s.roomJob with
    | some (p, .eraseSector) => zones.all fun z =>
        (jobTarget (s.zoneJob z)).all fun (q, _) => q ≠ p
    | _ => true
  | _ => true

/-- While no other zone has a job, nothing crosses. -/
theorem uncrossed_of_uncrossedIn {zones : List (ℤ × ℤ)}
    (hjobs : ∀ z, z ∉ zones → s.zoneJob z = none) (h : uncrossedIn zones s a = true) :
    Uncrossed s a := by
  have hmoving : ∀ q target, Moving s q target →
      ∃ z ∈ zones, jobTarget (s.zoneJob z) = some (q, target) := by
    intro q target hmove
    obtain ⟨z, hz⟩ := moving_iff.mp hmove
    refine ⟨z, ?_, hz⟩
    by_contra hnot
    rw [hjobs z hnot] at hz
    cases hz
  cases a with
  | zoneRun zone =>
    intro q idx hjob
    simp only [uncrossedIn, hjob, Bool.and_eq_true, List.all_eq_true, Bool.not_eq_true'] at h
    obtain ⟨-, herased, htargets⟩ := h
    refine ⟨herased, fun target hmove => ?_⟩
    obtain ⟨z, hz, heq⟩ := hmoving q target hmove
    have htarget := htargets z hz
    rw [heq] at htarget
    simpa using htarget
  | roomRun =>
    intro q hjob target hmove
    obtain ⟨z, hz, heq⟩ := hmoving q target hmove
    simp only [uncrossedIn, hjob, List.all_eq_true] at h
    have hother := h z hz
    rw [heq] at hother
    simp at hother
  | _ => trivial

/-- Nor does it in a run of these zones. -/
theorem uncrossed_of_zones {zones : List (ℤ × ℤ)} {as : List (Action P)}
    (hjobs : ∀ z, z ∉ zones → s.zoneJob z = none)
    (h : StepsMeet step (fun s a => uncrossedIn zones s a = true) s as) :
    StepsMeet step Uncrossed s as := by
  induction as generalizing s with
  | nil => trivial
  | cons a as ih =>
    refine ⟨uncrossed_of_uncrossedIn hjobs h.1, fun m hm => ih (fun z hz => ?_) (h.2 m hm)⟩
    have hother : a ≠ .zoneRun z := by
      rintro rfl
      have hin := h.1
      simp only [uncrossedIn, Bool.and_eq_true, List.contains_iff_mem] at hin
      exact hz hin.1
    rw [zoneJob_step hm hother]
    exact hjobs z hz

end Effects

/-- While the moves and logouts of no player cross, a player is between its jobs
in the set of no sector but the one `m_idxInfo` names, and in none after its
logout. -/
theorem sectorSets_settled {room : Room P} (hroom : Placed room) {s : State P}
    (h : ReachableVia step Uncrossed (init room) s) : Settled s := by
  have hinv : Inv s := h.invariant (inv_init hroom) fun _ _ _ inv ok hs => inv_step inv ok hs
  obtain ⟨as, hr, -⟩ := h
  have hrec : Recorded s := run_preserves (fun _ _ _ rec _ hs => recorded_step rec hs)
    (recorded_init room) stepsMeet_true hr
  exact settled_of_inv hinv hrec

end System

/-- A position of the sector and the zone `(0, 0)`. -/
def cornerPos : PosInfo :=
  { x := -20000, y := -20000, z := 200, yaw := 0, pitch := 0, roll := 0, vx := 0, vy := 0, vz := 0
    ax := 0, ay := 0, az := 0 }

/-- A position of the sector `(31, 31)` and the zone `(3, 3)`. -/
def farPos : PosInfo := { cornerPos with x := 19999, y := 19999 }

/-- A position of the sector `(16, 16)` and the zone `(2, 2)`. -/
def middlePos : PosInfo := { cornerPos with x := 0, y := 0 }

/-- A room with one player, which has logged in at the corner. -/
def oneRoom : Room Unit where
  player _ :=
    { info := { toPosInfo := cornerPos, playerId := "a", playerType := 0, timeStamp := 0 }
      state := .connected
      idxInfo := (0, 0)
      viewList := .empty }
  players := UnorderedSet.empty.insert ()
  sectors := Function.update (fun _ => .empty) (0, 0) (UnorderedSet.empty.insert ())
  loginCnt := 1

theorem placed_oneRoom : Placed oneRoom := by
  intro p c hc
  by_contra hne
  have hc' : c ≠ (0, 0) := hne
  have hupdate : p ∈ Function.update (fun _ => UnorderedSet.empty) ((0, 0) : ℤ × ℤ)
      (UnorderedSet.empty.insert ()) c := hc
  rw [Function.update_of_ne hc'] at hupdate
  exact UnorderedSet.not_mem_empty hupdate

/-- The player moves from the corner to the far end, and on while that move is executed; and
it logs out when the second move has written `m_idxInfo`. -/
def movesAndLogout : List (Action Unit) :=
  [.updatePosition () farPos 1, .movePlayer (), .zoneRun (3, 3), .zoneRun (3, 3), .zoneRun (3, 3),
    .zoneRun (3, 3), .updatePosition () middlePos 2, .movePlayer (), .logout (), .zoneRun (2, 2),
    .zoneRun (2, 2), .zoneRun (3, 3), .zoneRun (3, 3), .zoneRun (2, 2), .zoneRun (3, 3),
    .zoneRun (2, 2), .zoneRun (3, 3), .zoneRun (2, 2), .roomRun, .zoneRun (2, 2),
    .zoneRun (2, 2), .roomRun, .roomRun, .zoneRun (2, 2), .roomRun, .roomRun]

/-- It has been in the sector of each position and ends in none. -/
theorem sectorSets_settled_logout :
    (∃ s, run step (init oneRoom) (movesAndLogout.take 15) = some s ∧
      () ∈ s.room.sectors (31, 31)) ∧
    ∃ s, run step (init oneRoom) movesAndLogout = some s ∧ s.loggedOut () = true ∧
      (s.room.player ()).idxInfo = (16, 16) ∧ () ∉ s.room.sectors (16, 16) ∧ Settled s := by
  constructor
  · have h : ((run step (init oneRoom) (movesAndLogout.take 15)).any fun s =>
        () ∈ s.room.sectors (31, 31)) = true := by
      decide +kernel
    obtain ⟨s, hs, hmem⟩ := (Option.any_eq_true _ _).mp h
    exact ⟨s, hs, of_decide_eq_true hmem⟩
  · have h : ((run step (init oneRoom) movesAndLogout).any fun s => s.loggedOut () = true ∧
        (s.room.player ()).idxInfo = (16, 16) ∧ () ∉ s.room.sectors (16, 16)) = true := by
      decide +kernel
    obtain ⟨s, hs, hview⟩ := (Option.any_eq_true _ _).mp h
    obtain ⟨hlog, hidx, hmem⟩ := of_decide_eq_true hview
    have hmeet : StepsMeet step (fun s a => uncrossedIn [(2, 2), (3, 3)] s a = true)
        (init oneRoom) movesAndLogout := by
      decide +kernel
    exact ⟨s, hs, hlog, hidx, hmem, sectorSets_settled placed_oneRoom
      ⟨movesAndLogout, hs, uncrossed_of_zones (fun _ _ => rfl) hmeet⟩⟩

/-- The player logs out while a move has found it `Connected` and has not erased
it yet. -/
def crossedLogout : List (Action Unit) :=
  [.updatePosition () farPos 1, .movePlayer (), .zoneRun (3, 3), .zoneRun (3, 3), .zoneRun (3, 3),
    .zoneRun (3, 3), .logout (), .roomRun, .roomRun, .roomRun, .roomRun, .roomRun,
    .zoneRun (3, 3), .zoneRun (3, 3), .zoneRun (3, 3), .zoneRun (3, 3)]

/-- The player moves on while a move to the far end has not erased it yet, and
both moves erase it before either inserts it. -/
def crossedMoves : List (Action Unit) :=
  [.updatePosition () farPos 1, .movePlayer (), .zoneRun (3, 3), .zoneRun (3, 3), .zoneRun (3, 3),
    .zoneRun (3, 3), .updatePosition () middlePos 2, .movePlayer (), .zoneRun (2, 2),
    .zoneRun (2, 2), .zoneRun (2, 2), .zoneRun (2, 2), .zoneRun (3, 3), .zoneRun (2, 2),
    .zoneRun (3, 3), .zoneRun (2, 2), .zoneRun (3, 3), .zoneRun (2, 2), .zoneRun (3, 3),
    .zoneRun (2, 2)]

/-- A player without a job of the room or of the zones a run names is idle. -/
theorem idle_of_run {as : List (Action Unit)} {s : State Unit}
    (h : run step (init oneRoom) as = some s)
    (ha : ∀ z, z ≠ (2, 2) → z ≠ (3, 3) → ∀ a ∈ as, a ≠ .zoneRun z)
    (hroom : s.roomJob = none) (hmiddle : s.zoneJob (2, 2) = none)
    (hfar : s.zoneJob (3, 3) = none) : Idle s () := by
  constructor
  · intro z pc hz
    by_cases hz2 : z = (2, 2)
    · rw [hz2, hmiddle] at hz
      cases hz
    · by_cases hz3 : z = (3, 3)
      · rw [hz3, hfar] at hz
        cases hz
      · rw [zoneJob_run h (ha z hz2 hz3)] at hz
        cases hz
  · intro pc hjob
    rw [hroom] at hjob
    cases hjob

/-- After the first run the player has logged out and is in a sector; after the
second it is in two sectors. -/
theorem sectorSets_unsettled :
    (∃ s, run step (init oneRoom) crossedLogout = some s ∧ Idle s () ∧
      s.loggedOut () = true ∧ () ∈ s.room.sectors (31, 31) ∧ ¬ Settled s) ∧
    ∃ s, run step (init oneRoom) crossedMoves = some s ∧ Idle s () ∧
      () ∈ s.room.sectors (31, 31) ∧ () ∈ s.room.sectors (16, 16) ∧ ¬ Settled s := by
  constructor
  · have h : ((run step (init oneRoom) crossedLogout).any fun s => s.roomJob = none ∧
        s.zoneJob (2, 2) = none ∧ s.zoneJob (3, 3) = none ∧ s.loggedOut () = true ∧
        () ∈ s.room.sectors (31, 31)) = true := by
      decide +kernel
    obtain ⟨s, hs, hview⟩ := (Option.any_eq_true _ _).mp h
    obtain ⟨hroom, hmiddle, hfar, hlog, hmem⟩ := of_decide_eq_true hview
    have idle : Idle s () := by
      refine idle_of_run hs (fun z _ hz a ha => ?_) hroom hmiddle hfar
      simp only [crossedLogout, List.mem_cons, List.not_mem_nil, or_false] at ha
      rcases ha with rfl | rfl | rfl | rfl | rfl | rfl | rfl | rfl | rfl | rfl | rfl | rfl | rfl |
        rfl | rfl | rfl <;> simp [hz.symm]
    exact ⟨s, hs, idle, hlog, hmem, fun hsettled => (hsettled () idle).2 hlog _ hmem⟩
  · have h : ((run step (init oneRoom) crossedMoves).any fun s => s.roomJob = none ∧
        s.zoneJob (2, 2) = none ∧ s.zoneJob (3, 3) = none ∧ () ∈ s.room.sectors (31, 31) ∧
        () ∈ s.room.sectors (16, 16)) = true := by
      decide +kernel
    obtain ⟨s, hs, hview⟩ := (Option.any_eq_true _ _).mp h
    obtain ⟨hroom, hmiddle, hfar, hmem, hmem'⟩ := of_decide_eq_true hview
    have idle : Idle s () := by
      refine idle_of_run hs (fun z hz2 hz3 a ha => ?_) hroom hmiddle hfar
      simp only [crossedMoves, List.mem_cons, List.not_mem_nil, or_false] at ha
      rcases ha with rfl | rfl | rfl | rfl | rfl | rfl | rfl | rfl | rfl | rfl | rfl | rfl | rfl |
        rfl | rfl | rfl | rfl | rfl | rfl | rfl <;> simp [hz2.symm, hz3.symm]
    refine ⟨s, hs, idle, hmem, hmem', fun hsettled => ?_⟩
    have hplace := (hsettled () idle).1
    exact absurd ((hplace _ hmem).trans (hplace _ hmem').symm) (by decide)

end RioIocpServer.SectorJobs
