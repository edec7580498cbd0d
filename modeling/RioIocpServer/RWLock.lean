import RioIocpServer.TransitionSystem
import RioIocpServer.ThreadSum
import Mathlib.Data.BitVec
import Mathlib.Data.Fintype.BigOperators

/-!
# The read-write lock

`m_lockFlag` packs the id of the writer into its upper half and the number of
readers into its lower half; `m_writeCnt` counts how often the writer has taken
the lock and is written by the writer only. Each load, `compare_exchange_weak`,
`fetch_sub` and store of the flag and each update of the count is one step, so a
thread may be suspended anywhere between them. The spin loops of the source go
round until their exchange succeeds; how often they yield is left to the
schedule. `m_writeCnt` is an `int`, whose overflow has no defined meaning, and is
modelled as an integer. The numbers of holds are history read by no step.
-/

namespace RioIocpServer.RWLock

open TransitionSystem

/-- `WRITE_LOCK_MASK`. -/
def writeLockMask : BitVec 32 := 0xFFFF0000#32

/-- `READ_LOCK_MASK`. -/
def readLockMask : BitVec 32 := 0x0000FFFF#32

/-- `EMPTY_FLAG`. -/
def emptyFlag : BitVec 32 := 0x00000000#32

/-- `lockThreadId`, the id of the writer in a flag. -/
def lockThreadId (lockFlag : BitVec 32) : BitVec 32 := (lockFlag &&& writeLockMask) >>> 16

/-- `desired`, the flag of a writer. -/
def desired (lThreadId : BitVec 32) : BitVec 32 := (lThreadId <<< 16) &&& writeLockMask

/-- The write mask keeps exactly the upper half. -/
theorem writeLockMask_getLsbD (i : Fin 32) :
    writeLockMask.getLsbD i = decide (16 ≤ (i : ℕ)) := by
  revert i
  decide

/-- The mask adds nothing to the shift that reads the writer. -/
theorem lockThreadId_eq (lockFlag : BitVec 32) : lockThreadId lockFlag = lockFlag >>> 16 := by
  ext i hi
  simp only [lockThreadId, BitVec.getElem_ushiftRight, BitVec.getLsbD_and]
  by_cases h : 16 + i < 32
  · rw [writeLockMask_getLsbD ⟨16 + i, h⟩]
    simp
  · rw [BitVec.getLsbD_of_ge _ _ (by omega), Bool.false_and]

/-- The mask adds nothing to the shift that writes the writer. -/
theorem desired_eq (lThreadId : BitVec 32) : desired lThreadId = lThreadId <<< 16 := by
  ext i hi
  simp only [desired, BitVec.getElem_and, BitVec.getElem_shiftLeft]
  rw [← BitVec.getLsbD_eq_getElem (x := writeLockMask), writeLockMask_getLsbD ⟨i, hi⟩]
  by_cases h : i < 16 <;> simp [h]
  exact fun _ => by omega

/-- The upper half of a flag as a number. -/
theorem toNat_lockThreadId (lockFlag : BitVec 32) :
    (lockThreadId lockFlag).toNat = lockFlag.toNat / 65536 := by
  rw [lockThreadId_eq, BitVec.toNat_ushiftRight, Nat.shiftRight_eq_div_pow]

/-- The lower half of a flag as a number. -/
theorem toNat_and_readLockMask (lockFlag : BitVec 32) :
    (lockFlag &&& readLockMask).toNat = lockFlag.toNat % 65536 := by
  rw [BitVec.toNat_and]
  exact Nat.and_two_pow_sub_one_eq_mod lockFlag.toNat 16

/-- The flag of a writer as a number. -/
theorem toNat_desired {lThreadId : BitVec 32} (h : lThreadId.toNat ≤ 65535) :
    (desired lThreadId).toNat = lThreadId.toNat * 65536 := by
  rw [desired_eq, BitVec.toNat_shiftLeft, Nat.shiftLeft_eq]
  exact Nat.mod_eq_of_lt (by omega)

/-- A flag names the writer that made it. -/
theorem lockThreadId_desired {lThreadId : BitVec 32} (h : lThreadId.toNat ≤ 65535) :
    lockThreadId (desired lThreadId) = lThreadId := by
  apply BitVec.eq_of_toNat_eq
  rw [toNat_lockThreadId, toNat_desired h]
  omega

/-- Where a thread stands inside the methods of the lock. -/
inductive Pc where
  /-- Outside. -/
  | idle
  /-- At the load of `ReadLock`. -/
  | readLock
  /-- At the `compare_exchange_weak` of `ReadLock`. -/
  | readCas (expected : BitVec 32)
  /-- At the `fetch_sub` of `ReadUnlock`. -/
  | readUnlock
  /-- At the load of `WriteLock`. -/
  | writeLock
  /-- Found its own id in the flag; at `m_writeCnt++`. -/
  | writeAgain
  /-- At the `compare_exchange_weak` of `WriteLock`. -/
  | writeCas
  /-- The exchange succeeded; at `m_writeCnt++`. -/
  | writeFirst
  /-- At the load of `WriteUnlock`. -/
  | writeUnlock
  /-- At `--m_writeCnt`. -/
  | writeDec
  /-- At the store of `EMPTY_FLAG`. -/
  | writeStore
  deriving DecidableEq

/-- The methods of the lock. -/
inductive Call where
  | readLock
  | readUnlock
  | writeLock
  | writeUnlock
  deriving DecidableEq

/-- The first shared access of a method. -/
def Call.entry : Call → Pc
  | .readLock => .readLock
  | .readUnlock => .readUnlock
  | .writeLock => .writeLock
  | .writeUnlock => .writeUnlock

/-- A thread with the history of its holds. -/
structure Thread where
  /-- Its position. -/
  pc : Pc
  /-- History: read locks taken and not released. -/
  readHolds : ℕ
  /-- History: how often it has taken the write lock. -/
  writeLocks : ℕ
  /-- History: `WriteUnlock` calls it has completed. -/
  writeUnlocks : ℕ
  deriving DecidableEq

/-- A thread that moves on. -/
def Thread.goto (thread : Thread) (pc : Pc) : Thread := { thread with pc := pc }

/-- A thread that has taken a read lock. -/
def Thread.readLocked (thread : Thread) : Thread :=
  { thread with pc := .idle, readHolds := thread.readHolds + 1 }

/-- A thread that has released a read lock. -/
def Thread.readUnlocked (thread : Thread) : Thread :=
  { thread with pc := .idle, readHolds := thread.readHolds - 1 }

/-- A thread that has taken the write lock once more. -/
def Thread.writeLocked (thread : Thread) (pc : Pc) : Thread :=
  { thread with pc := pc, writeLocks := thread.writeLocks + 1 }

/-- A thread that has completed a `WriteUnlock`. -/
def Thread.writeUnlocked (thread : Thread) : Thread :=
  { thread with pc := .idle, writeUnlocks := thread.writeUnlocks + 1 }

/-- A lock and the threads that use it. -/
structure State (T : Type*) where
  /-- `m_lockFlag`. -/
  lockFlag : BitVec 32
  /-- `m_writeCnt`. -/
  writeCnt : ℤ
  /-- The threads. -/
  threads : T → Thread
  /-- History: texts given to `HandleError`. -/
  errors : List String

/-- A lock that was just constructed. -/
def init {T : Type*} : State T where
  lockFlag := 0
  writeCnt := 0
  threads _ := { pc := .idle, readHolds := 0, writeLocks := 0, writeUnlocks := 0 }
  errors := []

/-- The steps of a thread. -/
inductive Action where
  /-- A method is called. -/
  | call (method : Call)
  /-- A load of the flag. -/
  | load
  /-- A `compare_exchange_weak`, which may fail spuriously. -/
  | cas (spurious : Bool)
  /-- `fetch_sub(1)`. -/
  | fetchSub
  /-- `m_writeCnt++`. -/
  | increment
  /-- `--m_writeCnt`. -/
  | decrement
  /-- `m_lockFlag.store(EMPTY_FLAG)`. -/
  | store
  deriving DecidableEq

section System

variable {T : Type*} [DecidableEq T]

/-- The state with one thread changed. -/
def State.set (s : State T) (t : T) (thread : Thread) : State T :=
  { s with threads := Function.update s.threads t thread }

@[simp] theorem set_self (s : State T) (t : T) (thread : Thread) :
    (s.set t thread).threads t = thread := by
  rw [State.set]
  exact Function.update_self t thread s.threads

/-- The other threads stay as they are. -/
theorem set_of_ne (s : State T) {t u : T} (thread : Thread) (h : u ≠ t) :
    (s.set t thread).threads u = s.threads u := by
  rw [State.set]
  exact Function.update_of_ne h thread s.threads

/-- One step of a thread. Each thread compares and stores its own `LThreadId`. -/
def step (lThreadId : T → BitVec 32) (s : State T) : T × Action → Option (State T)
  | (t, .call method) =>
    match (s.threads t).pc with
    | .idle => some (s.set t ((s.threads t).goto method.entry))
    | _ => none
  | (t, .load) =>
    match (s.threads t).pc with
    | .readLock => some (s.set t ((s.threads t).goto (.readCas (s.lockFlag &&& readLockMask))))
    | .writeLock =>
      if lThreadId t = lockThreadId s.lockFlag then
        some (s.set t ((s.threads t).goto .writeAgain))
      else some (s.set t ((s.threads t).goto .writeCas))
    | .writeUnlock =>
      if lockThreadId s.lockFlag = lThreadId t then
        some (s.set t ((s.threads t).goto .writeDec))
      else some (s.set t (s.threads t).writeUnlocked)
    | _ => none
  | (t, .cas spurious) =>
    match (s.threads t).pc with
    | .readCas expected =>
      if s.lockFlag = expected ∧ spurious = false then
        some { (s.set t (s.threads t).readLocked) with lockFlag := expected + 1 }
      else some (s.set t ((s.threads t).goto .readLock))
    | .writeCas =>
      if s.lockFlag = emptyFlag ∧ spurious = false then
        some { (s.set t ((s.threads t).writeLocked .writeFirst)) with
          lockFlag := desired (lThreadId t) }
      else some s
    | _ => none
  | (t, .fetchSub) =>
    match (s.threads t).pc with
    | .readUnlock => some { (s.set t (s.threads t).readUnlocked) with
        lockFlag := s.lockFlag - 1
        errors := if s.lockFlag &&& readLockMask = 0 then s.errors ++ ["ReadUnlock Error"]
          else s.errors }
    | _ => none
  | (t, .increment) =>
    match (s.threads t).pc with
    | .writeAgain =>
      some { (s.set t ((s.threads t).writeLocked .idle)) with writeCnt := s.writeCnt + 1 }
    | .writeFirst => some { (s.set t ((s.threads t).goto .idle)) with writeCnt := s.writeCnt + 1 }
    | _ => none
  | (t, .decrement) =>
    match (s.threads t).pc with
    | .writeDec =>
      if s.writeCnt - 1 = 0 then
        some { (s.set t ((s.threads t).goto .writeStore)) with writeCnt := s.writeCnt - 1 }
      else some { (s.set t (s.threads t).writeUnlocked) with writeCnt := s.writeCnt - 1 }
    | _ => none
  | (t, .store) =>
    match (s.threads t).pc with
    | .writeStore => some { (s.set t (s.threads t).writeUnlocked) with lockFlag := emptyFlag }
    | _ => none

/-- What one step can do, with what it has tested. -/
inductive Moves (lThreadId : T → BitVec 32) (s : State T) (t : T) : Action → State T → Prop
  | called (method : Call) (ht : (s.threads t).pc = .idle) :
      Moves lThreadId s t (.call method) (s.set t ((s.threads t).goto method.entry))
  | readLoaded (ht : (s.threads t).pc = .readLock) :
      Moves lThreadId s t .load
        (s.set t ((s.threads t).goto (.readCas (s.lockFlag &&& readLockMask))))
  | readLocked (ht : (s.threads t).pc = .readCas s.lockFlag) :
      Moves lThreadId s t (.cas false)
        { (s.set t (s.threads t).readLocked) with lockFlag := s.lockFlag + 1 }
  | readFailed (spurious : Bool) (expected : BitVec 32)
      (ht : (s.threads t).pc = .readCas expected) :
      Moves lThreadId s t (.cas spurious) (s.set t ((s.threads t).goto .readLock))
  | readUnlocked (ht : (s.threads t).pc = .readUnlock) :
      Moves lThreadId s t .fetchSub
        { (s.set t (s.threads t).readUnlocked) with
          lockFlag := s.lockFlag - 1
          errors := if s.lockFlag &&& readLockMask = 0 then s.errors ++ ["ReadUnlock Error"]
            else s.errors }
  | ownFound (ht : (s.threads t).pc = .writeLock) (hid : lThreadId t = lockThreadId s.lockFlag) :
      Moves lThreadId s t .load (s.set t ((s.threads t).goto .writeAgain))
  | otherFound (ht : (s.threads t).pc = .writeLock) (hid : lThreadId t ≠ lockThreadId s.lockFlag) :
      Moves lThreadId s t .load (s.set t ((s.threads t).goto .writeCas))
  | lockedAgain (ht : (s.threads t).pc = .writeAgain) :
      Moves lThreadId s t .increment
        { (s.set t ((s.threads t).writeLocked .idle)) with writeCnt := s.writeCnt + 1 }
  | writeLocked (ht : (s.threads t).pc = .writeCas) (hflag : s.lockFlag = emptyFlag) :
      Moves lThreadId s t (.cas false)
        { (s.set t ((s.threads t).writeLocked .writeFirst)) with
          lockFlag := desired (lThreadId t) }
  | writeFailed (spurious : Bool) (ht : (s.threads t).pc = .writeCas) :
      Moves lThreadId s t (.cas spurious) s
  | counted (ht : (s.threads t).pc = .writeFirst) :
      Moves lThreadId s t .increment
        { (s.set t ((s.threads t).goto .idle)) with writeCnt := s.writeCnt + 1 }
  | unlocking (ht : (s.threads t).pc = .writeUnlock) (hid : lockThreadId s.lockFlag = lThreadId t) :
      Moves lThreadId s t .load (s.set t ((s.threads t).goto .writeDec))
  | notOwner (ht : (s.threads t).pc = .writeUnlock) (hid : lockThreadId s.lockFlag ≠ lThreadId t) :
      Moves lThreadId s t .load (s.set t (s.threads t).writeUnlocked)
  | lastUnlock (ht : (s.threads t).pc = .writeDec) (hcnt : s.writeCnt - 1 = 0) :
      Moves lThreadId s t .decrement
        { (s.set t ((s.threads t).goto .writeStore)) with writeCnt := s.writeCnt - 1 }
  | innerUnlock (ht : (s.threads t).pc = .writeDec) (hcnt : s.writeCnt - 1 ≠ 0) :
      Moves lThreadId s t .decrement
        { (s.set t (s.threads t).writeUnlocked) with writeCnt := s.writeCnt - 1 }
  | released (ht : (s.threads t).pc = .writeStore) :
      Moves lThreadId s t .store
        { (s.set t (s.threads t).writeUnlocked) with lockFlag := emptyFlag }

/-- Every enabled step is one of the moves. -/
theorem step_moves {lThreadId : T → BitVec 32} {s s' : State T} {t : T} {a : Action}
    (h : step lThreadId s (t, a) = some s') : Moves lThreadId s t a s' := by
  cases a with
  | call method =>
    simp only [step] at h
    split at h <;> cases h
    exact .called method ‹_›
  | load =>
    simp only [step] at h
    split at h
    · cases h
      exact .readLoaded ‹_›
    · split at h <;> cases h
      · exact .ownFound ‹_› ‹_›
      · exact .otherFound ‹_› ‹_›
    · split at h <;> cases h
      · exact .unlocking ‹_› ‹_›
      · exact .notOwner ‹_› ‹_›
    · cases h
  | cas spurious =>
    unfold step at h
    dsimp only at h
    cases hpc : (s.threads t).pc with
    | readCas expected =>
      rw [hpc] at h
      dsimp only at h
      split at h <;> cases h
      · obtain ⟨rfl, rfl⟩ := ‹_ ∧ spurious = false›
        exact .readLocked hpc
      · exact .readFailed spurious expected hpc
    | writeCas =>
      rw [hpc] at h
      dsimp only at h
      split at h <;> cases h
      · obtain ⟨hflag, rfl⟩ := ‹_ ∧ spurious = false›
        exact .writeLocked hpc hflag
      · exact .writeFailed spurious hpc
    | _ =>
      rw [hpc] at h
      cases h
  | fetchSub =>
    simp only [step] at h
    split at h <;> cases h
    exact .readUnlocked ‹_›
  | increment =>
    simp only [step] at h
    split at h <;> cases h
    · exact .lockedAgain ‹_›
    · exact .counted ‹_›
  | decrement =>
    simp only [step] at h
    split at h
    · split at h <;> cases h
      · exact .lastUnlock ‹_› ‹_›
      · exact .innerUnlock ‹_› ‹_›
    · cases h
  | store =>
    simp only [step] at h
    split at h <;> cases h
    exact .released ‹_›

/-- A step of a thread leaves the others where they are. -/
theorem Moves.other {lThreadId : T → BitVec 32} {s s' : State T} {t u : T} {a : Action}
    (h : Moves lThreadId s t a s') (hu : u ≠ t) : s'.threads u = s.threads u := by
  cases h with
  | writeFailed _ _ => rfl
  | _ => exact set_of_ne s _ hu

/-- The write locks a thread has taken and not released. -/
def Thread.writeHolds (thread : Thread) : ℕ := thread.writeLocks - thread.writeUnlocks

/-- What the position of a thread says about its holds. -/
def Pc.Allows (readHolds writeHolds : ℕ) : Pc → Prop
  | .readCas expected => expected.toNat ≤ 65535
  | .readUnlock => 0 < readHolds
  | .writeAgain => 0 < writeHolds
  | .writeCas => writeHolds = 0
  | .writeFirst => writeHolds = 1
  | .writeUnlock => 0 < writeHolds
  | .writeDec => 0 < writeHolds
  | .writeStore => writeHolds = 1
  | _ => True

/-- The difference between the holds of the writer and the count, while the
writer is between its exchange and the count or between the count and its
store. -/
def Pc.pending : Pc → ℤ
  | .writeFirst => 1
  | .writeStore => 1
  | _ => 0

/-- A thread whose position fits its holds. -/
structure Thread.Sound (thread : Thread) : Prop where
  /-- It has released no more than it has taken. -/
  le : thread.writeUnlocks ≤ thread.writeLocks
  /-- Its position fits. -/
  allows : thread.pc.Allows thread.readHolds thread.writeHolds

/-- Taking the write lock adds a hold. -/
theorem Thread.Sound.writeLocked_writeHolds {thread : Thread} (h : thread.Sound) (pc : Pc) :
    (thread.writeLocked pc).writeHolds = thread.writeHolds + 1 :=
  Nat.succ_sub h.le

/-- Completing a `WriteUnlock` removes a hold. -/
theorem writeUnlocked_writeHolds (thread : Thread) :
    thread.writeUnlocked.writeHolds = thread.writeHolds - 1 :=
  Nat.sub_succ thread.writeLocks thread.writeUnlocks

theorem Thread.Sound.goto {thread : Thread} (h : thread.Sound) {pc : Pc}
    (hpc : pc.Allows thread.readHolds thread.writeHolds) : (thread.goto pc).Sound :=
  ⟨h.le, hpc⟩

theorem Thread.Sound.readLocked {thread : Thread} (h : thread.Sound) : thread.readLocked.Sound :=
  ⟨h.le, trivial⟩

theorem Thread.Sound.readUnlocked {thread : Thread} (h : thread.Sound) :
    thread.readUnlocked.Sound :=
  ⟨h.le, trivial⟩

theorem Thread.Sound.writeLocked {thread : Thread} (h : thread.Sound) {pc : Pc}
    (hpc : pc.Allows thread.readHolds (thread.writeHolds + 1)) : (thread.writeLocked pc).Sound := by
  refine ⟨Nat.le_succ_of_le h.le, ?_⟩
  rw [h.writeLocked_writeHolds]
  exact hpc

theorem Thread.Sound.writeUnlocked {thread : Thread} (h : 0 < thread.writeHolds) :
    thread.writeUnlocked.Sound :=
  ⟨Nat.succ_le_of_lt (Nat.lt_of_sub_pos h), trivial⟩

/-- Ids a writer's flag can hold, one for each thread. -/
structure DistinctIds (lThreadId : T → BitVec 32) : Prop where
  /-- Different threads have different ids. -/
  injective : Function.Injective lThreadId
  /-- No id is 0. -/
  pos : ∀ t, 1 ≤ (lThreadId t).toNat
  /-- Every id fits the upper half of the flag. -/
  le : ∀ t, (lThreadId t).toNat ≤ 65535

section Safety

variable [Fintype T]

/-- The read holds of all threads. -/
def State.readers (s : State T) : ℕ := ∑ t, (s.threads t).readHolds

/-- The lock has no writer. -/
structure Free (s : State T) : Prop where
  /-- Nobody holds the write lock. -/
  writeHolds_eq : ∀ t, (s.threads t).writeHolds = 0
  /-- The flag is the number of readers. -/
  lockFlag_eq : s.lockFlag.toNat = s.readers
  /-- The count is zero. -/
  writeCnt_eq : s.writeCnt = 0

/-- The lock has one writer. -/
structure OwnedBy (lThreadId : T → BitVec 32) (s : State T) (t : T) : Prop where
  /-- It holds the write lock. -/
  pos : 0 < (s.threads t).writeHolds
  /-- Nobody else does. -/
  others : ∀ u, u ≠ t → (s.threads u).writeHolds = 0
  /-- The flag names it. -/
  lockFlag_eq : s.lockFlag = desired (lThreadId t)
  /-- The count is the number of its holds, up to an update not made yet. -/
  writeCnt_eq : s.writeCnt + (s.threads t).pc.pending = (s.threads t).writeHolds
  /-- Nobody reads. -/
  readers_eq : s.readers = 0

/-- The invariant of the lock. -/
structure Inv (lThreadId : T → BitVec 32) (s : State T) : Prop where
  /-- Every thread is sound. -/
  sound : ∀ t, (s.threads t).Sound
  /-- The lock is free or has one writer. -/
  mode : Free s ∨ ∃ t, OwnedBy lThreadId s t
  /-- The readers fit the lower half of the flag. -/
  readers_lt : s.readers < 65535
  /-- No `ReadUnlock` found the lower half empty. -/
  errors_eq : s.errors = []

/-- How the threads use the lock: an unlock is called by a thread that holds
that kind of lock, and fewer than 65535 read holds exist at once. -/
structure Disciplined (lThreadId : T → BitVec 32) (s : State T) (a : T × Action) : Prop where
  /-- `ReadUnlock` is called by a reader. -/
  readUnlock : a.2 = .call .readUnlock → 0 < (s.threads a.1).readHolds
  /-- `WriteUnlock` is called by the writer. -/
  writeUnlock : a.2 = .call .writeUnlock → 0 < (s.threads a.1).writeHolds
  /-- The read holds stay below 65535. -/
  readers_lt : ∀ s', step lThreadId s a = some s' → s'.readers < 65535

variable {lThreadId : T → BitVec 32} {s s' : State T} {t u : T} {thread : Thread}

/-- A changed thread changes the read holds by its own. -/
theorem readers_set : (s.set t thread).readers + (s.threads t).readHolds =
    s.readers + thread.readHolds :=
  ThreadSum.sum_update Thread.readHolds s.threads t thread

/-- A thread that keeps its read holds keeps their sum. -/
theorem readers_set_eq (hr : thread.readHolds = (s.threads t).readHolds) :
    (s.set t thread).readers = s.readers := by
  have hsum : (s.set t thread).readers + (s.threads t).readHolds =
      s.readers + thread.readHolds := readers_set
  omega

omit [DecidableEq T] in
/-- The read holds of a thread are among all. -/
theorem readHolds_le : (s.threads t).readHolds ≤ s.readers :=
  ThreadSum.le_sum Thread.readHolds s.threads t

omit [Fintype T] in
/-- A state whose changed thread is sound is sound. -/
theorem sound_set (h : ∀ u, (s.threads u).Sound) (ht : thread.Sound) :
    ∀ u, ((s.set t thread).threads u).Sound := by
  intro u
  by_cases hu : u = t
  · subst hu
    rw [set_self]
    exact ht
  · rw [set_of_ne s thread hu]
    exact h u

omit [DecidableEq T] in
/-- The flag of a writer is above every number of readers. -/
theorem OwnedBy.le_lockFlag (ids : DistinctIds lThreadId) (h : OwnedBy lThreadId s t) :
    65536 ≤ s.lockFlag.toNat := by
  have hpos := ids.pos t
  rw [h.lockFlag_eq, toNat_desired (ids.le t)]
  omega

omit [DecidableEq T] in
/-- The writer finds its own id in the flag. -/
theorem OwnedBy.lockThreadId_eq (ids : DistinctIds lThreadId) (h : OwnedBy lThreadId s t) :
    lockThreadId s.lockFlag = lThreadId t := by
  rw [h.lockFlag_eq, lockThreadId_desired (ids.le t)]

omit [DecidableEq T] in
/-- The only thread with holds is the writer. -/
theorem OwnedBy.eq_of_pos (h : OwnedBy lThreadId s t) (hu : 0 < (s.threads u).writeHolds) :
    u = t := by
  by_contra hut
  have hzero := h.others u hut
  omega

omit [DecidableEq T] in
/-- A flag in the lower half means a free lock. -/
theorem Inv.free_of_lockFlag (ids : DistinctIds lThreadId) (inv : Inv lThreadId s)
    (h : s.lockFlag.toNat ≤ 65535) : Free s := by
  rcases inv.mode with hfree | ⟨t, howned⟩
  · exact hfree
  · have hle := howned.le_lockFlag ids
    omega

omit [DecidableEq T] in
/-- A thread with a write hold is the writer. -/
theorem Inv.owned_of_pos (inv : Inv lThreadId s) (h : 0 < (s.threads t).writeHolds) :
    OwnedBy lThreadId s t := by
  rcases inv.mode with hfree | ⟨u, howned⟩
  · have hzero := hfree.writeHolds_eq t
    omega
  · have htu := howned.eq_of_pos h
    subst htu
    exact howned

omit [DecidableEq T] in
/-- A thread that finds its id in the flag is the writer. -/
theorem Inv.owned_of_lockThreadId (ids : DistinctIds lThreadId) (inv : Inv lThreadId s)
    (h : lThreadId t = lockThreadId s.lockFlag) : OwnedBy lThreadId s t := by
  rcases inv.mode with hfree | ⟨u, howned⟩
  · have hpos := ids.pos t
    have hlt := inv.readers_lt
    rw [h, toNat_lockThreadId, hfree.lockFlag_eq] at hpos
    omega
  · have htu : t = u := ids.injective (h.trans (howned.lockThreadId_eq ids))
    subst htu
    exact howned

omit [DecidableEq T] in
/-- A reader means a free lock. -/
theorem Inv.free_of_reader (inv : Inv lThreadId s) (h : 0 < (s.threads t).readHolds) : Free s := by
  rcases inv.mode with hfree | ⟨u, howned⟩
  · exact hfree
  · have hle := readHolds_le (s := s) (t := t)
    have hzero := howned.readers_eq
    omega

omit [DecidableEq T] in
/-- The sum of the read holds depends on the threads only. -/
theorem readers_congr (h : s'.threads = s.threads) : s'.readers = s.readers := by
  rw [State.readers, State.readers, h]

/-- The lock is free after a step of a thread without write holds that keeps the
flag in accordance with the readers. -/
theorem Free.set (h : Free s) (hs : s'.threads = (s.set t thread).threads)
    (hw : thread.writeHolds = 0) (hflag : s'.lockFlag.toNat = (s.set t thread).readers)
    (hcnt : s'.writeCnt = 0) : Free s' where
  writeHolds_eq u := by
    rw [hs]
    by_cases hu : u = t
    · subst hu
      rw [set_self]
      exact hw
    · rw [set_of_ne s thread hu]
      exact h.writeHolds_eq u
  lockFlag_eq := hflag.trans (readers_congr hs).symm
  writeCnt_eq := hcnt

/-- Another thread that stays without write holds leaves the writer alone. -/
theorem OwnedBy.set_other (h : OwnedBy lThreadId s t) (hu : u ≠ t) (hw : thread.writeHolds = 0)
    (hr : thread.readHolds = (s.threads u).readHolds) : OwnedBy lThreadId (s.set u thread) t where
  pos := by
    rw [set_of_ne s thread hu.symm]
    exact h.pos
  others v hv := by
    by_cases hvu : v = u
    · subst hvu
      rw [set_self]
      exact hw
    · rw [set_of_ne s thread hvu]
      exact h.others v hv
  lockFlag_eq := h.lockFlag_eq
  writeCnt_eq := by
    rw [set_of_ne s thread hu.symm]
    exact h.writeCnt_eq
  readers_eq := by
    rw [readers_set_eq hr]
    exact h.readers_eq

/-- A thread with write holds is the writer after its own step when nobody else
holds anything. -/
theorem OwnedBy.set_self (hs : s'.threads = (s.set t thread).threads)
    (hothers : ∀ u, u ≠ t → (s.threads u).writeHolds = 0) (hzero : s.readers = 0)
    (hpos : 0 < thread.writeHolds) (hr : thread.readHolds = (s.threads t).readHolds)
    (hflag : s'.lockFlag = desired (lThreadId t))
    (hcnt : s'.writeCnt + thread.pc.pending = thread.writeHolds) : OwnedBy lThreadId s' t where
  pos := by
    rw [hs, RWLock.set_self]
    exact hpos
  others u hu := by
    rw [hs, set_of_ne s thread hu]
    exact hothers u hu
  lockFlag_eq := hflag
  writeCnt_eq := by
    rw [hs, RWLock.set_self]
    exact hcnt
  readers_eq := (readers_congr hs).trans ((readers_set_eq hr).trans hzero)

/-- A thread that moves on with no update pending before or after keeps the mode
of the lock. -/
theorem Inv.mode_goto (inv : Inv lThreadId s) {pc : Pc}
    (hp : pc.pending = (s.threads t).pc.pending) :
    Free (s.set t ((s.threads t).goto pc)) ∨
      ∃ u, OwnedBy lThreadId (s.set t ((s.threads t).goto pc)) u := by
  rcases inv.mode with hfree | ⟨u, howned⟩
  · have hreaders : (s.set t ((s.threads t).goto pc)).readers = s.readers := readers_set_eq rfl
    exact .inl (hfree.set rfl (hfree.writeHolds_eq t) (hfree.lockFlag_eq.trans hreaders.symm)
      hfree.writeCnt_eq)
  · refine .inr ⟨u, ?_⟩
    by_cases htu : t = u
    · subst htu
      exact OwnedBy.set_self rfl howned.others howned.readers_eq howned.pos rfl
        howned.lockFlag_eq (hp ▸ howned.writeCnt_eq)
    · exact howned.set_other htu (howned.others t htu) rfl

/-- A step of a disciplined thread keeps every thread sound. -/
theorem sound_step (ids : DistinctIds lThreadId) (inv : Inv lThreadId s) {a : Action}
    (ok : Disciplined lThreadId s (t, a)) (h : Moves lThreadId s t a s') :
    ∀ u, (s'.threads u).Sound := by
  have sound := inv.sound t
  have allows := sound.allows
  cases h with
  | called method ht =>
    refine sound_set inv.sound (sound.goto ?_)
    cases method with
    | readLock => trivial
    | readUnlock => exact ok.readUnlock rfl
    | writeLock => trivial
    | writeUnlock => exact ok.writeUnlock rfl
  | readLoaded ht =>
    refine sound_set inv.sound (sound.goto ?_)
    show (s.lockFlag &&& readLockMask).toNat ≤ 65535
    rw [toNat_and_readLockMask]
    omega
  | readLocked ht => exact sound_set inv.sound sound.readLocked
  | readFailed spurious expected ht => exact sound_set inv.sound (sound.goto trivial)
  | readUnlocked ht => exact sound_set inv.sound sound.readUnlocked
  | ownFound ht hid =>
    exact sound_set inv.sound (sound.goto (inv.owned_of_lockThreadId ids hid).pos)
  | otherFound ht hid =>
    refine sound_set inv.sound (sound.goto ?_)
    show (s.threads t).writeHolds = 0
    by_contra hne
    exact hid ((inv.owned_of_pos (Nat.pos_of_ne_zero hne)).lockThreadId_eq ids).symm
  | lockedAgain ht => exact sound_set inv.sound (sound.writeLocked trivial)
  | writeLocked ht hflag =>
    rw [ht] at allows
    refine sound_set inv.sound (sound.writeLocked ?_)
    exact congrArg Nat.succ allows
  | writeFailed spurious ht => exact inv.sound
  | counted ht => exact sound_set inv.sound (sound.goto trivial)
  | unlocking ht hid =>
    rw [ht] at allows
    exact sound_set inv.sound (sound.goto allows)
  | notOwner ht hid =>
    rw [ht] at allows
    exact (hid ((inv.owned_of_pos allows).lockThreadId_eq ids)).elim
  | lastUnlock ht hcnt =>
    rw [ht] at allows
    have hown := (inv.owned_of_pos allows).writeCnt_eq
    rw [ht] at hown
    refine sound_set inv.sound (sound.goto ?_)
    show (s.threads t).writeHolds = 1
    simp only [Pc.pending] at hown
    omega
  | innerUnlock ht hcnt =>
    rw [ht] at allows
    exact sound_set inv.sound (Thread.Sound.writeUnlocked allows)
  | released ht =>
    rw [ht] at allows
    exact sound_set inv.sound (Thread.Sound.writeUnlocked (allows ▸ Nat.one_pos))

/-- A successful exchange of `ReadLock` finds no writer and adds one reader. -/
theorem free_readLocked (ids : DistinctIds lThreadId) (inv : Inv lThreadId s)
    (ht : (s.threads t).pc = .readCas s.lockFlag) :
    Free { (s.set t (s.threads t).readLocked) with lockFlag := s.lockFlag + 1 } := by
  have allows := (inv.sound t).allows
  rw [ht] at allows
  have hfree := inv.free_of_lockFlag ids allows
  refine hfree.set rfl (hfree.writeHolds_eq t) ?_ hfree.writeCnt_eq
  have hlt := inv.readers_lt
  have hsum : (s.set t (s.threads t).readLocked).readers + (s.threads t).readHolds =
      s.readers + ((s.threads t).readHolds + 1) := readers_set
  have hone : (1 : BitVec 32).toNat = 1 := rfl
  show (s.lockFlag + 1).toNat = _
  rw [BitVec.toNat_add, hfree.lockFlag_eq, hone]
  omega

/-- A `fetch_sub` of a reader finds no writer and removes one reader. -/
theorem free_readUnlocked (inv : Inv lThreadId s) (ht : (s.threads t).pc = .readUnlock)
    (hs : s'.threads = (s.set t (s.threads t).readUnlocked).threads)
    (hflag : s'.lockFlag = s.lockFlag - 1) (hcnt : s'.writeCnt = s.writeCnt) : Free s' := by
  have allows := (inv.sound t).allows
  rw [ht] at allows
  have hpos : 0 < (s.threads t).readHolds := allows
  have hfree := inv.free_of_reader hpos
  refine hfree.set hs (hfree.writeHolds_eq t) ?_ (hcnt.trans hfree.writeCnt_eq)
  have hlt := inv.readers_lt
  have hle := readHolds_le (s := s) (t := t)
  have hsum : (s.set t (s.threads t).readUnlocked).readers + (s.threads t).readHolds =
      s.readers + ((s.threads t).readHolds - 1) := readers_set
  have hone : (1 : BitVec 32).toNat = 1 := rfl
  rw [hflag, BitVec.toNat_sub, hfree.lockFlag_eq, hone]
  omega

/-- A successful exchange of `WriteLock` finds nobody and makes a writer. -/
theorem owned_writeLocked (ids : DistinctIds lThreadId) (inv : Inv lThreadId s)
    (hflag : s.lockFlag = emptyFlag) :
    OwnedBy lThreadId { (s.set t ((s.threads t).writeLocked .writeFirst)) with
      lockFlag := desired (lThreadId t) } t := by
  have hzero : s.lockFlag.toNat = 0 := by
    rw [hflag]
    rfl
  have hfree := inv.free_of_lockFlag ids (by omega)
  have hholds := (inv.sound t).writeLocked_writeHolds .writeFirst
  rw [hfree.writeHolds_eq t] at hholds
  refine OwnedBy.set_self rfl (fun u _ => hfree.writeHolds_eq u) (hfree.lockFlag_eq ▸ hzero)
    (by omega) rfl rfl ?_
  show s.writeCnt + 1 = _
  rw [hfree.writeCnt_eq, hholds]
  rfl

/-- The last store of a writer frees the lock. -/
theorem free_released (inv : Inv lThreadId s) (ht : (s.threads t).pc = .writeStore) :
    Free { (s.set t (s.threads t).writeUnlocked) with lockFlag := emptyFlag } := by
  have allows := (inv.sound t).allows
  rw [ht] at allows
  have hone : (s.threads t).writeHolds = 1 := allows
  have howned := inv.owned_of_pos (t := t) (by omega)
  have hcnt := howned.writeCnt_eq
  rw [ht, hone] at hcnt
  simp only [Pc.pending] at hcnt
  have hlast : (s.threads t).writeUnlocked.writeHolds = 0 := by
    rw [writeUnlocked_writeHolds, hone]
  constructor
  · intro u
    show ((s.set t (s.threads t).writeUnlocked).threads u).writeHolds = 0
    by_cases hu : u = t
    · subst hu
      rw [set_self]
      exact hlast
    · rw [set_of_ne s _ hu]
      exact howned.others u hu
  · have hreaders : (s.set t (s.threads t).writeUnlocked).readers = s.readers :=
      readers_set_eq rfl
    exact (hreaders.trans howned.readers_eq).symm
  · show s.writeCnt = 0
    omega

/-- A step keeps the lock free or with one writer. -/
theorem mode_step (ids : DistinctIds lThreadId) (inv : Inv lThreadId s) {a : Action}
    (h : Moves lThreadId s t a s') : Free s' ∨ ∃ u, OwnedBy lThreadId s' u := by
  have sound := inv.sound t
  have allows := sound.allows
  cases h with
  | called method ht =>
    refine inv.mode_goto ?_
    rw [ht]
    cases method <;> rfl
  | readLoaded ht => exact inv.mode_goto (by rw [ht]; rfl)
  | readLocked ht => exact .inl (free_readLocked ids inv ht)
  | readFailed spurious expected ht => exact inv.mode_goto (by rw [ht]; rfl)
  | readUnlocked ht => exact .inl (free_readUnlocked inv ht rfl rfl rfl)
  | ownFound ht hid => exact inv.mode_goto (by rw [ht]; rfl)
  | otherFound ht hid => exact inv.mode_goto (by rw [ht]; rfl)
  | lockedAgain ht =>
    rw [ht] at allows
    have howned := inv.owned_of_pos allows
    have hcnt := howned.writeCnt_eq
    have hholds := sound.writeLocked_writeHolds .idle
    rw [ht] at hcnt
    simp only [Pc.pending] at hcnt
    refine .inr ⟨t, OwnedBy.set_self rfl howned.others howned.readers_eq (by omega) rfl
      howned.lockFlag_eq ?_⟩
    show s.writeCnt + 1 + 0 = _
    rw [hholds]
    omega
  | writeLocked ht hflag => exact .inr ⟨t, owned_writeLocked ids inv hflag⟩
  | writeFailed spurious ht => exact inv.mode
  | counted ht =>
    rw [ht] at allows
    have hone : (s.threads t).writeHolds = 1 := allows
    have howned := inv.owned_of_pos (t := t) (by omega)
    have hcnt := howned.writeCnt_eq
    rw [ht] at hcnt
    simp only [Pc.pending] at hcnt
    refine .inr ⟨t, OwnedBy.set_self rfl howned.others howned.readers_eq howned.pos rfl
      howned.lockFlag_eq ?_⟩
    show s.writeCnt + 1 + 0 = (s.threads t).writeHolds
    omega
  | unlocking ht hid => exact inv.mode_goto (by rw [ht]; rfl)
  | notOwner ht hid =>
    rw [ht] at allows
    exact (hid ((inv.owned_of_pos allows).lockThreadId_eq ids)).elim
  | lastUnlock ht hcnt =>
    rw [ht] at allows
    have howned := inv.owned_of_pos allows
    have hold := howned.writeCnt_eq
    rw [ht] at hold
    simp only [Pc.pending] at hold
    refine .inr ⟨t, OwnedBy.set_self rfl howned.others howned.readers_eq howned.pos rfl
      howned.lockFlag_eq ?_⟩
    show s.writeCnt - 1 + 1 = (s.threads t).writeHolds
    omega
  | innerUnlock ht hcnt =>
    rw [ht] at allows
    have hpos : 0 < (s.threads t).writeHolds := allows
    have howned := inv.owned_of_pos hpos
    have hold := howned.writeCnt_eq
    have hholds := writeUnlocked_writeHolds (s.threads t)
    rw [ht] at hold
    simp only [Pc.pending] at hold
    refine .inr ⟨t, OwnedBy.set_self rfl howned.others howned.readers_eq (by omega) rfl
      howned.lockFlag_eq ?_⟩
    show s.writeCnt - 1 + 0 = _
    omega
  | released ht => exact .inl (free_released inv ht)

/-- No `ReadUnlock` of a reader finds the lower half of the flag empty. -/
theorem errors_step (inv : Inv lThreadId s) {a : Action} (h : Moves lThreadId s t a s') :
    s'.errors = [] := by
  cases h with
  | readUnlocked ht =>
    have allows := (inv.sound t).allows
    rw [ht] at allows
    have hpos : 0 < (s.threads t).readHolds := allows
    have hfree := inv.free_of_reader hpos
    have hle := readHolds_le (s := s) (t := t)
    have hlt := inv.readers_lt
    have hne : s.lockFlag &&& readLockMask ≠ 0 := by
      intro hzero
      have hmod := congrArg BitVec.toNat hzero
      rw [toNat_and_readLockMask, hfree.lockFlag_eq, Nat.mod_eq_of_lt (by omega)] at hmod
      exact absurd hmod (by show s.readers ≠ 0; omega)
    show (if s.lockFlag &&& readLockMask = 0 then s.errors ++ ["ReadUnlock Error"] else s.errors) = []
    rw [if_neg hne]
    exact inv.errors_eq
  | _ => exact inv.errors_eq

/-- Every disciplined step keeps the invariant. -/
theorem inv_step (ids : DistinctIds lThreadId) (inv : Inv lThreadId s) {a : T × Action}
    (ok : Disciplined lThreadId s a) (h : step lThreadId s a = some s') : Inv lThreadId s' := by
  obtain ⟨t, a⟩ := a
  have hm := step_moves h
  exact ⟨sound_step ids inv ok hm, mode_step ids inv hm, ok.readers_lt s' h, errors_step inv hm⟩

omit [DecidableEq T] in
/-- A new lock is free. -/
theorem inv_init : Inv lThreadId (init : State T) where
  sound _ := ⟨le_refl 0, trivial⟩
  mode := .inl ⟨fun _ => rfl, by simp [init, State.readers], rfl⟩
  readers_lt := by simp [init, State.readers]
  errors_eq := rfl

/-- The invariant holds throughout every disciplined run. -/
theorem inv_reachable (ids : DistinctIds lThreadId)
    (h : ReachableVia (step lThreadId) (Disciplined lThreadId) init s) : Inv lThreadId s :=
  h.invariant inv_init fun _ _ _ inv ok hs => inv_step ids inv ok hs

/-- What a thread knows of its lock: its position and its holds. -/
def Thread.view (thread : Thread) : Pc × ℕ × ℕ := (thread.pc, thread.readHolds, thread.writeHolds)

/-- What the steps of a disciplined thread do to its view. -/
inductive Advances : Pc × ℕ × ℕ → Pc × ℕ × ℕ → Prop
  | called (method : Call) (r w : ℕ) : Advances (.idle, r, w) (method.entry, r, w)
  | readLoaded (expected : BitVec 32) (r w : ℕ) :
      Advances (.readLock, r, w) (.readCas expected, r, w)
  | readLocked (expected : BitVec 32) (r : ℕ) : Advances (.readCas expected, r, 0) (.idle, r + 1, 0)
  | readFailed (expected : BitVec 32) (r w : ℕ) :
      Advances (.readCas expected, r, w) (.readLock, r, w)
  | readUnlocked (r w : ℕ) : Advances (.readUnlock, r, w) (.idle, r - 1, w)
  | ownFound (r w : ℕ) : Advances (.writeLock, r, w + 1) (.writeAgain, r, w + 1)
  | otherFound (r : ℕ) : Advances (.writeLock, r, 0) (.writeCas, r, 0)
  | lockedAgain (r w : ℕ) : Advances (.writeAgain, r, w) (.idle, r, w + 1)
  | writeLocked (r w : ℕ) : Advances (.writeCas, r, w) (.writeFirst, r, w + 1)
  | writeFailed (r w : ℕ) : Advances (.writeCas, r, w) (.writeCas, r, w)
  | counted (r w : ℕ) : Advances (.writeFirst, r, w) (.idle, r, w)
  | unlocking (r w : ℕ) : Advances (.writeUnlock, r, w) (.writeDec, r, w)
  | lastUnlock (r : ℕ) : Advances (.writeDec, r, 1) (.writeStore, r, 1)
  | innerUnlock (r w : ℕ) : Advances (.writeDec, r, w + 2) (.idle, r, w + 1)
  | released (r : ℕ) : Advances (.writeStore, r, 1) (.idle, r, 0)

/-- A step of a thread, as the thread sees it. -/
theorem Inv.advances (ids : DistinctIds lThreadId) (inv : Inv lThreadId s) {a : Action}
    (h : Moves lThreadId s t a s') : Advances (s.threads t).view (s'.threads t).view := by
  have sound := inv.sound t
  have allows := sound.allows
  cases h with
  | called method ht =>
    rw [set_self, Thread.view, ht]
    exact .called method _ _
  | readLoaded ht =>
    rw [set_self, Thread.view, ht]
    exact .readLoaded _ _ _
  | readLocked ht =>
    rw [ht] at allows
    have hzero := (inv.free_of_lockFlag ids allows).writeHolds_eq t
    show Advances _ ((s.set t (s.threads t).readLocked).threads t).view
    rw [set_self, Thread.view, ht, hzero]
    show Advances _ (Pc.idle, (s.threads t).readHolds + 1, (s.threads t).writeHolds)
    rw [hzero]
    exact .readLocked _ _
  | readFailed spurious expected ht =>
    rw [set_self, Thread.view, ht]
    exact .readFailed _ _ _
  | readUnlocked ht =>
    show Advances _ ((s.set t (s.threads t).readUnlocked).threads t).view
    rw [set_self, Thread.view, ht]
    exact .readUnlocked _ _
  | ownFound ht hid =>
    obtain ⟨w, hw⟩ := Nat.exists_eq_succ_of_ne_zero (inv.owned_of_lockThreadId ids hid).pos.ne'
    rw [set_self, Thread.view, ht, hw]
    show Advances _ (Pc.writeAgain, (s.threads t).readHolds, (s.threads t).writeHolds)
    rw [hw]
    exact .ownFound _ _
  | otherFound ht hid =>
    have hzero : (s.threads t).writeHolds = 0 := by
      by_contra hne
      exact hid ((inv.owned_of_pos (Nat.pos_of_ne_zero hne)).lockThreadId_eq ids).symm
    rw [set_self, Thread.view, ht, hzero]
    show Advances _ (Pc.writeCas, (s.threads t).readHolds, (s.threads t).writeHolds)
    rw [hzero]
    exact .otherFound _
  | lockedAgain ht =>
    show Advances _ ((s.set t ((s.threads t).writeLocked .idle)).threads t).view
    rw [set_self, Thread.view, Thread.view, sound.writeLocked_writeHolds, ht]
    exact .lockedAgain _ _
  | writeLocked ht hflag =>
    show Advances _ ((s.set t ((s.threads t).writeLocked .writeFirst)).threads t).view
    rw [set_self, Thread.view, Thread.view, sound.writeLocked_writeHolds, ht]
    exact .writeLocked _ _
  | writeFailed spurious ht =>
    rw [Thread.view, ht]
    exact .writeFailed _ _
  | counted ht =>
    show Advances _ ((s.set t ((s.threads t).goto .idle)).threads t).view
    rw [set_self, Thread.view, ht]
    exact .counted _ _
  | unlocking ht hid =>
    rw [set_self, Thread.view, ht]
    exact .unlocking _ _
  | notOwner ht hid =>
    rw [ht] at allows
    exact (hid ((inv.owned_of_pos allows).lockThreadId_eq ids)).elim
  | lastUnlock ht hcnt =>
    rw [ht] at allows
    have hown := (inv.owned_of_pos allows).writeCnt_eq
    rw [ht] at hown
    simp only [Pc.pending] at hown
    have hone : (s.threads t).writeHolds = 1 := by omega
    show Advances _ ((s.set t ((s.threads t).goto .writeStore)).threads t).view
    rw [set_self, Thread.view, ht, hone]
    show Advances _ (Pc.writeStore, (s.threads t).readHolds, (s.threads t).writeHolds)
    rw [hone]
    exact .lastUnlock _
  | innerUnlock ht hcnt =>
    rw [ht] at allows
    have hpos : 0 < (s.threads t).writeHolds := allows
    have hown := (inv.owned_of_pos hpos).writeCnt_eq
    rw [ht] at hown
    simp only [Pc.pending] at hown
    obtain ⟨w, hw⟩ := Nat.exists_eq_add_of_le (show 2 ≤ (s.threads t).writeHolds by omega)
    show Advances _ ((s.set t (s.threads t).writeUnlocked).threads t).view
    rw [set_self, Thread.view, Thread.view, writeUnlocked_writeHolds, ht, hw, Nat.add_comm 2 w]
    exact .innerUnlock _ _
  | released ht =>
    rw [ht] at allows
    have hone : (s.threads t).writeHolds = 1 := allows
    show Advances _ ((s.set t (s.threads t).writeUnlocked).threads t).view
    rw [set_self, Thread.view, Thread.view, writeUnlocked_writeHolds, ht, hone]
    exact .released _

omit [Fintype T] in
/-- A thread that enters a method keeps its holds. -/
theorem view_entered {method : Call} (h : Moves lThreadId s t (.call method) s') :
    (s'.threads t).view = (method.entry, (s.threads t).readHolds, (s.threads t).writeHolds) := by
  cases h with
  | called _ ht =>
    rw [set_self]
    rfl

omit [DecidableEq T] in
/-- The read holds are as many as the threads at most, where no thread has two. -/
theorem readers_le (h : ∀ t, (s.threads t).readHolds ≤ 1) : s.readers ≤ Fintype.card T := by
  calc s.readers ≤ Finset.univ.card • 1 := Finset.sum_le_card_nsmul _ _ _ fun t _ => h t
    _ = Fintype.card T := by simp

/-- Fewer than 65535 threads, which never have two read holds each, are disciplined when
they unlock what they hold. -/
theorem inv_access (ids : DistinctIds lThreadId) (hcard : Fintype.card T < 65535)
    (inv : Inv lThreadId s) (hle : ∀ u, (s.threads u).readHolds ≤ 1) {a : Action}
    (hread : a = .call .readUnlock → 0 < (s.threads t).readHolds)
    (hwrite : a = .call .writeUnlock → 0 < (s.threads t).writeHolds)
    (hone : ∀ v, Advances (s.threads t).view v → v.2.1 ≤ 1)
    (h : step lThreadId s (t, a) = some s') : Inv lThreadId s' := by
  refine inv_step ids inv ⟨hread, hwrite, fun s' h' => ?_⟩ h
  have hm := step_moves h'
  refine (readers_le fun u => ?_).trans_lt hcard
  by_cases hu : u = t
  · subst hu
    exact hone _ (inv.advances ids hm)
  · rw [hm.other hu]
    exact hle u

/-- So are such threads that enter a method. -/
theorem inv_entered (ids : DistinctIds lThreadId) (hcard : Fintype.card T < 65535)
    (inv : Inv lThreadId s) (hle : ∀ u, (s.threads u).readHolds ≤ 1) {method : Call}
    (hread : method = .readUnlock → 0 < (s.threads t).readHolds)
    (hwrite : method = .writeUnlock → 0 < (s.threads t).writeHolds)
    (h : step lThreadId s (t, .call method) = some s') : Inv lThreadId s' := by
  have hpc : (s.threads t).pc = .idle := by
    cases step_moves h with
    | called _ ht => exact ht
  refine inv_access ids hcard inv hle (fun ha => hread (by injection ha))
    (fun ha => hwrite (by injection ha)) (fun v hv => ?_) h
  rw [Thread.view, hpc] at hv
  cases hv
  exact hle t

/-- Mutual exclusion and the meaning of the flag. -/
structure Exclusive (lThreadId : T → BitVec 32) (s : State T) : Prop where
  /-- A writer excludes other writers and other readers. -/
  alone : ∀ t u, 0 < (s.threads t).writeHolds → u ≠ t →
    (s.threads u).writeHolds = 0 ∧ (s.threads u).readHolds = 0
  /-- The flag names the writer. -/
  writer_flag : ∀ t, 0 < (s.threads t).writeHolds → s.lockFlag = lThreadId t <<< 16
  /-- Without a writer the flag is the number of read holds. -/
  readers_flag : (∀ t, (s.threads t).writeHolds = 0) →
    s.lockFlag.toNat = ∑ t, (s.threads t).readHolds

/-- The write lock of a thread goes with its last `WriteUnlock`. -/
structure ReleasedAtLast (lThreadId : T → BitVec 32) (s : State T) (t : T) : Prop where
  /-- It is not released more often than taken. -/
  unlocks_le : (s.threads t).writeUnlocks ≤ (s.threads t).writeLocks
  /-- The flag names the thread until it is released as often as taken. -/
  held_iff : s.lockFlag = lThreadId t <<< 16 ↔
    (s.threads t).writeUnlocks < (s.threads t).writeLocks
  /-- The step by which the flag stops naming the thread is the store that
  completes the last `WriteUnlock` due. -/
  release : ∀ a s', step lThreadId s a = some s' → s.lockFlag = lThreadId t <<< 16 →
    s'.lockFlag ≠ lThreadId t <<< 16 → a = (t, .store) ∧
      (s'.threads t).writeUnlocks = (s.threads t).writeUnlocks + 1 ∧
      (s'.threads t).writeUnlocks = (s'.threads t).writeLocks

omit [DecidableEq T] in
/-- A writer excludes everybody else. -/
theorem exclusive_of_inv (inv : Inv lThreadId s) : Exclusive lThreadId s where
  alone t u ht hu := by
    have howned := inv.owned_of_pos ht
    have hle := readHolds_le (s := s) (t := u)
    have hzero := howned.readers_eq
    exact ⟨howned.others u hu, by omega⟩
  writer_flag t ht := by
    rw [(inv.owned_of_pos ht).lockFlag_eq, desired_eq]
  readers_flag hfree := by
    rcases inv.mode with hmode | ⟨t, howned⟩
    · exact hmode.lockFlag_eq
    · have hpos := howned.pos
      have hzero := hfree t
      omega

omit [DecidableEq T] in
/-- A thread is named by the flag exactly while it is the writer. -/
theorem Inv.owned_iff (ids : DistinctIds lThreadId) (inv : Inv lThreadId s) :
    s.lockFlag = lThreadId t <<< 16 ↔ OwnedBy lThreadId s t := by
  constructor
  · intro hflag
    apply inv.owned_of_lockThreadId ids
    rw [hflag, ← desired_eq, lockThreadId_desired (ids.le t)]
  · intro howned
    rw [howned.lockFlag_eq, desired_eq]

/-- The flag of a writer is changed only by its store. -/
theorem store_of_release (ids : DistinctIds lThreadId) (inv : Inv lThreadId s)
    (howned : OwnedBy lThreadId s t) {a : Action} (h : Moves lThreadId s u a s')
    (hne : s'.lockFlag ≠ s.lockFlag) : u = t ∧ a = .store ∧ (s.threads t).writeHolds = 1 ∧
      s'.threads t = (s.threads t).writeUnlocked := by
  have allows := (inv.sound u).allows
  have hpos := howned.pos
  cases h with
  | readLocked ht =>
    rw [ht] at allows
    have hle := howned.le_lockFlag ids
    have hlt : s.lockFlag.toNat ≤ 65535 := allows
    omega
  | readUnlocked ht =>
    rw [ht] at allows
    have hzero := (inv.free_of_reader allows).writeHolds_eq t
    omega
  | writeLocked ht hflag =>
    have hle := howned.le_lockFlag ids
    rw [hflag] at hle
    exact absurd hle (by decide)
  | released ht =>
    rw [ht] at allows
    have hone : (s.threads u).writeHolds = 1 := allows
    have hut : u = t := howned.eq_of_pos (by omega)
    subst hut
    exact ⟨rfl, rfl, hone, set_self s u _⟩
  | _ => exact (hne rfl).elim

/-- The last `WriteUnlock` of a writer releases the lock. -/
theorem releasedAtLast_of_inv (ids : DistinctIds lThreadId) (inv : Inv lThreadId s) (t : T) :
    ReleasedAtLast lThreadId s t where
  unlocks_le := (inv.sound t).le
  held_iff := by
    rw [inv.owned_iff ids]
    constructor
    · intro howned
      exact Nat.lt_of_sub_pos howned.pos
    · intro hlt
      exact inv.owned_of_pos (Nat.sub_pos_of_lt hlt)
  release := by
    rintro ⟨u, a⟩ s' hs hflag hne
    have howned := (inv.owned_iff ids).mp hflag
    have hle := (inv.sound t).le
    obtain ⟨rfl, rfl, hone, hthread⟩ :=
      store_of_release ids inv howned (step_moves hs) (hflag ▸ hne)
    rw [Thread.writeHolds] at hone
    rw [hthread]
    refine ⟨rfl, rfl, ?_⟩
    show (s.threads u).writeUnlocks + 1 = (s.threads u).writeLocks
    omega

/-- Threads with distinct ids from 1 to 65535 that unlock only what they hold
and hold fewer than 65535 read locks at once exclude one another: a writer is
alone, the flag is that of the writer or the number of readers, and a write lock
is released exactly by the `WriteUnlock` that makes up for its first
`WriteLock`. -/
theorem rwLock_exclusive (ids : DistinctIds lThreadId)
    (h : ReachableVia (step lThreadId) (Disciplined lThreadId) init s) :
    Exclusive lThreadId s ∧ ∀ t, ReleasedAtLast lThreadId s t := by
  have inv := inv_reachable ids h
  exact ⟨exclusive_of_inv inv, releasedAtLast_of_inv ids inv⟩

instance : DecidableRel (Disciplined lThreadId) := fun s a =>
  decidable_of_iff ((a.2 = .call .readUnlock → 0 < (s.threads a.1).readHolds) ∧
      (a.2 = .call .writeUnlock → 0 < (s.threads a.1).writeHolds) ∧
      (step lThreadId s a).all (fun s' => decide (s'.readers < 65535)) = true)
    (by
      simp only [Option.all_eq_true, decide_eq_true_eq]
      exact ⟨fun h => ⟨h.1, h.2.1, h.2.2⟩, fun h => ⟨h.readUnlock, h.writeUnlock, h.readers_lt⟩⟩)

end Safety

end System

/-- The ids of two threads. -/
def twoIds (t : Bool) : BitVec 32 := if t then 1 else 2

/-- One thread takes the lock twice and releases it once while another tries. -/
def nestedWrites : List (Bool × Action) :=
  [(true, .call .writeLock), (true, .load), (false, .call .writeLock), (false, .load),
    (true, .cas false), (false, .cas false), (true, .increment), (true, .call .writeLock),
    (true, .load), (true, .increment), (true, .call .writeUnlock), (true, .load),
    (true, .decrement), (false, .cas true)]

/-- The first thread is still the only writer. -/
theorem rwLock_exclusive_nested : ∃ s, run (step twoIds) init nestedWrites = some s ∧
    Exclusive twoIds s ∧ ∀ t, ReleasedAtLast twoIds s t := by
  have h : (run (step twoIds) init nestedWrites).isSome = true := by decide
  obtain ⟨s, hs⟩ := Option.isSome_iff_exists.mp h
  refine ⟨s, hs, rwLock_exclusive ⟨?_, ?_, ?_⟩ ⟨nestedWrites, hs, by decide⟩⟩
  · intro t u
    revert t u
    decide
  · decide
  · decide

end RioIocpServer.RWLock
