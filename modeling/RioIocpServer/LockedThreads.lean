import RioIocpServer.RankedLocks
import RioIocpServer.RWLock

/-!
# Threads and the locks they take

The lock calls of threads with the locks as they are: a `mutex`, or an `RWLock` whose flag
and count a thread accesses step by step while other threads do the same. A thread goes on
with its code when the method of the lock has returned. A writer has got its lock with the
exchange of the flag and returns when it has counted. With such a lock counted as taken,
the threads are those of the ideal locks, step by step; and a thread that the ideal locks
let go on gets to the end of its method when it is left alone.
-/

namespace RioIocpServer.LockedThreads

open TransitionSystem RankedLocks

section Calls

variable {L : Type*}

/-- The method of an `RWLock` that takes it. -/
def lockMethod : Mode → RWLock.Call
  | .shared => .readLock
  | .exclusive => .writeLock

/-- The method that releases it. -/
def unlockMethod : Mode → RWLock.Call
  | .shared => .readUnlock
  | .exclusive => .writeUnlock

/-- The next lock call of a thread: the lock and the method. -/
def next [DecidableEq L] (thread : Thread L) : Option (L × RWLock.Call) :=
  match thread with
  | ⟨_, .acquire l mode :: _⟩ => some (l, lockMethod mode)
  | ⟨(l', mode) :: _, .release l :: _⟩ => if l' = l then some (l, unlockMethod mode) else none
  | _ => none

/-- A thread whose lock call has returned. -/
def advance (thread : Thread L) : Thread L :=
  match thread with
  | ⟨held, .acquire l mode :: code⟩ => ⟨(l, mode) :: held, code⟩
  | ⟨_ :: held, .release _ :: code⟩ => ⟨held, code⟩
  | thread => thread

end Calls

/-- The threads and the locks. -/
structure State (T L : Type*) where
  /-- The threads, with the locks whose methods have returned. -/
  threads : T → Thread L
  /-- The locks that are an `RWLock`. -/
  locks : L → RWLock.State T

/-- The steps of a thread. -/
inductive Action (F : Type*) where
  /-- It begins a piece of code. -/
  | call (f : F)
  /-- It does the next lock call if that is one of a `mutex`, else it enters the method. -/
  | proceed
  /-- An access of the `RWLock` whose method it is in. -/
  | access (access : RWLock.Action)
  deriving DecidableEq

/-- Steps that begin a piece of code. -/
def Action.begins {F : Type*} : Action F → Bool
  | .call _ => true
  | _ => false

section System

variable {T L F : Type*} [DecidableEq T] [DecidableEq L] [Fintype T]

/-- Nobody has begun anything. -/
def init : State T L := ⟨RankedLocks.init, fun _ => RWLock.init⟩

/-- The state with other threads. -/
def State.setThreads (s : State T L) (threads : T → Thread L) : State T L :=
  { s with threads := threads }

/-- The state with a lock changed. -/
def State.setLock (s : State T L) (l : L) (lock : RWLock.State T) : State T L :=
  { s with locks := Function.update s.locks l lock }

/-- The state after an access of a lock; behind the last one the thread goes on. -/
def State.accessed (s : State T L) (t : T) (l : L) (lock : RWLock.State T) : State T L :=
  if (lock.threads t).pc = .idle then
    (s.setLock l lock).setThreads (Function.update s.threads t (advance (s.threads t)))
  else s.setLock l lock

/-- One step of a thread. -/
def step (lThreadId : T → BitVec 32) (reentrant : L → Bool) (body : F → List (Op L))
    (s : State T L) : T × Action F → Option (State T L)
  | (t, .call f) => (RankedLocks.step reentrant body s.threads (t, .call f)).map s.setThreads
  | (t, .proceed) =>
    match next (s.threads t) with
    | some (l, method) =>
      if reentrant l = true then
        (RWLock.step lThreadId (s.locks l) (t, .call method)).map (s.setLock l)
      else (RankedLocks.step reentrant body s.threads (t, .proceed)).map s.setThreads
    | none => none
  | (t, .access a) =>
    match next (s.threads t) with
    | some (l, _) =>
      if reentrant l = true ∧ ((s.locks l).threads t).pc ≠ .idle then
        (RWLock.step lThreadId (s.locks l) (t, a)).map (s.accessed t l)
      else none
    | none => none

/-- What one step can do, with what it has tested. -/
inductive Moves (lThreadId : T → BitVec 32) (reentrant : L → Bool) (body : F → List (Op L))
    (s : State T L) (t : T) : Action F → State T L → Prop
  | called (f : F) (ht : s.threads t = .idle) :
      Moves lThreadId reentrant body s t (.call f)
        (s.setThreads (Function.update s.threads t ⟨[], body f⟩))
  | entered {l : L} {method : RWLock.Call} {lock : RWLock.State T}
      (hnext : next (s.threads t) = some (l, method)) (hl : reentrant l = true)
      (hlock : RWLock.step lThreadId (s.locks l) (t, .call method) = some lock) :
      Moves lThreadId reentrant body s t .proceed (s.setLock l lock)
  | done {l : L} {method : RWLock.Call} {threads : T → Thread L}
      (hnext : next (s.threads t) = some (l, method)) (hl : reentrant l = false)
      (hstep : RankedLocks.step reentrant body s.threads (t, .proceed) = some threads) :
      Moves lThreadId reentrant body s t .proceed (s.setThreads threads)
  | accessed {l : L} {method : RWLock.Call} {a : RWLock.Action} {lock : RWLock.State T}
      (hnext : next (s.threads t) = some (l, method)) (hl : reentrant l = true)
      (hin : ((s.locks l).threads t).pc ≠ .idle)
      (hlock : RWLock.step lThreadId (s.locks l) (t, a) = some lock)
      (hpc : (lock.threads t).pc ≠ .idle) :
      Moves lThreadId reentrant body s t (.access a) (s.setLock l lock)
  | returned {l : L} {method : RWLock.Call} {a : RWLock.Action} {lock : RWLock.State T}
      (hnext : next (s.threads t) = some (l, method)) (hl : reentrant l = true)
      (hin : ((s.locks l).threads t).pc ≠ .idle)
      (hlock : RWLock.step lThreadId (s.locks l) (t, a) = some lock)
      (hpc : (lock.threads t).pc = .idle) :
      Moves lThreadId reentrant body s t (.access a)
        ((s.setLock l lock).setThreads (Function.update s.threads t (advance (s.threads t))))

variable {lThreadId : T → BitVec 32} {reentrant : L → Bool} {body : F → List (Op L)}
  {s s' : State T L} {t : T}

/-- Every enabled step is one of the moves. -/
theorem step_moves {a : Action F} (h : step lThreadId reentrant body s (t, a) = some s') :
    Moves lThreadId reentrant body s t a s' := by
  cases a with
  | call f =>
    obtain ⟨threads, hstep, rfl⟩ := Option.map_eq_some_iff.mp h
    cases RankedLocks.step_moves hstep with
    | called f ht => exact .called f ht
  | proceed =>
    simp only [step] at h
    split at h
    · split at h
      · obtain ⟨lock, hlock, rfl⟩ := Option.map_eq_some_iff.mp h
        exact .entered ‹_› ‹_› hlock
      · obtain ⟨threads, hstep, rfl⟩ := Option.map_eq_some_iff.mp h
        exact .done ‹_› (Bool.eq_false_of_not_eq_true ‹_›) hstep
    · cases h
  | access a =>
    simp only [step] at h
    split at h
    · split at h
      · rename_i hnext hin
        obtain ⟨lock, hlock, rfl⟩ := Option.map_eq_some_iff.mp h
        rw [State.accessed]
        split
        · exact .returned hnext hin.1 hin.2 hlock ‹_›
        · exact .accessed hnext hin.1 hin.2 hlock ‹_›
      · cases h
    · cases h

end System

section Holds

variable {L : Type*} [DecidableEq L] {rank : L → ℕ} {thread thread' : Thread L} {l l' : L}
  {method : RWLock.Call}

/-- How often a thread holds a lock, shared and for writing. -/
def holds (thread : Thread L) (l : L) : ℕ × ℕ :=
  (thread.held.count (l, .shared), thread.held.count (l, .exclusive))

/-- What a thread holds of a lock before a method. -/
def before : RWLock.Call → ℕ × ℕ
  | .readLock => (0, 0)
  | .readUnlock => (1, 0)
  | .writeLock => (0, 0)
  | .writeUnlock => (0, 1)

/-- What it holds after it. -/
def after : RWLock.Call → ℕ × ℕ
  | .readLock => (1, 0)
  | .readUnlock => (0, 0)
  | .writeLock => (0, 1)
  | .writeUnlock => (0, 0)

/-- A lock call and the thread behind it. -/
inductive LockCall : Thread L → L → RWLock.Call → Thread L → Prop
  | acquire (held : List (L × Mode)) (code : List (Op L)) (l : L) (mode : Mode) :
      LockCall ⟨held, .acquire l mode :: code⟩ l (lockMethod mode) ⟨(l, mode) :: held, code⟩
  | release (held : List (L × Mode)) (code : List (Op L)) (l : L) (mode : Mode) :
      LockCall ⟨(l, mode) :: held, .release l :: code⟩ l (unlockMethod mode) ⟨held, code⟩

/-- The next lock call of a thread is one. -/
theorem lockCall_of_next (h : next thread = some (l, method)) :
    LockCall thread l method (advance thread) := by
  unfold next at h
  split at h
  · cases h
    exact .acquire _ _ _ _
  · split at h
    · rename_i heq
      subst heq
      cases h
      exact .release _ _ _ _
    · cases h
  · cases h

omit [DecidableEq L] in
/-- One lock call less is left. -/
theorem LockCall.length (h : LockCall thread l method thread') :
    thread'.code.length + 1 = thread.code.length := by
  cases h <;> rfl

/-- A thread in order: what is left of its code is, and it has taken each lock above those
it held. -/
structure InOrder (rank : L → ℕ) (thread : Thread L) : Prop where
  /-- What is left of the code is in order. -/
  ordered : Ordered rank thread.held thread.code
  /-- The last lock is the highest. -/
  sorted : thread.held.Pairwise fun h h' => rank h'.1 < rank h.1

omit [DecidableEq L] in
/-- A thread stays in order. -/
theorem InOrder.lockCall (inOrder : InOrder rank thread) (h : LockCall thread l method thread') :
    InOrder rank thread' := by
  obtain ⟨hordered, hsorted⟩ := inOrder
  cases h with
  | acquire held code l mode => exact ⟨hordered.2, List.pairwise_cons.mpr ⟨hordered.1, hsorted⟩⟩
  | release held code l mode => exact ⟨hordered.2, (List.pairwise_cons.mp hsorted).2⟩

/-- A lock call is the next one. -/
theorem LockCall.next_eq (h : LockCall thread l method thread') :
    next thread = some (l, method) := by
  cases h with
  | acquire held code l mode => rfl
  | release held code l mode => exact if_pos rfl

omit [DecidableEq L] in
/-- A thread is behind its lock call where it goes on. -/
theorem LockCall.eq_advance (h : LockCall thread l method thread') : thread' = advance thread := by
  cases h <;> rfl

/-- A lock above all that are held is not held. -/
theorem count_of_lt {held : List (L × Mode)} (h : ∀ x ∈ held, rank x.1 < rank l) (mode : Mode) :
    held.count (l, mode) = 0 :=
  List.count_eq_zero.mpr fun hmem => lt_irrefl _ (h _ hmem)

/-- A thread in order holds a lock as the method that comes next finds it and leaves it. -/
theorem InOrder.holds_eq (inOrder : InOrder rank thread) (h : LockCall thread l method thread') :
    holds thread l = before method ∧ holds thread' l = after method := by
  obtain ⟨hordered, hsorted⟩ := inOrder
  cases h with
  | acquire held code l mode =>
    have hzero := count_of_lt hordered.1
    cases mode <;> simp [holds, before, after, lockMethod, hzero]
  | release held code l mode =>
    have hzero := count_of_lt (List.pairwise_cons.mp hsorted).1
    cases mode <;> simp [holds, before, after, unlockMethod, hzero]

/-- The other locks are held as before. -/
theorem LockCall.holds_of_ne (h : LockCall thread l method thread') (hne : l' ≠ l) :
    holds thread' l' = holds thread l' := by
  cases h <;> simp [holds, hne.symm]

/-- Threads that hold a lock equally often have it in the same ways. -/
theorem mem_iff_of_holds_eq (h : holds thread l = holds thread' l) (mode : Mode) :
    (l, mode) ∈ thread.held ↔ (l, mode) ∈ thread'.held := by
  obtain ⟨hshared, hexclusive⟩ := Prod.mk.inj h
  rw [← List.count_pos_iff, ← List.count_pos_iff]
  cases mode
  · rw [hshared]
  · rw [hexclusive]

/-- No lock is held twice. -/
theorem InOrder.holds_le (inOrder : InOrder rank thread) (l : L) :
    (holds thread l).1 ≤ 1 := by
  have hnodup : thread.held.Nodup := by
    refine inOrder.sorted.imp fun hlt heq => ?_
    rw [heq] at hlt
    exact lt_irrefl _ hlt
  exact List.nodup_iff_count_le_one.mp hnodup _

/-- What a thread sees of an `RWLock` in one of its methods. -/
inductive Inside : RWLock.Call → RWLock.Pc × ℕ × ℕ → Prop
  | readLock : Inside .readLock (.readLock, 0, 0)
  | readCas (expected : BitVec 32) : Inside .readLock (.readCas expected, 0, 0)
  | readUnlock : Inside .readUnlock (.readUnlock, 1, 0)
  | writeLock : Inside .writeLock (.writeLock, 0, 0)
  | writeCas : Inside .writeLock (.writeCas, 0, 0)
  | writeFirst : Inside .writeLock (.writeFirst, 0, 1)
  | writeUnlock : Inside .writeUnlock (.writeUnlock, 0, 1)
  | writeDec : Inside .writeUnlock (.writeDec, 0, 1)
  | writeStore : Inside .writeUnlock (.writeStore, 0, 1)

/-- An access leads on in the method or to its end. -/
theorem Inside.advances {v v' : RWLock.Pc × ℕ × ℕ} (hin : Inside method v)
    (h : RWLock.Advances v v') :
    (v'.1 = .idle → v' = (.idle, after method)) ∧ (v'.1 ≠ .idle → Inside method v') := by
  cases hin with
  | readLock =>
    cases h
    exact ⟨by rintro ⟨⟩, fun _ => .readCas _⟩
  | readCas expected =>
    cases h with
    | readLocked => exact ⟨fun _ => rfl, fun hne => (hne rfl).elim⟩
    | readFailed => exact ⟨by rintro ⟨⟩, fun _ => .readLock⟩
  | readUnlock =>
    cases h
    exact ⟨fun _ => rfl, fun hne => (hne rfl).elim⟩
  | writeLock =>
    cases h
    exact ⟨by rintro ⟨⟩, fun _ => .writeCas⟩
  | writeCas =>
    cases h with
    | writeLocked => exact ⟨by rintro ⟨⟩, fun _ => .writeFirst⟩
    | writeFailed => exact ⟨by rintro ⟨⟩, fun _ => .writeCas⟩
  | writeFirst =>
    cases h
    exact ⟨fun _ => rfl, fun hne => (hne rfl).elim⟩
  | writeUnlock =>
    cases h
    exact ⟨by rintro ⟨⟩, fun _ => .writeDec⟩
  | writeDec =>
    cases h
    exact ⟨by rintro ⟨⟩, fun _ => .writeStore⟩
  | writeStore =>
    cases h
    exact ⟨fun _ => rfl, fun hne => (hne rfl).elim⟩

/-- A method begins inside. -/
theorem inside_entry (method : RWLock.Call) : Inside method (method.entry, before method) := by
  cases method
  · exact .readLock
  · exact .readUnlock
  · exact .writeLock
  · exact .writeUnlock

/-- Inside, a thread is not at rest. -/
theorem Inside.busy {v : RWLock.Pc × ℕ × ℕ} (h : Inside method v) : v.1 ≠ .idle := by
  cases h <;> rintro ⟨⟩

/-- The method a thread is in, unless it takes a lock again. -/
def methodOf : RWLock.Pc → Option RWLock.Call
  | .readLock | .readCas _ => some .readLock
  | .readUnlock => some .readUnlock
  | .writeLock | .writeCas | .writeFirst => some .writeLock
  | .writeUnlock | .writeDec | .writeStore => some .writeUnlock
  | .idle | .writeAgain => none

/-- A writer that counts its first hold is at the end of the method. -/
theorem Inside.idle_of_first {v v' : RWLock.Pc × ℕ × ℕ} (hin : Inside method v)
    (h : RWLock.Advances v v') (hpc : v.1 = .writeFirst) : v'.1 = .idle := by
  cases hin with
  | writeFirst =>
    cases h
    rfl
  | _ => cases hpc

/-- Inside, the position says which method it is. -/
theorem Inside.methodOf_eq {v : RWLock.Pc × ℕ × ℕ} (h : Inside method v) :
    methodOf v.1 = some method := by
  cases h <;> rfl

/-- Inside, a thread has one read lock at most. -/
theorem Inside.readHolds_le {v : RWLock.Pc × ℕ × ℕ} (h : Inside method v) : v.2.1 ≤ 1 := by
  cases h with
  | readCas expected => exact Nat.zero_le 1
  | _ => decide

/-- The holds change with the exchange of a writer, else with the end of the method. -/
theorem Inside.holds_eq {v : RWLock.Pc × ℕ × ℕ} (h : Inside method v) :
    (v.1 = .writeFirst → v.2 = after method) ∧ (v.1 ≠ .writeFirst → v.2 = before method) := by
  cases h with
  | writeFirst => exact ⟨fun _ => rfl, fun hne => (hne rfl).elim⟩
  | _ => exact ⟨by rintro ⟨⟩, fun _ => rfl⟩

/-- What a thread sees of an `RWLock` fits what it holds and its next lock call. -/
def Fits (thread : Thread L) (l : L) (v : RWLock.Pc × ℕ × ℕ) : Prop :=
  v = (.idle, holds thread l) ∨ ∃ method, next thread = some (l, method) ∧ Inside method v

/-- A thread that is in no method sees its holds. -/
theorem Fits.eq_of_idle {v : RWLock.Pc × ℕ × ℕ} (h : Fits thread l v) (hpc : v.1 = .idle) :
    v = (.idle, holds thread l) := by
  refine h.resolve_right ?_
  rintro ⟨method, -, hin⟩
  exact hin.busy hpc

/-- A thread is in no method but that of its next lock call. -/
theorem Fits.eq_of_ne {v : RWLock.Pc × ℕ × ℕ} (h : Fits thread l' v)
    (hnext : next thread = some (l, method)) (hne : l' ≠ l) : v = (.idle, holds thread l') := by
  refine h.resolve_right ?_
  rintro ⟨method', hnext', -⟩
  rw [hnext] at hnext'
  cases hnext'
  exact hne rfl

/-- In that method it is inside. -/
theorem Fits.inside {v : RWLock.Pc × ℕ × ℕ} (h : Fits thread l v)
    (hnext : next thread = some (l, method)) (hpc : v.1 ≠ .idle) : Inside method v := by
  rcases h with rfl | ⟨method', hnext', hin⟩
  · exact (hpc rfl).elim
  · rw [hnext] at hnext'
    cases hnext'
    exact hin

end Holds

section Grants

variable {T L F : Type*} [DecidableEq L] {reentrant : L → Bool} {body : F → List (Op L)}
  {threads threads' : T → Thread L} {thread : Thread L} {l : L} {method : RWLock.Call} {t : T}

omit [DecidableEq L] in
/-- The ideal lock grants what a method takes. -/
def Granted (reentrant : L → Bool) (threads : T → Thread L) (t : T) (l : L)
    (method : RWLock.Call) : Prop :=
  (method = .readLock → Grants reentrant threads t l .shared) ∧
    (method = .writeLock → Grants reentrant threads t l .exclusive)

/-- The ideal lock grants by what the threads hold of it. -/
theorem Granted.congr (h : Granted reentrant threads t l method)
    (hholds : ∀ u, holds (threads' u) l = holds (threads u) l) :
    Granted reentrant threads' t l method := by
  have hmem := fun u mode => mem_iff_of_holds_eq (hholds u) mode
  refine ⟨fun hmethod u hu => h.1 hmethod u ((hmem u _).mp hu), fun hmethod => ?_⟩
  refine (h.2 hmethod).imp (fun hfree u => ?_) fun hown => ⟨hown.1, (hmem t _).mpr hown.2⟩
  exact ⟨fun hu => (hfree u).1 ((hmem u _).mp hu), fun hu => (hfree u).2 ((hmem u _).mp hu)⟩

/-- A thread whose lock call the ideal locks grant does it. -/
theorem ideal_step [DecidableEq T] [Fintype T] (h : LockCall (threads t) l method thread)
    (hgranted : Granted reentrant threads t l method) :
    RankedLocks.step reentrant body threads (t, .proceed) =
      some (Function.update threads t thread) := by
  generalize ht : threads t = old at h
  cases h with
  | acquire held code l mode =>
    have hgrants : Grants reentrant threads t l mode := by
      cases mode
      · exact hgranted.1 rfl
      · exact hgranted.2 rfl
    simp only [RankedLocks.step, ht]
    exact if_pos hgrants
  | release held code l mode => simp [RankedLocks.step, ht]

/-- What the ideal locks let a thread do is a lock call that they grant. -/
theorem ideal_step_eq_some [DecidableEq T] [Fintype T]
    (h : RankedLocks.step reentrant body threads (t, .proceed) = some threads') :
    ∃ l method thread, LockCall (threads t) l method thread ∧
      threads' = Function.update threads t thread ∧ Granted reentrant threads t l method := by
  obtain ⟨held, code, ht⟩ : ∃ held code, threads t = ⟨held, code⟩ := ⟨_, _, rfl⟩
  cases RankedLocks.step_moves h with
  | @acquired l mode code' hcode hgrants =>
    rw [ht] at hcode ⊢
    obtain rfl : code = .acquire l mode :: code' := hcode
    refine ⟨l, lockMethod mode, _, .acquire held code' l mode, rfl, ?_⟩
    cases mode
    · exact ⟨fun _ => hgrants, by rintro ⟨⟩⟩
    · exact ⟨by rintro ⟨⟩, fun _ => hgrants⟩
  | @released l mode held' code' hheld hcode =>
    rw [ht] at hheld hcode ⊢
    obtain rfl : held = (l, mode) :: held' := hheld
    obtain rfl : code = .release l :: code' := hcode
    refine ⟨l, unlockMethod mode, _, .release held' code' l mode, rfl, ?_⟩
    cases mode <;> exact ⟨by rintro ⟨⟩, by rintro ⟨⟩⟩

/-- The threads hold an `RWLock` as it has recorded. -/
def Agrees (threads : T → Thread L) (l : L) (lock : RWLock.State T) : Prop :=
  ∀ u, holds (threads u) l = ((lock.threads u).readHolds, (lock.threads u).writeHolds)

/-- A thread has the lock shared. -/
theorem Agrees.shared {lock : RWLock.State T} (h : Agrees threads l lock) (u : T) :
    (l, .shared) ∈ (threads u).held ↔ 0 < (lock.threads u).readHolds := by
  rw [← (Prod.mk.inj (h u)).1]
  exact List.count_pos_iff.symm

/-- A thread has the lock for writing. -/
theorem Agrees.exclusive {lock : RWLock.State T} (h : Agrees threads l lock) (u : T) :
    (l, .exclusive) ∈ (threads u).held ↔ 0 < (lock.threads u).writeHolds := by
  rw [← (Prod.mk.inj (h u)).2]
  exact List.count_pos_iff.symm

variable [Fintype T] {lThreadId : T → BitVec 32} {lock : RWLock.State T}

/-- The `compare_exchange` of `ReadLock` can succeed exactly where the lock is granted. -/
theorem readLock_grants_iff (ids : RWLock.DistinctIds lThreadId)
    (inv : RWLock.Inv lThreadId lock) (h : Agrees threads l lock) :
    lock.lockFlag = lock.lockFlag &&& RWLock.readLockMask ↔
      Grants reentrant threads t l .shared := by
  have hlower : lock.lockFlag = lock.lockFlag &&& RWLock.readLockMask ↔
      lock.lockFlag.toNat ≤ 65535 := by
    rw [← BitVec.toNat_inj, RWLock.toNat_and_readLockMask]
    omega
  rw [hlower]
  constructor
  · intro hle u hu
    have hpos := (h.exclusive u).mp hu
    have hzero := (inv.free_of_lockFlag ids hle).writeHolds_eq u
    omega
  · intro hgrants
    rcases inv.mode with hfree | ⟨u, howned⟩
    · have hlt := inv.readers_lt
      rw [hfree.lockFlag_eq]
      omega
    · exact (hgrants u ((h.exclusive u).mpr howned.pos)).elim

/-- `WriteLock` finds its own id, or its `compare_exchange` can succeed, exactly where the
lock is granted. -/
theorem writeLock_grants_iff (ids : RWLock.DistinctIds lThreadId)
    (inv : RWLock.Inv lThreadId lock) (h : Agrees threads l lock) (hl : reentrant l = true) :
    lock.lockFlag = RWLock.emptyFlag ∨ lThreadId t = RWLock.lockThreadId lock.lockFlag ↔
      Grants reentrant threads t l .exclusive := by
  constructor
  · rintro (hempty | hown)
    · have hflag : lock.lockFlag.toNat = 0 := by rw [hempty]; rfl
      have hfree := inv.free_of_lockFlag ids (by omega)
      refine .inl fun u => ⟨fun hu => ?_, fun hu => ?_⟩
      · have hpos := (h.shared u).mp hu
        have hle : (lock.threads u).readHolds ≤ lock.readers := RWLock.readHolds_le
        rw [hfree.lockFlag_eq] at hflag
        omega
      · have hpos := (h.exclusive u).mp hu
        have hzero := hfree.writeHolds_eq u
        omega
    · exact .inr ⟨hl, (h.exclusive t).mpr (inv.owned_of_lockThreadId ids hown).pos⟩
  · rintro (hfree | ⟨-, hown⟩)
    · refine .inl ?_
      rcases inv.mode with hmode | ⟨u, howned⟩
      · have hzero : lock.readers = 0 := Finset.sum_eq_zero fun u _ =>
          Nat.eq_zero_of_not_pos fun hpos => (hfree u).1 ((h.shared u).mpr hpos)
        rw [← BitVec.toNat_inj, hmode.lockFlag_eq, hzero]
        rfl
      · exact ((hfree u).2 ((h.exclusive u).mpr howned.pos)).elim
    · have howned := inv.owned_of_pos ((h.exclusive t).mp hown)
      exact .inr (howned.lockThreadId_eq ids).symm

end Grants

section Simulation

variable {T L F : Type*} [DecidableEq T] [DecidableEq L] [Fintype T] {lThreadId : T → BitVec 32}
  {reentrant : L → Bool} {body : F → List (Op L)} {rank : L → ℕ} {s s' : State T L} {t u : T}
  {l : L} {method : RWLock.Call} {lock : RWLock.State T}

/-- The threads with the locks they have got: that of a writer that has yet to count its
first hold is one of them. -/
def State.granted (reentrant : L → Bool) (s : State T L) (t : T) : Thread L :=
  match next (s.threads t) with
  | some (l, _) =>
    if reentrant l = true ∧ ((s.locks l).threads t).pc = .writeFirst then advance (s.threads t)
    else s.threads t
  | none => s.threads t

/-- The step of the ideal locks that a step is for. -/
def Action.ideal : Action F → RankedLocks.Action F
  | .call f => .call f
  | _ => .proceed

/-- The invariant of the threads and the locks. -/
structure Inv (lThreadId : T → BitVec 32) (reentrant : L → Bool) (rank : L → ℕ)
    (s : State T L) : Prop where
  /-- The invariant of the locks. -/
  lock : ∀ l, RWLock.Inv lThreadId (s.locks l)
  /-- What the threads see of them fits. -/
  fits : ∀ t l, reentrant l = true → Fits (s.threads t) l ((s.locks l).threads t).view
  /-- The threads are in order. -/
  inOrder : ∀ t, InOrder rank (s.threads t)
  /-- The invariant of the ideal locks. -/
  ideal : RankedLocks.Inv rank (s.granted reentrant)

omit [DecidableEq T] [Fintype T] in
/-- A writer that has yet to count has got its lock. -/
theorem granted_of_first (hnext : next (s.threads t) = some (l, method))
    (hl : reentrant l = true) (hpc : ((s.locks l).threads t).pc = .writeFirst) :
    s.granted reentrant t = advance (s.threads t) := by
  simp only [State.granted, hnext]
  exact if_pos ⟨hl, hpc⟩

omit [DecidableEq T] [Fintype T] in
/-- Other threads have got what they hold. -/
theorem granted_of_not (h : ∀ l method, next (s.threads t) = some (l, method) →
    reentrant l = true → ((s.locks l).threads t).pc ≠ .writeFirst) :
    s.granted reentrant t = s.threads t := by
  rw [State.granted]
  split
  · rename_i l method hnext
    exact if_neg fun hfirst => h l method hnext hfirst.1 hfirst.2
  · rfl

omit [DecidableEq T] [Fintype T] in
/-- A thread that is in no method has got what it holds. -/
theorem granted_of_idle
    (h : ∀ l, reentrant l = true → ((s.locks l).threads t).pc = .idle) :
    s.granted reentrant t = s.threads t := by
  refine granted_of_not fun l method _ hl => ?_
  rw [h l hl]
  rintro ⟨⟩

omit [DecidableEq T] [Fintype T] in
/-- So has a thread that was changed outside the methods. -/
theorem granted_setThreads {threads : T → Thread L}
    (h : ∀ l, reentrant l = true → ((s.locks l).threads t).pc = .idle) :
    (s.setThreads threads).granted reentrant t = threads t :=
  granted_of_idle (s := s.setThreads threads) h

omit [Fintype T] in
/-- An access of a thread leaves the others where they are in every lock. -/
theorem locks_other {a : RWLock.Action}
    (hlock : RWLock.step lThreadId (s.locks l) (t, a) = some lock) (hu : u ≠ t) (l' : L) :
    ((s.setLock l lock).locks l').threads u = (s.locks l').threads u := by
  show (Function.update s.locks l lock l').threads u = _
  by_cases hl' : l' = l
  · rw [hl', Function.update_self]
    exact (RWLock.step_moves hlock).other hu
  · rw [Function.update_of_ne hl']

omit [DecidableEq T] [Fintype T] in
/-- A thread that stays where it is has got the same. -/
theorem granted_congr (hthread : s'.threads u = s.threads u)
    (hlocks : ∀ l, (s'.locks l).threads u = (s.locks l).threads u) :
    s'.granted reentrant u = s.granted reentrant u := by
  simp only [State.granted, hthread, hlocks]

/-- A step of a thread leaves the others where they are. -/
theorem Moves.other {a : Action F} (h : Moves lThreadId reentrant body s t a s') (hu : u ≠ t) :
    s'.threads u = s.threads u ∧ ∀ l, (s'.locks l).threads u = (s.locks l).threads u := by
  cases h with
  | called f ht => exact ⟨Function.update_of_ne hu _ _, fun _ => rfl⟩
  | entered _ _ hlock => exact ⟨rfl, locks_other hlock hu⟩
  | done _ _ hstep =>
    obtain ⟨l, method, thread, -, rfl, -⟩ := ideal_step_eq_some hstep
    exact ⟨Function.update_of_ne hu _ _, fun _ => rfl⟩
  | accessed _ _ _ hlock _ => exact ⟨rfl, locks_other hlock hu⟩
  | returned _ _ _ hlock _ => exact ⟨Function.update_of_ne hu _ _, locks_other hlock hu⟩

/-- It changes what that thread has got. -/
theorem granted_update {a : Action F} (h : Moves lThreadId reentrant body s t a s') :
    s'.granted reentrant =
      Function.update (s.granted reentrant) t (s'.granted reentrant t) := by
  funext u
  by_cases hu : u = t
  · rw [hu, Function.update_self]
  · rw [Function.update_of_ne hu]
    obtain ⟨hthread, hlocks⟩ := h.other hu
    exact granted_congr hthread hlocks

omit [DecidableEq T] [Fintype T] in
/-- A thread has got a lock as often as it holds it, but for the lock that it counts. -/
theorem holds_granted (h : ∀ method, next (s.threads u) = some (l, method) →
    reentrant l = true → ((s.locks l).threads u).pc ≠ .writeFirst) :
    holds (s.granted reentrant u) l = holds (s.threads u) l := by
  by_cases hfirst : ∃ l' method, next (s.threads u) = some (l', method) ∧
      reentrant l' = true ∧ ((s.locks l').threads u).pc = .writeFirst
  · obtain ⟨l', method, hnext, hl', hfirst⟩ := hfirst
    have hne : l ≠ l' := by
      rintro rfl
      exact h method hnext hl' hfirst
    rw [granted_of_first hnext hl' hfirst]
    exact (lockCall_of_next hnext).holds_of_ne hne
  · rw [granted_of_not fun l' method hnext hl' hpc => hfirst ⟨l', method, hnext, hl', hpc⟩]

omit [DecidableEq T] [Fintype T] in
/-- The threads have got an `RWLock` as it has recorded. -/
theorem agrees_granted (fits : ∀ t l, reentrant l = true →
      Fits (s.threads t) l ((s.locks l).threads t).view)
    (inOrder : ∀ t, InOrder rank (s.threads t)) (hl : reentrant l = true) :
    Agrees (s.granted reentrant) l (s.locks l) := by
  intro u
  show _ = ((s.locks l).threads u).view.2
  rcases fits u l hl with hview | ⟨method, hnext, hin⟩
  · have hpc : ((s.locks l).threads u).pc = .idle := congrArg Prod.fst hview
    rw [hview, holds_granted fun _ _ _ => by rw [hpc]; simp]
  · obtain ⟨hbefore, hafter⟩ := (inOrder u).holds_eq (lockCall_of_next hnext)
    by_cases hfirst : ((s.locks l).threads u).pc = .writeFirst
    · rw [granted_of_first hnext hl hfirst, hafter, hin.holds_eq.1 hfirst]
    · rw [holds_granted fun _ _ _ => hfirst, hbefore, hin.holds_eq.2 hfirst]

omit [DecidableEq T] in
/-- So they have in a state with the invariant. -/
theorem Inv.agrees (inv : Inv lThreadId reentrant rank s) (hl : reentrant l = true) :
    Agrees (s.granted reentrant) l (s.locks l) :=
  agrees_granted inv.fits inv.inOrder hl

omit [DecidableEq T] in
/-- No thread has more than one read lock of a lock. -/
theorem Inv.readHolds_le (inv : Inv lThreadId reentrant rank s) (hl : reentrant l = true) (u : T) :
    ((s.locks l).threads u).readHolds ≤ 1 := by
  rcases inv.fits u l hl with hview | ⟨method, -, hin⟩
  · have hholds : ((s.locks l).threads u).readHolds = (holds (s.threads u) l).1 :=
      congrArg (fun v => v.2.1) hview
    rw [hholds]
    exact (inv.inOrder u).holds_le l
  · exact hin.readHolds_le

omit [DecidableEq T] in
/-- A thread that is about to do its lock call sees what the method expects. -/
theorem Inv.view_before (inv : Inv lThreadId reentrant rank s)
    (hnext : next (s.threads t) = some (l, method)) (hl : reentrant l = true)
    (hpc : ((s.locks l).threads t).pc = .idle) :
    ((s.locks l).threads t).view = (.idle, before method) := by
  rw [(inv.fits t l hl).eq_of_idle hpc, ((inv.inOrder t).holds_eq (lockCall_of_next hnext)).1]

/-- A thread that gets its lock, or comes to the end of another method, does what the
ideal lock grants. -/
theorem Inv.granted_of_exchange (ids : RWLock.DistinctIds lThreadId)
    (inv : Inv lThreadId reentrant rank s) (hl : reentrant l = true)
    (hin : Inside method ((s.locks l).threads t).view) {a : RWLock.Action}
    (hlock : RWLock.Moves lThreadId (s.locks l) t a lock)
    (hleft : (lock.threads t).pc = .writeFirst ∨
      (lock.threads t).pc = .idle ∧ ((s.locks l).threads t).pc ≠ .writeFirst) :
    Granted reentrant (s.granted reentrant) t l method := by
  have hagrees := inv.agrees hl
  have allows := ((inv.lock l).sound t).allows
  have hmethod : methodOf ((s.locks l).threads t).pc = some method := hin.methodOf_eq
  cases hlock with
  | readLocked ht =>
    rw [ht] at hmethod allows
    cases hmethod
    refine ⟨fun _ => (readLock_grants_iff ids (inv.lock l) hagrees).mp ?_, by rintro ⟨⟩⟩
    have hle : (s.locks l).lockFlag.toNat ≤ 65535 := allows
    rw [← BitVec.toNat_inj, RWLock.toNat_and_readLockMask]
    omega
  | writeLocked ht hflag =>
    rw [ht] at hmethod
    cases hmethod
    exact ⟨by rintro ⟨⟩, fun _ =>
      (writeLock_grants_iff ids (inv.lock l) hagrees hl).mp (.inl hflag)⟩
  | readUnlocked ht | notOwner ht | innerUnlock ht | released ht =>
    rw [ht] at hmethod
    cases hmethod
    exact ⟨by rintro ⟨⟩, by rintro ⟨⟩⟩
  | called _ ht | lockedAgain ht =>
    rw [ht] at hmethod
    cases hmethod
  | writeFailed spurious ht => simp [ht] at hleft
  | readLoaded ht | readFailed _ _ ht | ownFound ht | otherFound ht | counted ht | unlocking ht
  | lastUnlock ht => simp [RWLock.Thread.goto, ht] at hleft

/-- The thread that moves sees of the locks what fits. -/
theorem fits_moves (ids : RWLock.DistinctIds lThreadId) (inv : Inv lThreadId reentrant rank s)
    {a : Action F} (h : Moves lThreadId reentrant body s t a s') (hl : reentrant l = true) :
    Fits (s'.threads t) l ((s'.locks l).threads t).view := by
  have hfit := inv.fits t l hl
  cases h with
  | called f ht =>
    have hview : ((s.locks l).threads t).view = (.idle, holds (s.threads t) l) := by
      refine hfit.resolve_right ?_
      rintro ⟨method, hnext, -⟩
      rw [ht] at hnext
      cases hnext
    left
    show ((s.locks l).threads t).view = (.idle, holds (Function.update s.threads t _ t) l)
    rw [hview, ht, Function.update_self]
    rfl
  | @entered l' method lock hnext hl' hlock =>
    show Fits (s.threads t) l ((Function.update s.locks l' lock l).threads t).view
    by_cases hne : l = l'
    · subst hne
      have hm := RWLock.step_moves hlock
      have hpc : ((s.locks l).threads t).pc = .idle := by
        cases hm with
        | called _ ht => exact ht
      have hbefore : (((s.locks l).threads t).readHolds, ((s.locks l).threads t).writeHolds) =
          before method := congrArg Prod.snd (inv.view_before hnext hl' hpc)
      refine .inr ⟨method, hnext, ?_⟩
      rw [Function.update_self, RWLock.view_entered hm, hbefore]
      exact inside_entry method
    · rw [Function.update_of_ne hne]
      exact hfit
  | @done l' method threads hnext hl' hstep =>
    obtain ⟨l', method', thread, hcall, rfl, -⟩ := ideal_step_eq_some hstep
    have hne : l ≠ l' := by
      rintro rfl
      rw [hcall.next_eq] at hnext
      cases hnext
      rw [hl] at hl'
      cases hl'
    left
    show ((s.locks l).threads t).view = (.idle, holds (Function.update s.threads t thread t) l)
    rw [hfit.eq_of_ne hcall.next_eq hne, Function.update_self, hcall.holds_of_ne hne]
  | @accessed l' method a lock hnext hl' hin hlock hpc =>
    show Fits (s.threads t) l ((Function.update s.locks l' lock l).threads t).view
    by_cases hne : l = l'
    · subst hne
      rw [Function.update_self]
      have hadvances := (inv.lock l).advances ids (RWLock.step_moves hlock)
      exact .inr ⟨method, hnext, ((hfit.inside hnext hin).advances hadvances).2 hpc⟩
    · rw [Function.update_of_ne hne]
      exact hfit
  | @returned l' method a lock hnext hl' hin hlock hpc =>
    have hcall := lockCall_of_next hnext
    left
    show ((Function.update s.locks l' lock l).threads t).view =
      (.idle, holds (Function.update s.threads t (advance (s.threads t)) t) l)
    rw [Function.update_self]
    by_cases hne : l = l'
    · subst hne
      have hadvances := (inv.lock l).advances ids (RWLock.step_moves hlock)
      rw [Function.update_self, ((hfit.inside hnext hin).advances hadvances).1 hpc,
        ((inv.inOrder t).holds_eq hcall).2]
    · rw [Function.update_of_ne hne, hfit.eq_of_ne hnext hne, hcall.holds_of_ne hne]

omit [DecidableEq T] in
/-- A thread is at rest in the locks that its next lock call is not about. -/
theorem Inv.idle_of_ne (inv : Inv lThreadId reentrant rank s) {l' : L}
    (hnext : next (s.threads t) = some (l, method)) (hl' : reentrant l' = true) (hne : l' ≠ l) :
    ((s.locks l').threads t).pc = .idle :=
  congrArg Prod.fst ((inv.fits t l' hl').eq_of_ne hnext hne)

omit [DecidableEq T] [Fintype T] in
/-- What a thread has got when its next lock call is known. -/
theorem granted_of_next (hnext : next (s.threads t) = some (l, method))
    (hpc : reentrant l = true → ((s.locks l).threads t).pc ≠ .writeFirst) :
    s.granted reentrant t = s.threads t := by
  refine granted_of_not fun l' method' hnext' hl' => ?_
  rw [hnext] at hnext'
  cases hnext'
  exact hpc hl'

/-- A lock call that is granted is a step of the ideal locks, where the thread has got
before it what it holds. -/
theorem granted_step (hnext : next (s.threads t) = some (l, method))
    (hpc : reentrant l = true → ((s.locks l).threads t).pc ≠ .writeFirst)
    (hgranted : Granted reentrant (s.granted reentrant) t l method) :
    RankedLocks.step reentrant body (s.granted reentrant) (t, .proceed) =
      some (Function.update (s.granted reentrant) t (advance (s.threads t))) := by
  refine ideal_step ?_ hgranted
  rw [granted_of_next hnext hpc]
  exact lockCall_of_next hnext

/-- Every step of the threads is one of the ideal locks, or none. -/
theorem granted_moves (ids : RWLock.DistinctIds lThreadId) (inv : Inv lThreadId reentrant rank s)
    {a : Action F} (h : Moves lThreadId reentrant body s t a s') :
    s'.granted reentrant = s.granted reentrant ∨
      RankedLocks.step reentrant body (s.granted reentrant) (t, a.ideal) =
        some (s'.granted reentrant) := by
  have hupdate := granted_update h
  have hstay : s'.granted reentrant t = s.granted reentrant t →
      s'.granted reentrant = s.granted reentrant := by
    intro heq
    rw [hupdate, heq, Function.update_eq_self]
  rw [hupdate]
  cases h with
  | called f ht =>
    have hidle : ∀ l, reentrant l = true → ((s.locks l).threads t).pc = .idle := by
      intro l hl
      rcases inv.fits t l hl with hview | ⟨method, hnext, -⟩
      · exact congrArg Prod.fst hview
      · rw [ht] at hnext
        cases hnext
    have hold : s.granted reentrant t = .idle := (granted_of_idle hidle).trans ht
    right
    rw [granted_setThreads hidle, Function.update_self]
    show RankedLocks.step reentrant body (s.granted reentrant) (t, .call f) = _
    simp only [RankedLocks.step, hold, Thread.idle]
  | @entered l method lock hnext hl hlock =>
    left
    rw [← hupdate]
    refine hstay ?_
    have hm := RWLock.step_moves hlock
    have hpc : ((s.locks l).threads t).pc ≠ .writeFirst := by
      cases hm with
      | called _ ht =>
        rw [ht]
        rintro ⟨⟩
    rw [granted_of_next hnext fun _ => hpc,
      granted_of_next (s := s.setLock l lock) hnext fun _ => ?_]
    · rfl
    · show ((Function.update s.locks l lock l).threads t).view.1 ≠ _
      rw [Function.update_self, RWLock.view_entered hm]
      cases method <;> rintro ⟨⟩
  | @done l method threads hnext hl hstep =>
    right
    obtain ⟨l, method, thread, hcall, rfl, hgranted⟩ := ideal_step_eq_some hstep
    rw [hcall.next_eq] at hnext
    cases hnext
    have hmutex : reentrant l = true → ∀ pc : RWLock.Pc, pc ≠ .writeFirst := by
      rw [hl]
      rintro ⟨⟩
    have hidle : ∀ l', reentrant l' = true → ((s.locks l').threads t).pc = .idle := by
      intro l' hl'
      refine inv.idle_of_ne hcall.next_eq hl' ?_
      rintro rfl
      rw [hl] at hl'
      cases hl'
    rw [granted_setThreads hidle, Function.update_self, hcall.eq_advance]
    exact granted_step hcall.next_eq (fun hl' => hmutex hl' _)
      (hgranted.congr fun u => holds_granted fun _ _ hl' => hmutex hl' _)
  | @accessed l method a lock hnext hl hin hlock hpc =>
    have hm := RWLock.step_moves hlock
    have hinside := (inv.fits t l hl).inside hnext hin
    have hold : ((s.locks l).threads t).pc ≠ .writeFirst := fun hfirst =>
      hpc (hinside.idle_of_first ((inv.lock l).advances ids hm) hfirst)
    have hlock' : (s.setLock l lock).locks l = lock := Function.update_self _ _ _
    by_cases hfirst : (lock.threads t).pc = .writeFirst
    · right
      rw [granted_of_first (s := s.setLock l lock) hnext hl (by rw [hlock']; exact hfirst)]
      exact granted_step hnext (fun _ => hold)
        (inv.granted_of_exchange ids hl hinside hm (.inl hfirst))
    · left
      rw [← hupdate]
      refine hstay ?_
      rw [granted_of_next hnext fun _ => hold, granted_of_next (s := s.setLock l lock) hnext
        fun _ => by rw [hlock']; exact hfirst]
      rfl
  | @returned l method a lock hnext hl hin hlock hpc =>
    have hm := RWLock.step_moves hlock
    have hinside := (inv.fits t l hl).inside hnext hin
    have hidle : ∀ l', reentrant l' = true →
        (((s.setLock l lock).locks l').threads t).pc = .idle := by
      intro l' hl'
      show ((Function.update s.locks l lock l').threads t).pc = .idle
      by_cases hne : l' = l
      · rw [hne, Function.update_self]
        exact hpc
      · rw [Function.update_of_ne hne]
        exact inv.idle_of_ne hnext hl' hne
    have hnew : ((s.setLock l lock).setThreads
        (Function.update s.threads t (advance (s.threads t)))).granted reentrant t =
          advance (s.threads t) := by
      rw [granted_setThreads hidle, Function.update_self]
    by_cases hfirst : ((s.locks l).threads t).pc = .writeFirst
    · left
      rw [← hupdate]
      exact hstay (hnew.trans (granted_of_first hnext hl hfirst).symm)
    · right
      rw [hnew]
      exact granted_step hnext (fun _ => hfirst)
        (inv.granted_of_exchange ids hl hinside hm (.inr ⟨hpc, hfirst⟩))

/-- An access of a lock by a thread in one of its methods keeps the invariant of the lock. -/
theorem lock_access (ids : RWLock.DistinctIds lThreadId) (hcard : Fintype.card T < 65535)
    (inv : Inv lThreadId reentrant rank s) (hnext : next (s.threads t) = some (l, method))
    (hl : reentrant l = true) (hin : ((s.locks l).threads t).pc ≠ .idle) {a : RWLock.Action}
    (hlock : RWLock.step lThreadId (s.locks l) (t, a) = some lock) :
    RWLock.Inv lThreadId lock := by
  have hinside := (inv.fits t l hl).inside hnext hin
  have hcall : ∀ called, a ≠ .call called := by
    rintro called rfl
    cases RWLock.step_moves hlock with
    | called _ ht => exact hin ht
  refine RWLock.inv_access ids hcard (inv.lock l) (inv.readHolds_le hl)
    (fun ha => (hcall _ ha).elim) (fun ha => (hcall _ ha).elim) (fun v hv => ?_) hlock
  obtain ⟨hidle, hbusy⟩ := hinside.advances hv
  by_cases hpc : v.1 = .idle
  · rw [hidle hpc]
    cases method <;> decide
  · exact (hbusy hpc).readHolds_le

/-- Every step keeps the invariant of the locks. -/
theorem lock_moves (ids : RWLock.DistinctIds lThreadId) (hcard : Fintype.card T < 65535)
    (inv : Inv lThreadId reentrant rank s) {a : Action F}
    (h : Moves lThreadId reentrant body s t a s') (l : L) : RWLock.Inv lThreadId (s'.locks l) := by
  have hset : ∀ l' lock, RWLock.Inv lThreadId lock →
      RWLock.Inv lThreadId ((s.setLock l' lock).locks l) := by
    intro l' lock hlock
    show RWLock.Inv lThreadId (Function.update s.locks l' lock l)
    by_cases hl' : l = l'
    · rw [hl', Function.update_self]
      exact hlock
    · rw [Function.update_of_ne hl']
      exact inv.lock l
  cases h with
  | called f ht => exact inv.lock l
  | @entered l' method lock hnext hl hlock =>
    have hpc : ((s.locks l').threads t).pc = .idle := by
      cases RWLock.step_moves hlock with
      | called _ ht => exact ht
    have hbefore : (((s.locks l').threads t).readHolds, ((s.locks l').threads t).writeHolds) =
        before method := congrArg Prod.snd (inv.view_before hnext hl hpc)
    obtain ⟨hread, hwrite⟩ := Prod.mk.inj hbefore
    refine hset l' lock
      (RWLock.inv_entered ids hcard (inv.lock l') (inv.readHolds_le hl) ?_ ?_ hlock)
    · rintro rfl
      rw [hread]
      exact Nat.one_pos
    · rintro rfl
      rw [hwrite]
      exact Nat.one_pos
  | done _ _ _ => exact inv.lock l
  | accessed hnext hl hin hlock _ => exact hset _ _ (lock_access ids hcard inv hnext hl hin hlock)
  | returned hnext hl hin hlock _ => exact hset _ _ (lock_access ids hcard inv hnext hl hin hlock)

/-- A call begins code that is in order. -/
def OrderedCall (rank : L → ℕ) (body : F → List (Op L)) (_ : State T L) : T × Action F → Prop
  | (_, .call f) => Ordered rank [] (body f)
  | _ => True

/-- The threads stay in order. -/
theorem inOrder_moves (inv : Inv lThreadId reentrant rank s) {a : Action F}
    (ok : OrderedCall rank body s (t, a)) (h : Moves lThreadId reentrant body s t a s') (u : T) :
    InOrder rank (s'.threads u) := by
  have hset : ∀ thread, InOrder rank thread →
      InOrder rank (Function.update s.threads t thread u) := by
    intro thread hthread
    by_cases hu : u = t
    · rw [hu, Function.update_self]
      exact hthread
    · rw [Function.update_of_ne hu]
      exact inv.inOrder u
  cases h with
  | called f ht => exact hset _ ⟨ok, .nil⟩
  | entered _ _ _ => exact inv.inOrder u
  | done _ _ hstep =>
    obtain ⟨l, method, thread, hcall, rfl, -⟩ := ideal_step_eq_some hstep
    exact hset _ ((inv.inOrder t).lockCall hcall)
  | accessed _ _ _ _ _ => exact inv.inOrder u
  | returned hnext _ _ _ _ => exact hset _ ((inv.inOrder t).lockCall (lockCall_of_next hnext))

/-- Every step keeps the invariant. -/
theorem inv_step (ids : RWLock.DistinctIds lThreadId) (hcard : Fintype.card T < 65535)
    (inv : Inv lThreadId reentrant rank s) {a : T × Action F} (ok : OrderedCall rank body s a)
    (h : step lThreadId reentrant body s a = some s') : Inv lThreadId reentrant rank s' := by
  obtain ⟨t, a⟩ := a
  have hm := step_moves h
  refine ⟨lock_moves ids hcard inv hm, fun u l hl => ?_, inOrder_moves inv ok hm, ?_⟩
  · by_cases hu : u = t
    · rw [hu]
      exact fits_moves ids inv hm hl
    · obtain ⟨hthread, hlocks⟩ := hm.other hu
      rw [hthread, hlocks l]
      exact inv.fits u l hl
  · rcases granted_moves ids inv hm with hsame | hstep
    · rw [hsame]
      exact inv.ideal
    · refine RankedLocks.inv_step inv.ideal ?_ hstep
      cases a with
      | call f => exact ok
      | proceed => trivial
      | access a => trivial

omit [DecidableEq T] in
theorem inv_init : Inv lThreadId reentrant rank (init : State T L) where
  lock _ := RWLock.inv_init
  fits _ _ _ := .inl rfl
  inOrder _ := ⟨rfl, .nil⟩
  ideal := RankedLocks.inv_init

end Simulation

section Progress

variable {T L F : Type*} [DecidableEq T] [DecidableEq L] [Fintype T] {lThreadId : T → BitVec 32}
  {reentrant : L → Bool} {body : F → List (Op L)} {rank : L → ℕ} {s s' : State T L} {t u : T}
  {l : L} {method : RWLock.Call} {lock : RWLock.State T}

/-- The accesses that are left in a method for a thread that is left alone. -/
def left (lockFlag : BitVec 32) : RWLock.Pc → ℕ
  | .idle => 5
  | .readLock => 2
  | .readCas expected => if lockFlag = expected then 1 else 3
  | .writeLock => 3
  | .writeCas => 2
  | .writeUnlock => 3
  | .writeDec => 2
  | .readUnlock | .writeAgain | .writeFirst | .writeStore => 1

omit [DecidableEq T] [Fintype T] in
/-- A method that takes a lock finds it free, or has got it. -/
structure Passes (method : RWLock.Call) (lock : RWLock.State T) (t : T) : Prop where
  /-- No writer is in the flag. -/
  read : method = .readLock → lock.lockFlag = lock.lockFlag &&& RWLock.readLockMask
  /-- Nobody is in the flag. -/
  write : method = .writeLock →
    lock.lockFlag = RWLock.emptyFlag ∨ (lock.threads t).pc = .writeFirst

/-- An access of the thread leads to the end of its method, or on with fewer accesses left. -/
def Nears (lThreadId : T → BitVec 32) (method : RWLock.Call) (lock : RWLock.State T) (t : T) :
    Prop :=
  ∃ a lock', RWLock.step lThreadId lock (t, a) = some lock' ∧
    ((lock'.threads t).pc = .idle ∨ Passes method lock' t ∧
      left lock'.lockFlag (lock'.threads t).pc < left lock.lockFlag (lock.threads t).pc)

omit [Fintype T] in
/-- An access that is the last one of the method. -/
theorem Nears.ends {a : RWLock.Action} {lock' : RWLock.State T} {thread : RWLock.Thread}
    (hstep : RWLock.step lThreadId lock (t, a) = some lock')
    (hthreads : lock'.threads = (lock.set t thread).threads) (hidle : thread.pc = .idle) :
    Nears lThreadId method lock t := by
  refine ⟨a, lock', hstep, .inl ?_⟩
  rw [hthreads, RWLock.set_self]
  exact hidle

omit [Fintype T] in
/-- An access behind which others are left. -/
theorem Nears.leads {a : RWLock.Action} {lock' : RWLock.State T} {thread : RWLock.Thread}
    {pc : RWLock.Pc} (hstep : RWLock.step lThreadId lock (t, a) = some lock')
    (hthreads : lock'.threads = (lock.set t thread).threads)
    (hpc : (lock.threads t).pc = pc) (hpass : Passes method lock' t)
    (hlt : left lock'.lockFlag thread.pc < left lock.lockFlag pc) :
    Nears lThreadId method lock t := by
  refine ⟨a, lock', hstep, .inr ⟨hpass, ?_⟩⟩
  rw [hthreads, RWLock.set_self, hpc]
  exact hlt

omit [Fintype T] in
/-- A reader that finds no writer gets on. -/
theorem nears_readLock (hin : Inside .readLock (lock.threads t).view)
    (hpass : Passes .readLock lock t) : Nears lThreadId .readLock lock t := by
  have hflag := hpass.read rfl
  generalize hv : (lock.threads t).view = v at hin
  cases hin with
  | readLock =>
    have hpc : (lock.threads t).pc = .readLock := congrArg Prod.fst hv
    have hstep : RWLock.step lThreadId lock (t, .load) = some (lock.set t
        ((lock.threads t).goto (.readCas (lock.lockFlag &&& RWLock.readLockMask)))) := by
      simp only [RWLock.step, hpc]
    refine .leads hstep rfl hpc ⟨hpass.read, by rintro ⟨⟩⟩ ?_
    show (if lock.lockFlag = _ then 1 else 3) < 2
    rw [if_pos hflag]
    decide
  | readCas expected =>
    have hpc : (lock.threads t).pc = .readCas expected := congrArg Prod.fst hv
    by_cases heq : lock.lockFlag = expected
    · have hstep : RWLock.step lThreadId lock (t, .cas false) =
          some { (lock.set t (lock.threads t).readLocked) with lockFlag := expected + 1 } := by
        simp only [RWLock.step, hpc]
        exact if_pos ⟨heq, trivial⟩
      exact .ends hstep rfl rfl
    · have hstep : RWLock.step lThreadId lock (t, .cas false) =
          some (lock.set t ((lock.threads t).goto .readLock)) := by
        simp only [RWLock.step, hpc]
        exact if_neg fun h => heq h.1
      refine .leads hstep rfl hpc ⟨hpass.read, by rintro ⟨⟩⟩ ?_
      show 2 < if lock.lockFlag = _ then 1 else 3
      rw [if_neg heq]
      decide

omit [Fintype T] in
/-- A reader that leaves needs one access. -/
theorem nears_readUnlock (hin : Inside .readUnlock (lock.threads t).view) :
    Nears lThreadId .readUnlock lock t := by
  generalize hv : (lock.threads t).view = v at hin
  cases hin with
  | readUnlock =>
    have hpc : (lock.threads t).pc = .readUnlock := congrArg Prod.fst hv
    have hstep : ∃ lock', RWLock.step lThreadId lock (t, .fetchSub) = some lock' ∧
        lock'.threads = (lock.set t (lock.threads t).readUnlocked).threads := by
      simp only [RWLock.step, hpc]
      exact ⟨_, rfl, rfl⟩
    obtain ⟨lock', hstep, hthreads⟩ := hstep
    exact .ends hstep hthreads rfl

/-- A writer that finds nobody gets on. -/
theorem nears_writeLock (ids : RWLock.DistinctIds lThreadId) (inv : RWLock.Inv lThreadId lock)
    (hin : Inside .writeLock (lock.threads t).view) (hpass : Passes .writeLock lock t) :
    Nears lThreadId .writeLock lock t := by
  generalize hv : (lock.threads t).view = v at hin
  cases hin with
  | writeLock =>
    have hpc : (lock.threads t).pc = .writeLock := congrArg Prod.fst hv
    have hzero : (lock.threads t).writeHolds = 0 := congrArg (fun v => v.2.2) hv
    have hother : lThreadId t ≠ RWLock.lockThreadId lock.lockFlag := by
      intro hid
      have hpos := (inv.owned_of_lockThreadId ids hid).pos
      omega
    have hstep : RWLock.step lThreadId lock (t, .load) =
        some (lock.set t ((lock.threads t).goto .writeCas)) := by
      simp only [RWLock.step, hpc]
      exact if_neg hother
    have hempty : lock.lockFlag = RWLock.emptyFlag :=
      (hpass.write rfl).resolve_right (by rw [hpc]; rintro ⟨⟩)
    exact .leads hstep rfl hpc ⟨by rintro ⟨⟩, fun _ => .inl hempty⟩ (Nat.lt_succ_self 2)
  | writeCas =>
    have hpc : (lock.threads t).pc = .writeCas := congrArg Prod.fst hv
    have hempty : lock.lockFlag = RWLock.emptyFlag :=
      (hpass.write rfl).resolve_right (by rw [hpc]; rintro ⟨⟩)
    have hstep : RWLock.step lThreadId lock (t, .cas false) =
        some { (lock.set t ((lock.threads t).writeLocked .writeFirst)) with
          lockFlag := RWLock.desired (lThreadId t) } := by
      simp only [RWLock.step, hpc]
      exact if_pos ⟨hempty, trivial⟩
    have hfirst : ((lock.set t ((lock.threads t).writeLocked .writeFirst)).threads t).pc =
        .writeFirst := by
      rw [RWLock.set_self]
      rfl
    exact .leads hstep rfl hpc ⟨by rintro ⟨⟩, fun _ => .inr hfirst⟩ (Nat.lt_succ_self 1)
  | writeFirst =>
    have hpc : (lock.threads t).pc = .writeFirst := congrArg Prod.fst hv
    have hstep : RWLock.step lThreadId lock (t, .increment) =
        some { (lock.set t ((lock.threads t).goto .idle)) with
          writeCnt := lock.writeCnt + 1 } := by
      simp only [RWLock.step, hpc]
    exact .ends hstep rfl rfl

/-- A writer that leaves finds its own id in the flag. -/
theorem nears_writeUnlock (ids : RWLock.DistinctIds lThreadId) (inv : RWLock.Inv lThreadId lock)
    (hin : Inside .writeUnlock (lock.threads t).view) : Nears lThreadId .writeUnlock lock t := by
  have hown : 0 < (lock.threads t).writeHolds → RWLock.OwnedBy lThreadId lock t :=
    inv.owned_of_pos
  have hpass : ∀ lock', Passes .writeUnlock lock' t := fun lock' =>
    ⟨by rintro ⟨⟩, by rintro ⟨⟩⟩
  generalize hv : (lock.threads t).view = v at hin
  cases hin with
  | writeUnlock =>
    have hpc : (lock.threads t).pc = .writeUnlock := congrArg Prod.fst hv
    have hone : (lock.threads t).writeHolds = 1 := congrArg (fun v => v.2.2) hv
    have hid := (hown (by omega)).lockThreadId_eq ids
    have hstep : RWLock.step lThreadId lock (t, .load) =
        some (lock.set t ((lock.threads t).goto .writeDec)) := by
      simp only [RWLock.step, hpc]
      exact if_pos hid
    exact .leads hstep rfl hpc (hpass _) (Nat.lt_succ_self 2)
  | writeDec =>
    have hpc : (lock.threads t).pc = .writeDec := congrArg Prod.fst hv
    have hone : (lock.threads t).writeHolds = 1 := congrArg (fun v => v.2.2) hv
    have hcnt := (hown (by omega)).writeCnt_eq
    rw [hpc, hone] at hcnt
    simp only [RWLock.Pc.pending] at hcnt
    have hstep : RWLock.step lThreadId lock (t, .decrement) =
        some { (lock.set t ((lock.threads t).goto .writeStore)) with
          writeCnt := lock.writeCnt - 1 } := by
      simp only [RWLock.step, hpc]
      exact if_pos (by omega)
    exact .leads hstep rfl hpc (hpass _) (Nat.lt_succ_self 1)
  | writeStore =>
    have hpc : (lock.threads t).pc = .writeStore := congrArg Prod.fst hv
    have hstep : RWLock.step lThreadId lock (t, .store) =
        some { (lock.set t (lock.threads t).writeUnlocked) with
          lockFlag := RWLock.emptyFlag } := by
      simp only [RWLock.step, hpc]
    exact .ends hstep rfl rfl

/-- A thread inside a method that passes gets on with its next access. -/
theorem nears_of_inside (ids : RWLock.DistinctIds lThreadId) (inv : RWLock.Inv lThreadId lock)
    (hin : Inside method (lock.threads t).view) (hpass : Passes method lock t) :
    Nears lThreadId method lock t := by
  cases method with
  | readLock => exact nears_readLock hin hpass
  | readUnlock => exact nears_readUnlock hin
  | writeLock => exact nears_writeLock ids inv hin hpass
  | writeUnlock => exact nears_writeUnlock ids inv hin

/-- The thread, left alone, gets to the end of its next lock call. -/
def Completes (lThreadId : T → BitVec 32) (reentrant : L → Bool) (body : F → List (Op L))
    (s : State T L) (t : T) : Prop :=
  ∃ as s', (∀ a ∈ as, a.1 = t ∧ a.2.begins = false) ∧
    run (step lThreadId reentrant body) s as = some s' ∧ next (s.threads t) ≠ none ∧
      s'.threads = Function.update s.threads t (advance (s.threads t))

/-- A step of the thread that ends no lock call may come before. -/
theorem Completes.cons {a : Action F} (ha : a.begins = false)
    (hs : step lThreadId reentrant body s (t, a) = some s') (hthreads : s'.threads = s.threads)
    (h : Completes lThreadId reentrant body s' t) : Completes lThreadId reentrant body s t := by
  obtain ⟨as, s'', has, hr, hnext, hend⟩ := h
  rw [hthreads] at hnext hend
  refine ⟨(t, a) :: as, s'', ?_, run_cons_eq_some.mpr ⟨s', hs, hr⟩, hnext, hend⟩
  rintro b (_ | ⟨_, hb⟩)
  · exact ⟨rfl, ha⟩
  · exact has b hb

/-- A thread inside a method that passes gets to its end. -/
theorem completes_inside (ids : RWLock.DistinctIds lThreadId) (hcard : Fintype.card T < 65535)
    (inv : Inv lThreadId reentrant rank s) (hnext : next (s.threads t) = some (l, method))
    (hl : reentrant l = true) (hin : ((s.locks l).threads t).pc ≠ .idle)
    (hpass : Passes method (s.locks l) t) : Completes lThreadId reentrant body s t := by
  induction hleft : left (s.locks l).lockFlag ((s.locks l).threads t).pc using
    Nat.strong_induction_on generalizing s with
  | h n ih =>
    obtain ⟨a, lock, hstep, hout⟩ :=
      nears_of_inside ids (inv.lock l) ((inv.fits t l hl).inside hnext hin) hpass
    have haccess : step lThreadId reentrant body s (t, .access a) = some (s.accessed t l lock) := by
      simp only [step, hnext]
      rw [if_pos ⟨hl, hin⟩, hstep]
      rfl
    by_cases hpc : (lock.threads t).pc = .idle
    · refine ⟨[(t, .access a)], _, by simp [Action.begins], run_cons_eq_some.mpr ⟨_, haccess, rfl⟩,
        by rw [hnext]; simp, ?_⟩
      rw [State.accessed, if_pos hpc]
      rfl
    · obtain ⟨hpass', hlt⟩ := hout.resolve_left hpc
      have heq : s.accessed t l lock = s.setLock l lock := if_neg hpc
      rw [heq] at haccess
      have hlock : (s.setLock l lock).locks l = lock := Function.update_self _ _ _
      refine Completes.cons rfl haccess rfl (ih _ (hleft ▸ hlt)
        (inv_step ids hcard inv (by trivial) haccess) hnext ?_ ?_ ?_)
      · rw [hlock]
        exact hpc
      · rw [hlock]
        exact hpass'
      · rw [hlock]

omit [DecidableEq T] in
/-- A writer that has yet to count is in `WriteLock`. -/
theorem Inv.method_of_first (inv : Inv lThreadId reentrant rank s)
    (hnext : next (s.threads t) = some (l, method)) (hl : reentrant l = true)
    (hfirst : ((s.locks l).threads t).pc = .writeFirst) : method = .writeLock := by
  have hin := (inv.fits t l hl).inside hnext (by
    show ((s.locks l).threads t).pc ≠ _
    rw [hfirst]
    rintro ⟨⟩)
  have hmethod : methodOf ((s.locks l).threads t).pc = some method := hin.methodOf_eq
  rw [hfirst] at hmethod
  exact (Option.some.inj hmethod).symm

omit [DecidableEq T] in
/-- A lock that is granted lets the method pass. -/
theorem Inv.passes (ids : RWLock.DistinctIds lThreadId) (inv : Inv lThreadId reentrant rank s)
    (hnext : next (s.threads t) = some (l, method)) (hl : reentrant l = true)
    (hpc : ((s.locks l).threads t).pc ≠ .writeFirst)
    (hgranted : Granted reentrant (s.granted reentrant) t l method) :
    Passes method (s.locks l) t := by
  have hagrees := inv.agrees hl
  refine ⟨fun hmethod => (readLock_grants_iff ids (inv.lock l) hagrees).mpr (hgranted.1 hmethod),
    fun hmethod => ?_⟩
  rcases (writeLock_grants_iff ids (inv.lock l) hagrees hl).mpr (hgranted.2 hmethod) with
    hempty | hown
  · exact .inl hempty
  · have hpos := ((inv.lock l).owned_of_lockThreadId ids hown).pos
    have hzero := (Prod.mk.inj (hagrees t)).2
    have hbefore := ((inv.inOrder t).holds_eq (lockCall_of_next hnext)).1
    rw [hmethod] at hbefore
    rw [granted_of_next hnext fun _ => hpc, (Prod.mk.inj hbefore).2] at hzero
    omega

/-- A thread that the ideal locks let go on completes its lock call. -/
theorem completes_of_ideal (ids : RWLock.DistinctIds lThreadId) (hcard : Fintype.card T < 65535)
    (inv : Inv lThreadId reentrant rank s) {threads : T → Thread L}
    (h : RankedLocks.step reentrant body (s.granted reentrant) (t, .proceed) = some threads) :
    Completes lThreadId reentrant body s t := by
  by_cases hfirst : ∃ l method, next (s.threads t) = some (l, method) ∧ reentrant l = true ∧
      ((s.locks l).threads t).pc = .writeFirst
  · obtain ⟨l, method, hnext, hl, hpc⟩ := hfirst
    obtain rfl := inv.method_of_first hnext hl hpc
    exact completes_inside ids hcard inv hnext hl (by rw [hpc]; rintro ⟨⟩)
      ⟨by rintro ⟨⟩, fun _ => .inr hpc⟩
  · have hold : s.granted reentrant t = s.threads t :=
      granted_of_not fun l method hnext hl hpc => hfirst ⟨l, method, hnext, hl, hpc⟩
    obtain ⟨l, method, thread, hcall, -, hgranted⟩ := ideal_step_eq_some h
    rw [hold] at hcall
    have hnext := hcall.next_eq
    cases hl : reentrant l with
    | false =>
      have hmutex : reentrant l = true → ∀ pc : RWLock.Pc, pc ≠ .writeFirst := by
        rw [hl]
        rintro ⟨⟩
      have hstep : RankedLocks.step reentrant body s.threads (t, .proceed) =
          some (Function.update s.threads t thread) :=
        ideal_step hcall (hgranted.congr fun u =>
          (holds_granted fun _ _ hl' => hmutex hl' _).symm)
      refine ⟨[(t, .proceed)], s.setThreads (Function.update s.threads t thread),
        by simp [Action.begins], run_cons_eq_some.mpr ⟨_, ?_, rfl⟩, by rw [hnext]; simp, ?_⟩
      · simp only [step, hnext]
        rw [if_neg (by rw [hl]; simp), hstep]
        rfl
      · rw [hcall.eq_advance]
        rfl
    | true =>
      have hpc : ((s.locks l).threads t).pc ≠ .writeFirst := fun hpc =>
        hfirst ⟨l, method, hnext, hl, hpc⟩
      have hpass := inv.passes ids hnext hl hpc hgranted
      by_cases hidle : ((s.locks l).threads t).pc = .idle
      · have hlock : RWLock.step lThreadId (s.locks l) (t, .call method) = some
            ((s.locks l).set t (((s.locks l).threads t).goto method.entry)) := by
          simp only [RWLock.step, hidle]
        have hstep : step lThreadId reentrant body s (t, .proceed) = some (s.setLock l
            ((s.locks l).set t (((s.locks l).threads t).goto method.entry))) := by
          simp only [step, hnext]
          rw [if_pos hl, hlock]
          rfl
        refine Completes.cons rfl hstep rfl (completes_inside ids hcard
          (inv_step ids hcard inv (by trivial) hstep) hnext hl ?_ ?_)
        · show ((Function.update s.locks l _ l).threads t).pc ≠ _
          rw [Function.update_self, RWLock.set_self]
          cases method <;> rintro ⟨⟩
        · show Passes method (Function.update s.locks l _ l) t
          rw [Function.update_self]
          exact ⟨hpass.read, fun hmethod => .inl ((hpass.write hmethod).resolve_right hpc)⟩
      · exact completes_inside ids hcard inv hnext hl hidle hpass

omit [DecidableEq T] [DecidableEq L] [Fintype T] in
/-- A thread in order that has come to the end of its code holds nothing. -/
theorem InOrder.idle_of_code {thread : Thread L} (inOrder : InOrder rank thread)
    (hcode : thread.code = []) : thread = .idle := by
  obtain ⟨held, code⟩ := thread
  obtain rfl : code = [] := hcode
  obtain rfl : held = [] := inOrder.ordered
  rfl

omit [DecidableEq T] in
/-- A thread that is in some code is so for the ideal locks. -/
theorem Inv.granted_busy (inv : Inv lThreadId reentrant rank s) (ht : s.threads t ≠ .idle) :
    (s.granted reentrant t).code ≠ [] := by
  intro hcode
  have hidle := inv.ideal.idle_of_code hcode
  by_cases hfirst : ∃ l method, next (s.threads t) = some (l, method) ∧ reentrant l = true ∧
      ((s.locks l).threads t).pc = .writeFirst
  · obtain ⟨l, method, hnext, hl, hpc⟩ := hfirst
    obtain rfl := inv.method_of_first hnext hl hpc
    have hafter := ((inv.inOrder t).holds_eq (lockCall_of_next hnext)).2
    rw [← granted_of_first hnext hl hpc, hidle] at hafter
    cases hafter
  · rw [granted_of_not fun l method hnext hl hpc => hfirst ⟨l, method, hnext, hl, hpc⟩] at hidle
    exact ht hidle

omit [DecidableEq T] in
/-- What a thread holds it has got. -/
theorem Inv.mem_granted (inv : Inv lThreadId reentrant rank s) {x : L × Mode}
    (hx : x ∈ (s.threads t).held) : x ∈ (s.granted reentrant t).held := by
  by_cases hfirst : ∃ l method, next (s.threads t) = some (l, method) ∧ reentrant l = true ∧
      ((s.locks l).threads t).pc = .writeFirst
  · obtain ⟨l, method, hnext, hl, hpc⟩ := hfirst
    obtain rfl := inv.method_of_first hnext hl hpc
    rw [granted_of_first hnext hl hpc]
    have hcall := lockCall_of_next hnext
    generalize hadvance : advance (s.threads t) = thread' at hcall
    generalize hmethod : RWLock.Call.writeLock = method at hcall
    generalize s.threads t = thread at hcall hx
    cases hcall with
    | acquire held code l mode => exact List.mem_cons_of_mem _ hx
    | release held code l mode => cases mode <;> cases hmethod
  · rwa [granted_of_not fun l method hnext hl hpc => hfirst ⟨l, method, hnext, hl, hpc⟩]

/-- A system whose threads cannot block each other for good. -/
structure Live (lThreadId : T → BitVec 32) (reentrant : L → Bool) (body : F → List (Op L))
    (s : State T L) : Prop where
  /-- While a thread is in some code, there is one that gets to the end of its lock call. -/
  completes : (∃ t, s.threads t ≠ .idle) → ∃ t, Completes lThreadId reentrant body s t
  /-- Nobody holds what another one writes. -/
  exclusive : ∀ t u l mode, (l, .exclusive) ∈ (s.threads t).held →
    (l, mode) ∈ (s.threads u).held → t = u

/-- Where every call is in order, the system is live. -/
theorem Inv.live (ids : RWLock.DistinctIds lThreadId) (hcard : Fintype.card T < 65535)
    (inv : Inv lThreadId reentrant rank s) : Live lThreadId reentrant body s where
  completes := by
    rintro ⟨t, ht⟩
    obtain ⟨u, threads, hstep⟩ : ∃ u threads,
        RankedLocks.step reentrant body (s.granted reentrant) (u, .proceed) = some threads :=
      exists_proceed inv.ideal ⟨t, inv.granted_busy ht⟩
    exact ⟨u, completes_of_ideal ids hcard inv hstep⟩
  exclusive t u l mode ht hu :=
    inv.ideal.exclusive t u l mode (inv.mem_granted ht) (inv.mem_granted hu)

/-- The threads can all come to the end of the code they are in. -/
def CanFinish (lThreadId : T → BitVec 32) (reentrant : L → Bool) (body : F → List (Op L))
    (s : State T L) : Prop :=
  ∃ as s', (∀ a ∈ as, a.2.begins = false) ∧
    run (step lThreadId reentrant body) s as = some s' ∧ ∀ t, s'.threads t = .idle

/-- Steps that begin nothing meet every condition on calls. -/
theorem stepsMeet_goOn {as : List (T × Action F)} (has : ∀ a ∈ as, a.2.begins = false) :
    StepsMeet (step lThreadId reentrant body) (OrderedCall rank body) s as := by
  refine stepsMeet_of_forall fun a ha m => ?_
  obtain ⟨t, a⟩ := a
  cases a with
  | call f => cases has _ ha
  | proceed => trivial
  | access a => trivial

/-- The lock calls that are left of the code the threads are in. -/
def remaining (s : State T L) : ℕ := ∑ t, (s.threads t).code.length

/-- A thread that gets to the end of a lock call leaves one less. -/
theorem remaining_completes {l : L} (hnext : next (s.threads t) = some (l, method))
    (h : s'.threads = Function.update s.threads t (advance (s.threads t))) :
    remaining s' + 1 = remaining s := by
  have hlength := (lockCall_of_next hnext).length
  have hsum := ThreadSum.sum_update (fun thread : Thread L => thread.code.length) s.threads t
    (advance (s.threads t))
  rw [remaining, remaining, h]
  omega

/-- Where every call is in order, they can. -/
theorem Inv.canFinish (ids : RWLock.DistinctIds lThreadId) (hcard : Fintype.card T < 65535)
    (inv : Inv lThreadId reentrant rank s) : CanFinish lThreadId reentrant body s := by
  induction hleft : remaining s using Nat.strong_induction_on generalizing s with
  | h n ih =>
    by_cases hbusy : ∃ t, s.threads t ≠ .idle
    · have hlive : Live lThreadId reentrant body s := inv.live ids hcard
      obtain ⟨t, as, m, has, hm, hnext, hthreads⟩ := hlive.completes hbusy
      obtain ⟨⟨l, method⟩, hnext⟩ := Option.ne_none_iff_exists'.mp hnext
      have hgo : ∀ a ∈ as, a.2.begins = false := fun a ha => (has a ha).2
      have invm : Inv lThreadId reentrant rank m :=
        run_preserves (fun _ _ _ inv ok hs => inv_step ids hcard inv ok hs) inv
          (stepsMeet_goOn hgo) hm
      have hone := remaining_completes hnext hthreads
      obtain ⟨bs, s', hbs, hr, hidle⟩ := ih _ (by omega) invm rfl
      refine ⟨as ++ bs, s', fun a ha => ?_, run_append_eq_some.mpr ⟨m, hm, hr⟩, hidle⟩
      exact (List.mem_append.mp ha).elim (hgo a) (hbs a)
    · exact ⟨[], s, by simp, rfl, fun t => not_not.mp (not_exists.mp hbusy t)⟩

end Progress

section Doom

variable {T L F : Type*} [DecidableEq T] [DecidableEq L] [Fintype T] {lThreadId : T → BitVec 32}
  {reentrant : L → Bool} {body : F → List (Op L)} {s s' : State T L} {t : T}

omit [DecidableEq L] in
/-- A call of an `RWLock` does not get a thread out that will take a `mutex` twice. -/
theorem doomed_lockCall {thread thread' : Thread L} {l : L} {method : RWLock.Call}
    (h : Doomed reentrant thread) (hcall : LockCall thread l method thread')
    (hl : reentrant l = true) : Doomed reentrant thread' := by
  obtain ⟨l', hl'⟩ := h
  have hne : reentrant l' = false → l' ≠ l := by
    rintro hmutex rfl
    rw [hmutex] at hl
    cases hl
  cases hcall with
  | acquire held code l mode =>
    rcases hl' with ⟨hheld, htwice⟩ | ⟨code', hcode, htwice⟩
    · have hmutex := hne htwice.1
      rcases htwice.tail with ⟨mode', heq⟩ | ⟨-, hrest⟩
      · cases heq
        exact (hmutex rfl).elim
      · exact ⟨l', .inl ⟨List.mem_cons_of_mem _ hheld, hrest⟩⟩
    · cases hcode
      exact (hne htwice.1 rfl).elim
  | release held code l mode =>
    rcases hl' with ⟨hheld, htwice⟩ | ⟨code', hcode, htwice⟩
    · have hmutex := hne htwice.1
      rcases htwice.tail with ⟨mode', heq⟩ | ⟨-, hrest⟩
      · cases heq
      · refine ⟨l', .inl ⟨(List.mem_cons.mp hheld).resolve_left fun heq => ?_, hrest⟩⟩
        cases heq
        exact hmutex rfl
    · cases hcode

/-- A thread of the state is one. -/
def State.Doomed (reentrant : L → Bool) (t : T) (s : State T L) : Prop :=
  RankedLocks.Doomed reentrant (s.threads t)

/-- No step gets it out. -/
theorem doomed_step {a : T × Action F} (h : s.Doomed reentrant t)
    (hs : step lThreadId reentrant body s a = some s') : s'.Doomed reentrant t := by
  obtain ⟨u, a⟩ := a
  have hm := step_moves hs
  by_cases hu : t = u
  · subst hu
    cases hm with
    | called f ht => exact (h.busy ht).elim
    | entered _ _ _ => exact h
    | done _ _ hstep => exact RankedLocks.doomed_step h hstep
    | accessed _ _ _ _ _ => exact h
    | returned hnext hl _ _ _ =>
      show RankedLocks.Doomed reentrant (Function.update s.threads t (advance (s.threads t)) t)
      rw [Function.update_self]
      exact doomed_lockCall h (lockCall_of_next hnext) hl
  · rw [State.Doomed, (hm.other hu).1]
    exact h

/-- A system with such a thread never comes to rest. -/
theorem not_canFinish_of_doomed (h : s.Doomed reentrant t) :
    ¬ CanFinish lThreadId reentrant body s := by
  rintro ⟨as, s', -, hr, hidle⟩
  have hend : s'.Doomed reentrant t :=
    run_preserves (fun _ _ _ hd (_ : True) hs => doomed_step hd hs) h stepsMeet_true hr
  exact hend.busy (hidle t)

end Doom

end RioIocpServer.LockedThreads
