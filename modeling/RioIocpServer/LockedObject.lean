import RioIocpServer.Linearization
import RioIocpServer.RWLock

/-!
# Objects behind a read-write lock

A container of the server has its data and an `RWLock`. Its operations construct a
`WriteLockGuard`, work on the data in several accesses and destroy the guard;
a reader calls `ReadLock`, looks at the data as long as it likes and calls
`ReadUnlock`. Each access of the lock and each access of the data is one step, and
any number of threads take steps in any order. What a reader found when it got the
lock is history, and so are the calls, the last accesses and the returns.
-/

namespace RioIocpServer.LockedObject

open TransitionSystem Linearization

/-- Where a thread stands in the methods of an object. -/
inductive Phase (σ Op L R : Type*) where
  /-- Outside. -/
  | idle
  /-- In the constructor of the `WriteLockGuard`. -/
  | locking (op : Op)
  /-- In the body of a method. -/
  | inside (op : Op) (l : L)
  /-- In the destructor of the `WriteLockGuard`. -/
  | unlocking (result : R)
  /-- In `ReadLock`. -/
  | readLocking
  /-- Between `ReadLock` and `ReadUnlock`; history: the data it found. -/
  | reading (found : σ)
  /-- In `ReadUnlock`. -/
  | readUnlocking

/-- An object and the threads that use it. -/
structure State (T σ Op L R : Type*) where
  /-- `m_rwLock`. -/
  lock : RWLock.State T
  /-- The data. -/
  data : σ
  /-- The threads. -/
  phase : T → Phase σ Op L R
  /-- History: the calls, effects and returns. -/
  events : List (Event T Op R)

/-- The steps of a thread. -/
inductive Action (Op : Type*) where
  /-- A method is called. -/
  | invoke (op : Op)
  /-- `ReadLock` is called. -/
  | readLock
  /-- `ReadUnlock` is called. -/
  | readUnlock
  /-- An access of the lock. -/
  | lock (access : RWLock.Action)
  /-- An access of the data by the body of a method. -/
  | access

section Model

variable {T σ Op L R : Type*} [DecidableEq T]

/-- A new object. -/
def init (data : σ) : State T σ Op L R := ⟨RWLock.init, data, fun _ => .idle, []⟩

omit [DecidableEq T] in
/-- A thread in a method of the lock. -/
def Phase.inLock : Phase σ Op L R → Bool
  | .locking _ => true
  | .unlocking _ => true
  | .readLocking => true
  | .readUnlocking => true
  | _ => false

omit [DecidableEq T] in
/-- Where a thread goes from a method of the lock. -/
def Phase.next (program : Program σ Op L R) (data : σ) : Phase σ Op L R → Phase σ Op L R
  | .locking op => .inside op (program.start op)
  | .unlocking _ => .idle
  | .readLocking => .reading data
  | .readUnlocking => .idle
  | phase => phase

omit [DecidableEq T] in
/-- What returns to the caller with the method of the lock. -/
def Phase.response (t : T) : Phase σ Op L R → List (Event T Op R)
  | .unlocking result => [.respond t result]
  | _ => []

/-- An access of the lock; the thread goes on behind the last one. -/
def State.accessLock (program : Program σ Op L R) (s : State T σ Op L R) (t : T)
    (lock : RWLock.State T) : State T σ Op L R :=
  if (lock.threads t).pc = .idle then
    { s with
      lock := lock
      phase := Function.update s.phase t ((s.phase t).next program s.data)
      events := s.events ++ (s.phase t).response t }
  else { s with lock := lock }

/-- A thread enters a method of the lock. -/
def State.enter (lThreadId : T → BitVec 32) (s : State T σ Op L R) (t : T)
    (method : RWLock.Call) (phase : Phase σ Op L R) (events : List (Event T Op R)) :
    Option (State T σ Op L R) :=
  (RWLock.step lThreadId s.lock (t, .call method)).map fun lock =>
    { s with
      lock := lock
      phase := Function.update s.phase t phase
      events := s.events ++ events }

/-- One step of a thread. -/
def step (lThreadId : T → BitVec 32) (program : Program σ Op L R) (s : State T σ Op L R) :
    T × Action Op → Option (State T σ Op L R)
  | (t, .invoke op) =>
    match s.phase t with
    | .idle => s.enter lThreadId t .writeLock (.locking op) [.invoke t op]
    | _ => none
  | (t, .readLock) =>
    match s.phase t with
    | .idle => s.enter lThreadId t .readLock .readLocking []
    | _ => none
  | (t, .readUnlock) =>
    match s.phase t with
    | .reading _ => s.enter lThreadId t .readUnlock .readUnlocking []
    | _ => none
  | (t, .lock a) =>
    if (s.phase t).inLock = true then
      (RWLock.step lThreadId s.lock (t, a)).map (s.accessLock program t)
    else none
  | (t, .access) =>
    match s.phase t with
    | .inside op l =>
      match program.next s.data l with
      | some (data, .inl l') =>
        some { s with data := data, phase := Function.update s.phase t (.inside op l') }
      | some (data, .inr result) =>
        ({ s with data := data } : State T σ Op L R).enter lThreadId t .writeUnlock
          (.unlocking result) [.commit t op result]
      | none => none
    | _ => none

/-- What one step can do. -/
inductive Moves (lThreadId : T → BitVec 32) (program : Program σ Op L R) (s : State T σ Op L R)
    (t : T) : State T σ Op L R → Prop
  | called (op : Op) (lock : RWLock.State T) (ht : s.phase t = .idle)
      (hlock : RWLock.step lThreadId s.lock (t, .call .writeLock) = some lock) :
      Moves lThreadId program s t { s with
        lock := lock
        phase := Function.update s.phase t (.locking op)
        events := s.events ++ [.invoke t op] }
  | readLocks (lock : RWLock.State T) (ht : s.phase t = .idle)
      (hlock : RWLock.step lThreadId s.lock (t, .call .readLock) = some lock) :
      Moves lThreadId program s t { s with
        lock := lock
        phase := Function.update s.phase t .readLocking
        events := s.events ++ [] }
  | readUnlocks (found : σ) (lock : RWLock.State T) (ht : s.phase t = .reading found)
      (hlock : RWLock.step lThreadId s.lock (t, .call .readUnlock) = some lock) :
      Moves lThreadId program s t { s with
        lock := lock
        phase := Function.update s.phase t .readUnlocking
        events := s.events ++ [] }
  | locks (a : RWLock.Action) (lock : RWLock.State T) (ht : (s.phase t).inLock = true)
      (hlock : RWLock.step lThreadId s.lock (t, a) = some lock)
      (hpc : (lock.threads t).pc ≠ .idle) :
      Moves lThreadId program s t { s with lock := lock }
  | leaves (a : RWLock.Action) (lock : RWLock.State T) (ht : (s.phase t).inLock = true)
      (hlock : RWLock.step lThreadId s.lock (t, a) = some lock)
      (hpc : (lock.threads t).pc = .idle) :
      Moves lThreadId program s t { s with
        lock := lock
        phase := Function.update s.phase t ((s.phase t).next program s.data)
        events := s.events ++ (s.phase t).response t }
  | accessed (op : Op) (l l' : L) (data : σ) (ht : s.phase t = .inside op l)
      (hnext : program.next s.data l = some (data, .inl l')) :
      Moves lThreadId program s t { s with
        data := data
        phase := Function.update s.phase t (.inside op l') }
  | finished (op : Op) (l : L) (result : R) (data : σ) (lock : RWLock.State T)
      (ht : s.phase t = .inside op l) (hnext : program.next s.data l = some (data, .inr result))
      (hlock : RWLock.step lThreadId s.lock (t, .call .writeUnlock) = some lock) :
      Moves lThreadId program s t { s with
        lock := lock
        data := data
        phase := Function.update s.phase t (.unlocking result)
        events := s.events ++ [.commit t op result] }

variable {lThreadId : T → BitVec 32} {program : Program σ Op L R} {s s' : State T σ Op L R}
  {t u : T}

/-- Every enabled step is one of the moves. -/
theorem step_moves {a : Action Op} (h : step lThreadId program s (t, a) = some s') :
    Moves lThreadId program s t s' := by
  cases a with
  | invoke op =>
    simp only [step] at h
    split at h
    · obtain ⟨lock, hlock, rfl⟩ := Option.map_eq_some_iff.mp h
      exact .called op lock ‹_› hlock
    · cases h
  | readLock =>
    simp only [step] at h
    split at h
    · obtain ⟨lock, hlock, rfl⟩ := Option.map_eq_some_iff.mp h
      exact .readLocks lock ‹_› hlock
    · cases h
  | readUnlock =>
    simp only [step] at h
    split at h
    · obtain ⟨lock, hlock, rfl⟩ := Option.map_eq_some_iff.mp h
      exact .readUnlocks _ lock ‹_› hlock
    · cases h
  | lock a =>
    simp only [step] at h
    split at h
    · obtain ⟨lock, hlock, rfl⟩ := Option.map_eq_some_iff.mp h
      rw [State.accessLock]
      split
      · exact .leaves a lock ‹_› hlock ‹_›
      · exact .locks a lock ‹_› hlock ‹_›
    · cases h
  | access =>
    simp only [step] at h
    split at h
    · split at h
      · cases h
        exact .accessed _ _ _ _ ‹_› ‹_›
      · obtain ⟨lock, hlock, rfl⟩ := Option.map_eq_some_iff.mp h
        exact .finished _ _ _ _ lock ‹_› ‹_› hlock
      · cases h
    · cases h

end Model

section Invariant

variable {T σ Op L R : Type*}

/-- What a thread sees of the lock, by where it stands in the methods of the object. -/
inductive Fits : Phase σ Op L R → RWLock.Pc × ℕ × ℕ → Prop
  | idle : Fits .idle (.idle, 0, 0)
  | writeLock (op : Op) : Fits (.locking op) (.writeLock, 0, 0)
  | writeCas (op : Op) : Fits (.locking op) (.writeCas, 0, 0)
  | writeFirst (op : Op) : Fits (.locking op) (.writeFirst, 0, 1)
  | inside (op : Op) (l : L) : Fits (.inside op l) (.idle, 0, 1)
  | writeUnlock (result : R) : Fits (.unlocking result) (.writeUnlock, 0, 1)
  | writeDec (result : R) : Fits (.unlocking result) (.writeDec, 0, 1)
  | writeStore (result : R) : Fits (.unlocking result) (.writeStore, 0, 1)
  | readLock : Fits .readLocking (.readLock, 0, 0)
  | readCas (expected : BitVec 32) : Fits .readLocking (.readCas expected, 0, 0)
  | reading (found : σ) : Fits (.reading found) (.idle, 1, 0)
  | readUnlock : Fits .readUnlocking (.readUnlock, 1, 0)

/-- Where a thread stands between the events of the history. -/
def Phase.stage : Phase σ Op L R → Stage Op R
  | .locking op => .called op
  | .inside op _ => .called op
  | .unlocking result => .answered result
  | _ => .idle

/-- An access of the lock keeps what a thread sees in accordance with where it stands,
whether it goes on or not. -/
theorem fits_accessLock {phase : Phase σ Op L R} {v v' : RWLock.Pc × ℕ × ℕ}
    (program : Program σ Op L R) (data : σ) (hfit : Fits phase v) (hin : phase.inLock = true)
    (h : RWLock.Advances v v') :
    (v'.1 = .idle → Fits (phase.next program data) v') ∧ (v'.1 ≠ .idle → Fits phase v') := by
  cases hfit with
  | idle => cases hin
  | inside op l => cases hin
  | reading found => cases hin
  | writeLock op =>
    cases h
    exact ⟨by rintro ⟨⟩, fun _ => .writeCas op⟩
  | writeCas op =>
    cases h with
    | writeLocked => exact ⟨by rintro ⟨⟩, fun _ => .writeFirst op⟩
    | writeFailed => exact ⟨by rintro ⟨⟩, fun _ => .writeCas op⟩
  | writeFirst op =>
    cases h
    exact ⟨fun _ => .inside op _, fun hne => (hne rfl).elim⟩
  | writeUnlock result =>
    cases h
    exact ⟨by rintro ⟨⟩, fun _ => .writeDec result⟩
  | writeDec result =>
    cases h
    exact ⟨by rintro ⟨⟩, fun _ => .writeStore result⟩
  | writeStore result =>
    cases h
    exact ⟨fun _ => .idle, fun hne => (hne rfl).elim⟩
  | readLock =>
    cases h
    exact ⟨by rintro ⟨⟩, fun _ => .readCas _⟩
  | readCas expected =>
    cases h with
    | readLocked => exact ⟨fun _ => .reading data, fun hne => (hne rfl).elim⟩
    | readFailed => exact ⟨by rintro ⟨⟩, fun _ => .readLock⟩
  | readUnlock =>
    cases h
    exact ⟨fun _ => .idle, fun hne => (hne rfl).elim⟩

/-- A thread has one read hold at most. -/
theorem Fits.readHolds_le {phase : Phase σ Op L R} {v : RWLock.Pc × ℕ × ℕ} (h : Fits phase v) :
    v.2.1 ≤ 1 := by
  cases h with
  | readCas expected => exact Nat.zero_le 1
  | _ => decide

/-- A thread in a method of the lock is not at rest. -/
theorem Fits.busy {phase : Phase σ Op L R} {v : RWLock.Pc × ℕ × ℕ} (h : Fits phase v)
    (hin : phase.inLock = true) : v.1 ≠ .idle := by
  intro hpc
  cases h with
  | idle => cases hin
  | inside _ _ => cases hin
  | reading _ => cases hin
  | _ => cases hpc

/-- The read and write holds of a thread that is in no method of the lock. -/
def Phase.held : Phase σ Op L R → ℕ × ℕ
  | .inside _ _ => (0, 1)
  | .reading _ => (1, 0)
  | _ => (0, 0)

/-- A thread that is in no method of the lock has the holds of where it stands. -/
theorem Fits.held_eq {phase : Phase σ Op L R} {thread : RWLock.Thread}
    (h : Fits phase thread.view) (hout : phase.inLock = false) :
    thread.readHolds = phase.held.1 ∧ thread.writeHolds = phase.held.2 := by
  have hview : thread.view.2 = phase.held := by
    generalize thread.view = v at h
    cases h with
    | idle => rfl
    | inside _ _ => rfl
    | reading _ => rfl
    | _ => cases hout
  exact ⟨congrArg Prod.fst hview, congrArg Prod.snd hview⟩

variable [DecidableEq T] [Fintype T]

/-- The data are those of the effects so far, up to what the one thread inside has
still to do. -/
structure Holds (program : Program σ Op L R) (spec : Op → σ → R × σ) (d : σ)
    (s : State T σ Op L R) (committed : σ) : Prop where
  /-- The effects are those of atomic operations. -/
  legal : Legal spec d (effects s.events) committed
  /-- The thread inside ends with what the atomic operation does. -/
  inside : ∀ t op l, s.phase t = .inside op l →
    Ends program s.data l (spec op committed).1 (spec op committed).2
  /-- Without a thread inside the data are those of the effects. -/
  outside : (∀ t op l, s.phase t ≠ .inside op l) → s.data = committed

/-- The invariant of an object. -/
structure Inv (lThreadId : T → BitVec 32) (program : Program σ Op L R)
    (spec : Op → σ → R × σ) (d : σ) (s : State T σ Op L R) : Prop where
  /-- The invariant of the lock. -/
  lock : RWLock.Inv lThreadId s.lock
  /-- What the threads see of the lock fits. -/
  fits : ∀ t, Fits (s.phase t) (s.lock.threads t).view
  /-- The data come from atomic operations. -/
  holds : ∃ committed, Holds program spec d s committed
  /-- A reader still sees what it found. -/
  found : ∀ t found, s.phase t = .reading found → s.data = found
  /-- Every operation takes effect once between its call and its return. -/
  stands : ∀ t, Stands t s.events (s.phase t).stage

variable {lThreadId : T → BitVec 32} {program : Program σ Op L R} {spec : Op → σ → R × σ} {d : σ}
  {s s' : State T σ Op L R} {t u : T}

omit [DecidableEq T] in
/-- A thread inside has the write lock. -/
theorem Inv.writeHolds_inside (inv : Inv lThreadId program spec d s) {op : Op} {l : L}
    (ht : s.phase t = .inside op l) : 0 < (s.lock.threads t).writeHolds := by
  have hfit := inv.fits t
  rw [ht] at hfit
  rw [(hfit.held_eq rfl).2]
  exact Nat.one_pos

omit [DecidableEq T] in
/-- A reader has a read lock. -/
theorem Inv.readHolds_reading (inv : Inv lThreadId program spec d s) {found : σ}
    (ht : s.phase t = .reading found) : 0 < (s.lock.threads t).readHolds := by
  have hfit := inv.fits t
  rw [ht] at hfit
  rw [(hfit.held_eq rfl).1]
  exact Nat.one_pos

omit [DecidableEq T] in
/-- One thread at most is inside. -/
theorem Inv.inside_unique (inv : Inv lThreadId program spec d s) {op op' : Op} {l l' : L}
    (ht : s.phase t = .inside op l) (hu : s.phase u = .inside op' l') : u = t :=
  (inv.lock.owned_of_pos (inv.writeHolds_inside ht)).eq_of_pos (inv.writeHolds_inside hu)

omit [DecidableEq T] in
/-- Nobody is inside while somebody reads. -/
theorem Inv.not_inside_of_reading (inv : Inv lThreadId program spec d s) {found : σ} {op : Op}
    {l : L} (ht : s.phase t = .reading found) : s.phase u ≠ .inside op l := by
  intro hu
  have hzero := (inv.lock.free_of_reader (inv.readHolds_reading ht)).writeHolds_eq u
  have hpos := inv.writeHolds_inside hu
  omega

omit [DecidableEq T] in
/-- A new object. -/
theorem inv_init : Inv lThreadId program spec d (init d) where
  lock := RWLock.inv_init
  fits _ := .idle
  holds := by
    refine ⟨d, .nil, ?_, fun _ => rfl⟩
    rintro t op l ⟨⟩
  found := by
    rintro t found ⟨⟩
  stands _ := .nil

omit [Fintype T] in
/-- The views fit when that of the thread that moves does. -/
theorem fits_update {phase : T → Phase σ Op L R} {next : Phase σ Op L R} {a : RWLock.Action}
    {lock lock' : RWLock.State T} (hfits : ∀ u, Fits (phase u) (lock.threads u).view)
    (h : RWLock.Moves lThreadId lock t a lock') (hnext : Fits next (lock'.threads t).view) (u : T) :
    Fits (Function.update phase t next u) (lock'.threads u).view := by
  by_cases hu : u = t
  · subst hu
    rw [Function.update_self]
    exact hnext
  · rw [Function.update_of_ne hu, h.other hu]
    exact hfits u

omit [Fintype T] in
/-- The histories of the threads are in order when that of the thread of the new
events is. -/
theorem stands_update {phase : T → Phase σ Op L R} {next : Phase σ Op L R}
    {events : List (Event T Op R)} {event : Event T Op R} (hthread : event.thread = t)
    (hstands : ∀ u, Stands u events (phase u).stage)
    (hnext : Stands t (events ++ [event]) next.stage) (u : T) :
    Stands u (events ++ [event]) (Function.update phase t next u).stage := by
  by_cases hu : u = t
  · subst hu
    rw [Function.update_self]
    exact hnext
  · rw [Function.update_of_ne hu]
    exact (hstands u).other fun h => hu (h.symm.trans hthread)

omit [Fintype T] in
/-- So they are when nothing happened and the thread stands where it did. -/
theorem stands_same {phase : T → Phase σ Op L R} {next : Phase σ Op L R}
    {events : List (Event T Op R)} (hstands : ∀ u, Stands u events (phase u).stage)
    (hnext : next.stage = (phase t).stage) (u : T) :
    Stands u (events ++ []) (Function.update phase t next u).stage := by
  rw [List.append_nil]
  by_cases hu : u = t
  · subst hu
    rw [Function.update_self, hnext]
    exact hstands u
  · rw [Function.update_of_ne hu]
    exact hstands u

omit [Fintype T] in
/-- A thread that is not inside before or after leaves what the data hold as it is. -/
theorem Holds.update {committed : σ} (hold : Holds program spec d s committed)
    {lock : RWLock.State T} {next : Phase σ Op L R} {more : List (Event T Op R)}
    (hbefore : ∀ op l, s.phase t ≠ .inside op l) (hafter : ∀ op l, next ≠ .inside op l)
    (hmore : effects (s.events ++ more) = effects s.events) :
    Holds program spec d { s with
      lock := lock
      phase := Function.update s.phase t next
      events := s.events ++ more } committed := by
  constructor
  · rw [hmore]
    exact hold.legal
  · intro u op l hu
    change Function.update s.phase t next u = .inside op l at hu
    by_cases hut : u = t
    · rw [hut, Function.update_self] at hu
      exact (hafter op l hu).elim
    · rw [Function.update_of_ne hut] at hu
      exact hold.inside u op l hu
  · intro hnone
    refine hold.outside fun u op l hu => ?_
    by_cases hut : u = t
    · exact hbefore op l (hut ▸ hu)
    · refine hnone u op l ?_
      show Function.update s.phase t next u = _
      rw [Function.update_of_ne hut]
      exact hu

omit [Fintype T] in
/-- A thread that begins to read finds the data; the other readers see what they did. -/
theorem found_update (hfound : ∀ u found, s.phase u = .reading found → s.data = found)
    {next : Phase σ Op L R} (hnext : ∀ found, next = .reading found → s.data = found) (u : T)
    (found : σ) (hu : Function.update s.phase t next u = .reading found) : s.data = found := by
  by_cases hut : u = t
  · rw [hut, Function.update_self] at hu
    exact hnext found hu
  · rw [Function.update_of_ne hut] at hu
    exact hfound u found hu

/-- A thread that enters a method of the lock from outside keeps the invariant. -/
theorem inv_entered (ids : RWLock.DistinctIds lThreadId) (hcard : Fintype.card T < 65535)
    (inv : Inv lThreadId program spec d s) {method : RWLock.Call} {lock : RWLock.State T}
    {next : Phase σ Op L R} {more : List (Event T Op R)}
    (hbefore : ∀ op l, s.phase t ≠ .inside op l) (hafter : ∀ op l, next ≠ .inside op l)
    (hread : method = .readUnlock → 0 < (s.lock.threads t).readHolds)
    (hwrite : method ≠ .writeUnlock) (hreading : ∀ found, next ≠ .reading found)
    (hmore : effects (s.events ++ more) = effects s.events)
    (hfit : Fits next (method.entry, (s.lock.threads t).readHolds, (s.lock.threads t).writeHolds))
    (hstands : ∀ u, Stands u (s.events ++ more) (Function.update s.phase t next u).stage)
    (hlock : RWLock.step lThreadId s.lock (t, .call method) = some lock) :
    Inv lThreadId program spec d { s with
      lock := lock
      phase := Function.update s.phase t next
      events := s.events ++ more } where
  lock := RWLock.inv_entered ids hcard inv.lock (fun u => (inv.fits u).readHolds_le) hread
    (fun h => (hwrite h).elim) hlock
  fits u := by
    have hm := RWLock.step_moves hlock
    refine fits_update inv.fits hm ?_ u
    rw [RWLock.view_entered hm]
    exact hfit
  holds := by
    obtain ⟨committed, hold⟩ := inv.holds
    exact ⟨committed, hold.update hbefore hafter hmore⟩
  found := found_update inv.found fun found h => (hreading found h).elim
  stands := hstands

/-- An access of the lock keeps the invariant. -/
theorem inv_locks (ids : RWLock.DistinctIds lThreadId) (hcard : Fintype.card T < 65535)
    (inv : Inv lThreadId program spec d s) (hin : (s.phase t).inLock = true) {a : RWLock.Action}
    {lock : RWLock.State T} (hlock : RWLock.step lThreadId s.lock (t, a) = some lock) :
    RWLock.Inv lThreadId lock ∧
      ((lock.threads t).pc = .idle →
        Fits ((s.phase t).next program s.data) (lock.threads t).view) ∧
      ((lock.threads t).pc ≠ .idle → Fits (s.phase t) (lock.threads t).view) := by
  have hm := RWLock.step_moves hlock
  have hfit := fits_accessLock program s.data (inv.fits t) hin (inv.lock.advances ids hm)
  have hbusy : (s.lock.threads t).pc ≠ .idle := (inv.fits t).busy hin
  refine ⟨RWLock.inv_access ids hcard inv.lock (fun u => (inv.fits u).readHolds_le) ?_ ?_
    (fun v hv => ?_) hlock, hfit⟩
  · rintro rfl
    cases hm with
    | called _ ht => exact (hbusy ht).elim
  · rintro rfl
    cases hm with
    | called _ ht => exact (hbusy ht).elim
  · by_cases hpc : v.1 = .idle
    · exact ((fits_accessLock program s.data (inv.fits t) hin hv).1 hpc).readHolds_le
    · exact ((fits_accessLock program s.data (inv.fits t) hin hv).2 hpc).readHolds_le

omit [DecidableEq T] [Fintype T] in
/-- A return has no effect. -/
theorem effects_response (events : List (Event T Op R)) (t : T) (phase : Phase σ Op L R) :
    effects (events ++ phase.response t) = effects events := by
  cases phase with
  | unlocking result => exact effects_respond events t result
  | _ => exact congrArg effects (List.append_nil events)

/-- A thread that leaves a method of the lock keeps what the data hold: when it goes
inside, nobody else is there. -/
theorem holds_leaves {committed : σ} (himplements : Implements program spec)
    (inv : Inv lThreadId program spec d s) (hold : Holds program spec d s committed)
    (hin : (s.phase t).inLock = true) {lock : RWLock.State T} (hlock : RWLock.Inv lThreadId lock)
    (hothers : ∀ u, u ≠ t → lock.threads u = s.lock.threads u)
    (hfit : Fits ((s.phase t).next program s.data) (lock.threads t).view) :
    Holds program spec d { s with
      lock := lock
      phase := Function.update s.phase t ((s.phase t).next program s.data)
      events := s.events ++ (s.phase t).response t } committed := by
  have hbefore : ∀ op l, s.phase t ≠ .inside op l := by
    intro op l ht
    rw [ht] at hin
    cases hin
  cases ht : s.phase t with
  | idle =>
    rw [ht] at hin
    cases hin
  | inside op l => exact (hbefore op l ht).elim
  | reading found =>
    rw [ht] at hin
    cases hin
  | unlocking result => exact hold.update hbefore (by rintro op l ⟨⟩) (effects_response _ _ _)
  | readLocking => exact hold.update hbefore (by rintro op l ⟨⟩) (effects_response _ _ _)
  | readUnlocking => exact hold.update hbefore (by rintro op l ⟨⟩) (effects_response _ _ _)
  | locking op =>
    rw [ht, Phase.next] at hfit
    have hpos : 0 < (lock.threads t).writeHolds := by
      rw [(hfit.held_eq rfl).2]
      exact Nat.one_pos
    have hnobody : ∀ u op l, s.phase u ≠ .inside op l := by
      intro u op l hu
      have hut : u ≠ t := by
        rintro rfl
        exact hbefore op l hu
      have hu' := inv.writeHolds_inside hu
      rw [← hothers u hut] at hu'
      exact hut ((hlock.owned_of_pos hpos).eq_of_pos hu')
    constructor
    · rw [effects_response]
      exact hold.legal
    · intro u op' l hu
      change Function.update s.phase t (.inside op (program.start op)) u = .inside op' l at hu
      by_cases hut : u = t
      · rw [hut, Function.update_self] at hu
        cases hu
        show Ends program s.data _ _ _
        rw [hold.outside hnobody]
        exact himplements op committed
      · rw [Function.update_of_ne hut] at hu
        exact (hnobody u op' l hu).elim
    · intro hnone
      exact (hnone t op (program.start op) (Function.update_self _ _ _)).elim

/-- A thread that leaves a method of the lock keeps the invariant. -/
theorem inv_leaves (ids : RWLock.DistinctIds lThreadId) (hcard : Fintype.card T < 65535)
    (himplements : Implements program spec) (inv : Inv lThreadId program spec d s)
    (hin : (s.phase t).inLock = true) {a : RWLock.Action} {lock : RWLock.State T}
    (hlock : RWLock.step lThreadId s.lock (t, a) = some lock)
    (hpc : (lock.threads t).pc = .idle) :
    Inv lThreadId program spec d { s with
      lock := lock
      phase := Function.update s.phase t ((s.phase t).next program s.data)
      events := s.events ++ (s.phase t).response t } := by
  obtain ⟨hinv, hfit, -⟩ := inv_locks ids hcard inv hin hlock
  have hm := RWLock.step_moves hlock
  constructor
  · exact hinv
  · exact fits_update inv.fits hm (hfit hpc)
  · obtain ⟨committed, hold⟩ := inv.holds
    exact ⟨committed,
      holds_leaves himplements inv hold hin hinv (fun u hu => hm.other hu) (hfit hpc)⟩
  · refine found_update inv.found fun found hnext => ?_
    cases ht : s.phase t <;> rw [ht] at hnext <;> cases hnext
    · rfl
    · exact inv.found t found ht
  · have hstands := inv.stands t
    cases ht : s.phase t with
    | unlocking result =>
      rw [ht] at hstands
      exact stands_update rfl inv.stands hstands.respond
    | _ => exact stands_same inv.stands (by rw [ht]; rfl)

/-- The accesses of the thread inside, the last one included: the other threads are
neither inside nor reading. -/
theorem alone_inside (inv : Inv lThreadId program spec d s) {op : Op} {l : L}
    (ht : s.phase t = .inside op l) (next : Phase σ Op L R) :
    (∀ u op' l', Function.update s.phase t next u = .inside op' l' →
      next = .inside op' l' ∧ u = t) ∧
      ∀ u found, Function.update s.phase t next u = .reading found → next = .reading found := by
  constructor
  · intro u op' l' hu
    by_cases hut : u = t
    · rw [hut, Function.update_self] at hu
      exact ⟨hu, hut⟩
    · rw [Function.update_of_ne hut] at hu
      exact (hut (inv.inside_unique ht hu)).elim
  · intro u found hu
    by_cases hut : u = t
    · rw [hut, Function.update_self] at hu
      exact hu
    · rw [Function.update_of_ne hut] at hu
      exact (inv.not_inside_of_reading hu ht).elim

/-- An access of the thread inside keeps the invariant. -/
theorem inv_accessed (inv : Inv lThreadId program spec d s) {op : Op} {l l' : L} {data : σ}
    (ht : s.phase t = .inside op l) (hnext : program.next s.data l = some (data, .inl l')) :
    Inv lThreadId program spec d { s with
      data := data
      phase := Function.update s.phase t (.inside op l') } := by
  have hfit := inv.fits t
  rw [ht] at hfit
  obtain ⟨honly, hnobody⟩ := alone_inside inv ht (.inside op l')
  constructor
  · exact inv.lock
  · intro u
    show Fits (Function.update s.phase t _ u) _
    by_cases hu : u = t
    · subst hu
      rw [Function.update_self]
      generalize (s.lock.threads u).view = v at hfit
      cases hfit
      exact .inside op l'
    · rw [Function.update_of_ne hu]
      exact inv.fits u
  · obtain ⟨committed, hold⟩ := inv.holds
    refine ⟨committed, hold.legal, fun u op' m hu => ?_, fun hnone => ?_⟩
    · obtain ⟨hsame, -⟩ := honly u op' m hu
      cases hsame
      exact (hold.inside t op l ht).tail hnext
    · exact (hnone t op l' (Function.update_self _ _ _)).elim
  · intro u found hu
    cases hnobody u found hu
  · have hsame : (Phase.inside op l' : Phase σ Op L R).stage = (s.phase t).stage := by
      rw [ht]
      rfl
    have hstands := stands_same inv.stands hsame
    rw [List.append_nil] at hstands
    exact hstands

/-- The last access of the thread inside keeps the invariant: its operation takes
effect there. -/
theorem inv_finished (ids : RWLock.DistinctIds lThreadId) (hcard : Fintype.card T < 65535)
    (inv : Inv lThreadId program spec d s) {op : Op} {l : L} {result : R} {data : σ}
    {lock : RWLock.State T} (ht : s.phase t = .inside op l)
    (hnext : program.next s.data l = some (data, .inr result))
    (hlock : RWLock.step lThreadId s.lock (t, .call .writeUnlock) = some lock) :
    Inv lThreadId program spec d { s with
      lock := lock
      data := data
      phase := Function.update s.phase t (.unlocking result)
      events := s.events ++ [.commit t op result] } := by
  have hm := RWLock.step_moves hlock
  have hfit := inv.fits t
  rw [ht] at hfit
  obtain ⟨honly, hnobody⟩ := alone_inside inv ht (.unlocking result)
  constructor
  · exact RWLock.inv_entered ids hcard inv.lock (fun u => (inv.fits u).readHolds_le)
      (by rintro ⟨⟩) (fun _ => inv.writeHolds_inside ht) hlock
  · refine fits_update inv.fits hm ?_
    rw [RWLock.view_entered hm, (hfit.held_eq rfl).1, (hfit.held_eq rfl).2]
    exact .writeUnlock result
  · obtain ⟨committed, hold⟩ := inv.holds
    obtain ⟨rfl, rfl⟩ := (hold.inside t op l ht).last hnext
    refine ⟨(spec op committed).2, ?_, fun u op' m hu => ?_, fun _ => rfl⟩
    · rw [effects_commit]
      exact hold.legal.concat op
    · cases (honly u op' m hu).1
  · intro u found hu
    cases hnobody u found hu
  · have hstands := inv.stands t
    rw [ht] at hstands
    exact stands_update rfl inv.stands (hstands.commit result)

/-- Every step keeps the invariant. -/
theorem inv_step (ids : RWLock.DistinctIds lThreadId) (hcard : Fintype.card T < 65535)
    (himplements : Implements program spec) (inv : Inv lThreadId program spec d s)
    {a : T × Action Op} (h : step lThreadId program s a = some s') :
    Inv lThreadId program spec d s' := by
  obtain ⟨t, a⟩ := a
  have hview : ∀ {phase : Phase σ Op L R}, s.phase t = phase →
      Fits phase (s.lock.threads t).view := by
    rintro _ rfl
    exact inv.fits t
  have hstands := inv.stands t
  cases step_moves h with
  | called op lock ht hlock =>
    have hfit := hview ht
    rw [ht] at hstands
    refine inv_entered ids hcard inv (by rw [ht]; rintro op l ⟨⟩) (by rintro op l ⟨⟩)
      (by rintro ⟨⟩) (by rintro ⟨⟩) (by rintro found ⟨⟩) (effects_invoke _ _ _) ?_
      (stands_update rfl inv.stands (hstands.invoke op)) hlock
    rw [(hfit.held_eq rfl).1, (hfit.held_eq rfl).2]
    exact .writeLock op
  | readLocks lock ht hlock =>
    have hfit := hview ht
    refine inv_entered ids hcard inv (by rw [ht]; rintro op l ⟨⟩) (by rintro op l ⟨⟩)
      (by rintro ⟨⟩) (by rintro ⟨⟩) (by rintro found ⟨⟩) (by rw [List.append_nil]) ?_
      (stands_same inv.stands (by rw [ht]; rfl)) hlock
    rw [(hfit.held_eq rfl).1, (hfit.held_eq rfl).2]
    exact .readLock
  | readUnlocks found lock ht hlock =>
    have hfit := hview ht
    refine inv_entered ids hcard inv (by rw [ht]; rintro op l ⟨⟩) (by rintro op l ⟨⟩)
      (fun _ => inv.readHolds_reading ht) (by rintro ⟨⟩) (by rintro found ⟨⟩)
      (by rw [List.append_nil]) ?_ (stands_same inv.stands (by rw [ht]; rfl)) hlock
    rw [(hfit.held_eq rfl).1, (hfit.held_eq rfl).2]
    exact .readUnlock
  | locks a lock ht hlock hpc =>
    obtain ⟨hinv, -, hfit⟩ := inv_locks ids hcard inv ht hlock
    refine ⟨hinv, fun u => ?_, ?_, inv.found, inv.stands⟩
    · have hfits := fits_update inv.fits (RWLock.step_moves hlock) (hfit hpc) u
      rwa [Function.update_eq_self] at hfits
    · obtain ⟨committed, hold⟩ := inv.holds
      exact ⟨committed, hold.legal, hold.inside, hold.outside⟩
  | leaves a lock ht hlock hpc => exact inv_leaves ids hcard himplements inv ht hlock hpc
  | accessed op l l' data ht hnext => exact inv_accessed inv ht hnext
  | finished op l result data lock ht hnext hlock =>
    exact inv_finished ids hcard inv ht hnext hlock

/-- The invariant holds throughout every run. -/
theorem inv_reachable (ids : RWLock.DistinctIds lThreadId) (hcard : Fintype.card T < 65535)
    (himplements : Implements program spec)
    (h : Reachable (step lThreadId program) (init d) s) : Inv lThreadId program spec d s :=
  h.invariant inv_init fun _ _ _ inv hs => inv_step ids hcard himplements inv hs

/-- The object behaves as if its operations were atomic, with `committed` the data of
those that have taken effect. -/
structure ActsAtomically (spec : Op → σ → R × σ) (d : σ) (program : Program σ Op L R)
    (s : State T σ Op L R) (committed : σ) : Prop where
  /-- Every operation takes effect once between its call and its return, and returns
  what was decided there. -/
  stands : ∀ t, ∃ stage, Stands t s.events stage
  /-- The effects are those of atomic operations performed one after the other. -/
  legal : Legal spec d (effects s.events) committed
  /-- While nobody is inside, the data are what they have left. -/
  data_eq : (∀ t op l, s.phase t ≠ .inside op l) → s.data = committed
  /-- A reader sees that throughout, and what it found when it got the lock is that still. -/
  found_eq : ∀ t found, s.phase t = .reading found → s.data = committed ∧ found = committed
  /-- An access on the way is always defined. -/
  defined : ∀ t op l, s.phase t = .inside op l → ∃ answer, program.next s.data l = some answer

omit [DecidableEq T] in
/-- An object with the invariant acts atomically. -/
theorem Inv.actsAtomically (inv : Inv lThreadId program spec d s) :
    ∃ committed, ActsAtomically spec d program s committed := by
  obtain ⟨committed, hold⟩ := inv.holds
  refine ⟨committed, fun t => ⟨_, inv.stands t⟩, hold.legal, hold.outside, fun t found ht => ?_,
    fun t op l ht => (hold.inside t op l ht).defined⟩
  have hdata := hold.outside fun u op l => inv.not_inside_of_reading ht
  exact ⟨hdata, (inv.found t found ht).symm.trans hdata⟩

end Invariant

end RioIocpServer.LockedObject
