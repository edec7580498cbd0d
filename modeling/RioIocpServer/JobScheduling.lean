import RioIocpServer.TransitionSystem
import RioIocpServer.ThreadSum
import Mathlib.Data.List.Count
import Mathlib.Tactic.Ring

/-!
# The job queues and the global queue they are scheduled through

Any number of threads push jobs to job queues and execute the queues they pop
from the global queue. A thread is a pair of program counters, one inside
`Push` and one inside `Execute`, because a running job may itself push. Every
atomic access of the source is one step: the two counter updates, `Push` and
`PopAll` of the job list, `Push` and `Pop` of the global queue. The logs
`pushed` and `started` record history and are read by no step. The job counter
is an unbounded integer: it equals the number of pending jobs, so the 32-bit
counter of the source behaves alike while fewer than 2^31 jobs are pending.
-/

namespace RioIocpServer.JobScheduling

open TransitionSystem

/-- The queue guarded by one lock; its operations are atomic. -/
structure LockQueue (α : Type*) where
  /-- Stored items, the oldest one first. -/
  queue : List α
  deriving DecidableEq

namespace LockQueue

variable {α : Type*}

/-- Append an item. -/
def push (q : LockQueue α) (item : α) : LockQueue α := ⟨q.queue ++ [item]⟩

/-- Remove the front item; the empty queue answers the null item. -/
def pop : LockQueue α → Option α × LockQueue α
  | ⟨[]⟩ => (none, ⟨[]⟩)
  | ⟨ret :: rest⟩ => (some ret, ⟨rest⟩)

/-- The loop of `popAll`: move front items to the end of `items` until the
queue is empty. -/
def popAllLoop : List α → List α → List α
  | [], items => items
  | item :: rest, items => popAllLoop rest (items ++ [item])

/-- Move everything stored behind the given items. -/
def popAll (q : LockQueue α) (items : List α) : List α × LockQueue α :=
  (popAllLoop q.queue items, ⟨[]⟩)

/-- The loop keeps the queue order. -/
theorem popAllLoop_eq (q items : List α) : popAllLoop q items = items ++ q := by
  induction q generalizing items with
  | nil => simp [popAllLoop]
  | cons item rest ih => simp [popAllLoop, ih]

@[simp] theorem push_queue (q : LockQueue α) (item : α) : (q.push item).queue = q.queue ++ [item] :=
  rfl

@[simp] theorem popAll_nil (q : LockQueue α) : q.popAll [] = (q.queue, ⟨[]⟩) := by
  simp [popAll, popAllLoop_eq]

end LockQueue

/-- The shared fields of one job queue. -/
structure JobQueue (J : Type*) where
  /-- Jobs counted by `Push` and not yet uncounted by `Execute`. -/
  jobCount : ℤ
  /-- Jobs waiting for the next `PopAll`. -/
  jobs : LockQueue J

/-- Where a thread stands inside `JobQueue::Push`. -/
inductive PushPc (Q J : Type*) where
  /-- Not pushing. -/
  | idle
  /-- The job is counted and not yet stored. -/
  | counted (queue : Q) (job : J) (prevCount : ℤ)
  /-- The job is stored; the test of `prevCount` comes next. -/
  | stored (queue : Q) (prevCount : ℤ)

/-- Where a worker stands inside `JobQueue::Execute`. -/
inductive ExecPc (Q J : Type*) where
  /-- Not executing a queue. -/
  | idle
  /-- Holds the queue at the head of the loop. -/
  | popped (queue : Q)
  /-- Runs the jobs of one `PopAll`: the running one, those not started yet
  and the size of the whole batch. -/
  | batch (queue : Q) (running : Option J) (rest : List J) (jobCount : ℕ)
  /-- Uncounted the batch, more jobs are counted; the deadline test is next. -/
  | remaining (queue : Q)
  /-- The deadline passed; the queue is to be pushed back. -/
  | givingUp (queue : Q)

/-- Both program counters of a thread. -/
structure Thread (Q J : Type*) where
  /-- Progress inside `Push`. -/
  push : PushPc Q J
  /-- Progress inside `Execute`. -/
  exec : ExecPc Q J

/-- Shared memory, program counters and the two history logs. -/
structure State (T Q J : Type*) where
  /-- `gGlobalQueue`. -/
  globalQueue : LockQueue Q
  /-- The job queues. -/
  queues : Q → JobQueue J
  /-- The threads. -/
  threads : T → Thread Q J
  /-- History: jobs in the order of their `m_jobs.Push`. -/
  pushed : Q → List J
  /-- History: jobs in the order they were started. -/
  started : Q → List J

/-- Nothing pushed and nobody inside a job queue. -/
def init {T Q J : Type*} : State T Q J where
  globalQueue := ⟨[]⟩
  queues _ := ⟨0, ⟨[]⟩⟩
  threads _ := ⟨.idle, .idle⟩
  pushed _ := []
  started _ := []

/-- The atomic accesses of `Push`, of the worker loop and of `Execute`. -/
inductive Action (Q J : Type*) where
  /-- `m_jobCount.fetch_add(1)` at the start of a `Push`. -/
  | fetchAdd (queue : Q) (job : J)
  /-- `m_jobs.Push(job)`. -/
  | pushJob
  /-- The test `prevCount == 0` and the push to the global queue. -/
  | pushQueue
  /-- `gGlobalQueue->Pop()` of the worker loop, which executes what it gets. -/
  | popQueue
  /-- `m_jobs.PopAll(jobs)`. -/
  | popAll
  /-- The next job of the batch starts. -/
  | beginJob
  /-- The running job returns. -/
  | endJob
  /-- `m_jobCount.fetch_sub(jobCount)` and its test. -/
  | fetchSub
  /-- The test `now >= LEndTickCount` with its answer. -/
  | testDeadline (passed : Bool)
  /-- `gGlobalQueue->Push(shared_from_this())` of `Execute`. -/
  | pushBack

/-- Jobs are pushed by a thread outside `Execute` or by the job it runs. -/
def ExecPc.mayPush {Q J : Type*} : ExecPc Q J → Bool
  | .idle => true
  | .batch _ (some _) _ _ => true
  | _ => false

section System

variable {T Q J : Type*} [DecidableEq T] [DecidableEq Q]

/-- One atomic access of a thread. -/
def step (s : State T Q J) : T × Action Q J → Option (State T Q J)
  | (t, .fetchAdd q job) =>
    match (s.threads t).push, (s.threads t).exec.mayPush with
    | .idle, true => some { s with
        queues := Function.update s.queues q
          { s.queues q with jobCount := (s.queues q).jobCount + 1 }
        threads := Function.update s.threads t
          ⟨.counted q job (s.queues q).jobCount, (s.threads t).exec⟩ }
    | _, _ => none
  | (t, .pushJob) =>
    match (s.threads t).push with
    | .counted q job prevCount => some { s with
        queues := Function.update s.queues q
          { s.queues q with jobs := (s.queues q).jobs.push job }
        threads := Function.update s.threads t ⟨.stored q prevCount, (s.threads t).exec⟩
        pushed := Function.update s.pushed q (s.pushed q ++ [job]) }
    | _ => none
  | (t, .pushQueue) =>
    match (s.threads t).push with
    | .stored q prevCount => some { s with
        globalQueue := if prevCount = 0 then s.globalQueue.push q else s.globalQueue
        threads := Function.update s.threads t ⟨.idle, (s.threads t).exec⟩ }
    | _ => none
  | (t, .popQueue) =>
    match s.threads t with
    | ⟨.idle, .idle⟩ =>
      match s.globalQueue.pop with
      | (some q, rest) => some { s with
          globalQueue := rest
          threads := Function.update s.threads t ⟨.idle, .popped q⟩ }
      | (none, _) => some s
    | _ => none
  | (t, .popAll) =>
    match s.threads t with
    | ⟨.idle, .popped q⟩ =>
      match (s.queues q).jobs.popAll [] with
      | (batch, jobs) => some { s with
          queues := Function.update s.queues q { s.queues q with jobs := jobs }
          threads := Function.update s.threads t ⟨.idle, .batch q none batch batch.length⟩ }
    | _ => none
  | (t, .beginJob) =>
    match s.threads t with
    | ⟨.idle, .batch q none (job :: rest) jobCount⟩ => some { s with
        threads := Function.update s.threads t ⟨.idle, .batch q (some job) rest jobCount⟩
        started := Function.update s.started q (s.started q ++ [job]) }
    | _ => none
  | (t, .endJob) =>
    match s.threads t with
    | ⟨.idle, .batch q (some _) rest jobCount⟩ => some { s with
        threads := Function.update s.threads t ⟨.idle, .batch q none rest jobCount⟩ }
    | _ => none
  | (t, .fetchSub) =>
    match s.threads t with
    | ⟨.idle, .batch q none [] jobCount⟩ => some { s with
        queues := Function.update s.queues q
          { s.queues q with jobCount := (s.queues q).jobCount - jobCount }
        threads := Function.update s.threads t
          ⟨.idle, if (s.queues q).jobCount = jobCount then .idle else .remaining q⟩ }
    | _ => none
  | (t, .testDeadline passed) =>
    match s.threads t with
    | ⟨.idle, .remaining q⟩ => some { s with
        threads := Function.update s.threads t
          ⟨.idle, if passed = true then .givingUp q else .popped q⟩ }
    | _ => none
  | (t, .pushBack) =>
    match s.threads t with
    | ⟨.idle, .givingUp q⟩ => some { s with
        globalQueue := s.globalQueue.push q
        threads := Function.update s.threads t ⟨.idle, .idle⟩ }
    | _ => none

/-- What one step can do, with the position it starts from. -/
inductive Moves (s : State T Q J) (t : T) : State T Q J → Prop
  | fetchAdd (q : Q) (job : J) (hp : (s.threads t).push = .idle) : Moves s t { s with
      queues := Function.update s.queues q
        { s.queues q with jobCount := (s.queues q).jobCount + 1 }
      threads := Function.update s.threads t
        ⟨.counted q job (s.queues q).jobCount, (s.threads t).exec⟩ }
  | pushJob (q : Q) (job : J) (prevCount : ℤ)
      (hp : (s.threads t).push = .counted q job prevCount) : Moves s t { s with
      queues := Function.update s.queues q
        { s.queues q with jobs := (s.queues q).jobs.push job }
      threads := Function.update s.threads t ⟨.stored q prevCount, (s.threads t).exec⟩
      pushed := Function.update s.pushed q (s.pushed q ++ [job]) }
  | pushQueue (q : Q) (prevCount : ℤ) (hp : (s.threads t).push = .stored q prevCount) :
      Moves s t { s with
      globalQueue := if prevCount = 0 then s.globalQueue.push q else s.globalQueue
      threads := Function.update s.threads t ⟨.idle, (s.threads t).exec⟩ }
  | popQueue (q : Q) (rest : List Q) (ht : s.threads t = ⟨.idle, .idle⟩)
      (hg : s.globalQueue = ⟨q :: rest⟩) : Moves s t { s with
      globalQueue := ⟨rest⟩
      threads := Function.update s.threads t ⟨.idle, .popped q⟩ }
  | popNull : Moves s t s
  | popAll (q : Q) (ht : s.threads t = ⟨.idle, .popped q⟩) : Moves s t { s with
      queues := Function.update s.queues q { s.queues q with jobs := ⟨[]⟩ }
      threads := Function.update s.threads t
        ⟨.idle, .batch q none (s.queues q).jobs.queue (s.queues q).jobs.queue.length⟩ }
  | beginJob (q : Q) (job : J) (rest : List J) (jobCount : ℕ)
      (ht : s.threads t = ⟨.idle, .batch q none (job :: rest) jobCount⟩) : Moves s t { s with
      threads := Function.update s.threads t ⟨.idle, .batch q (some job) rest jobCount⟩
      started := Function.update s.started q (s.started q ++ [job]) }
  | endJob (q : Q) (job : J) (rest : List J) (jobCount : ℕ)
      (ht : s.threads t = ⟨.idle, .batch q (some job) rest jobCount⟩) : Moves s t { s with
      threads := Function.update s.threads t ⟨.idle, .batch q none rest jobCount⟩ }
  | fetchSub (q : Q) (jobCount : ℕ) (ht : s.threads t = ⟨.idle, .batch q none [] jobCount⟩) :
      Moves s t { s with
      queues := Function.update s.queues q
        { s.queues q with jobCount := (s.queues q).jobCount - jobCount }
      threads := Function.update s.threads t
        ⟨.idle, if (s.queues q).jobCount = jobCount then .idle else .remaining q⟩ }
  | testDeadline (q : Q) (passed : Bool) (ht : s.threads t = ⟨.idle, .remaining q⟩) :
      Moves s t { s with
      threads := Function.update s.threads t
        ⟨.idle, if passed = true then .givingUp q else .popped q⟩ }
  | pushBack (q : Q) (ht : s.threads t = ⟨.idle, .givingUp q⟩) : Moves s t { s with
      globalQueue := s.globalQueue.push q
      threads := Function.update s.threads t ⟨.idle, .idle⟩ }

/-- Every enabled action is one of the moves. -/
theorem step_moves {s s' : State T Q J} {t : T} {a : Action Q J} (h : step s (t, a) = some s') :
    Moves s t s' := by
  cases a with
  | fetchAdd q job =>
    simp only [step] at h
    split at h
    · cases h
      exact .fetchAdd q job ‹_›
    · cases h
  | pushJob =>
    simp only [step] at h
    split at h
    · cases h
      exact .pushJob _ _ _ ‹_›
    · cases h
  | pushQueue =>
    simp only [step] at h
    split at h
    · cases h
      exact .pushQueue _ _ ‹_›
    · cases h
  | popQueue =>
    simp only [step] at h
    split at h
    · rcases hg : s.globalQueue with ⟨_ | ⟨q, rest⟩⟩
      · rw [hg] at h
        cases h
        exact .popNull
      · rw [hg] at h
        cases h
        exact .popQueue q rest ‹_› hg
    · cases h
  | popAll =>
    simp only [step, LockQueue.popAll_nil] at h
    split at h
    · cases h
      exact .popAll _ ‹_›
    · cases h
  | beginJob =>
    simp only [step] at h
    split at h
    · cases h
      exact .beginJob _ _ _ _ ‹_›
    · cases h
  | endJob =>
    simp only [step] at h
    split at h
    · cases h
      exact .endJob _ _ _ _ ‹_›
    · cases h
  | fetchSub =>
    simp only [step] at h
    split at h
    · cases h
      exact .fetchSub _ _ ‹_›
    · cases h
  | testDeadline passed =>
    simp only [step] at h
    split at h
    · cases h
      exact .testDeadline _ passed ‹_›
    · cases h
  | pushBack =>
    simp only [step] at h
    split at h
    · cases h
      exact .pushBack _ ‹_›
    · cases h

section Tokens

/-- A pusher that saw `prevCount == 0` and has not pushed the queue yet. -/
def PushPc.token (q : Q) : PushPc Q J → ℕ
  | .idle => 0
  | .counted q' _ prevCount => if q' = q ∧ prevCount = 0 then 1 else 0
  | .stored q' prevCount => if q' = q ∧ prevCount = 0 then 1 else 0

/-- A worker that popped the queue and neither emptied its count nor pushed
it back. -/
def ExecPc.token (q : Q) : ExecPc Q J → ℕ
  | .idle => 0
  | .popped q' => if q' = q then 1 else 0
  | .batch q' _ _ _ => if q' = q then 1 else 0
  | .remaining q' => if q' = q then 1 else 0
  | .givingUp q' => if q' = q then 1 else 0

/-- A job counted by a pusher that did not store it yet. -/
def PushPc.pending (q : Q) : PushPc Q J → ℕ
  | .counted q' _ _ => if q' = q then 1 else 0
  | _ => 0

/-- The jobs of a batch, which stay counted until the whole batch ran. -/
def ExecPc.pending (q : Q) : ExecPc Q J → ℕ
  | .batch q' _ _ jobCount => if q' = q then jobCount else 0
  | _ => 0

/-- The jobs of a batch that have not been started. -/
def ExecPc.unstarted (q : Q) : ExecPc Q J → Option (List J)
  | .batch q' _ rest _ => if q' = q then some rest else none
  | _ => none

/-- The places that are bound to get the queue executed: its occurrences in
the global queue, the workers holding it and the pushers about to push it. -/
def scheduled [Fintype T] (s : State T Q J) (q : Q) : ℕ :=
  s.globalQueue.queue.count q + ∑ t, (s.threads t).exec.token q + ∑ t, (s.threads t).push.token q

/-- A thread runs a job of the queue. -/
def Runs (s : State T Q J) (t : T) (q : Q) : Prop :=
  ∃ job rest jobCount, (s.threads t).exec = .batch q (some job) rest jobCount

/-- The pushed jobs of a queue are its started jobs, then what a worker has
not started of its batch, then the stored jobs, each in order. -/
def Split (unstarted : T → Option (List J)) (pushed started stored : List J) : Prop :=
  (∀ t rest, unstarted t = some rest → pushed = started ++ rest ++ stored) ∧
    ((∀ t, unstarted t = none) → pushed = started ++ stored)

/-- The invariant of the scheduling: one token for each queue that counts a
job, an exact count, and the pushed jobs split into started and waiting ones. -/
structure Inv [Fintype T] (s : State T Q J) : Prop where
  /-- One token exactly while something is counted. -/
  tokens : ∀ q, scheduled s q = if 0 < (s.queues q).jobCount then 1 else 0
  /-- The counter is the number of pending jobs. -/
  counted : ∀ q, (s.queues q).jobCount = ((s.queues q).jobs.queue.length +
    ∑ t, (s.threads t).exec.pending q + ∑ t, (s.threads t).push.pending q : ℕ)
  /-- No pushed job is missing, repeated or out of order. -/
  split : ∀ q, Split (fun t => (s.threads t).exec.unstarted q) (s.pushed q) (s.started q)
    (s.queues q).jobs.queue

/-- A worker with a batch holds a token. -/
theorem ExecPc.token_pos_of_unstarted {e : ExecPc Q J} {q : Q} {rest : List J}
    (h : e.unstarted q = some rest) : 0 < e.token q := by
  cases e with
  | batch q' running rest' jobCount =>
    by_cases hq : q' = q
    · simp [ExecPc.token, hq]
    · simp [ExecPc.unstarted, hq] at h
  | _ => simp [ExecPc.unstarted] at h

/-- Under the invariant two workers with a token for one queue are the same. -/
theorem Inv.holder_unique [Fintype T] {s : State T Q J} (inv : Inv s) {q : Q} {t u : T}
    (ht : 0 < (s.threads t).exec.token q) (hu : 0 < (s.threads u).exec.token q) : t = u := by
  have hs := inv.tokens q
  apply ThreadSum.eq_of_sum_le_one (f := fun th : Thread Q J => th.exec.token q) _ ht hu
  unfold scheduled at hs
  split at hs <;> omega

omit [DecidableEq T] in
/-- A worker that holds a queue finds something counted. -/
theorem Inv.jobCount_pos [Fintype T] {s : State T Q J} (inv : Inv s) {q : Q} {t : T}
    (ht : 0 < (s.threads t).exec.token q) : 0 < (s.queues q).jobCount := by
  have hs := inv.tokens q
  have hle := ThreadSum.le_sum (fun th : Thread Q J => th.exec.token q) s.threads t
  by_contra hc
  rw [if_neg hc] at hs
  unfold scheduled at hs
  omega

omit [DecidableEq T] in
/-- A batch is part of what is counted. -/
theorem Inv.batch_le [Fintype T] {s : State T Q J} (inv : Inv s) {t : T} {q : Q}
    {running : Option J} {rest : List J} {jobCount : ℕ}
    (ht : (s.threads t).exec = .batch q running rest jobCount) :
    0 < (s.queues q).jobCount ∧ jobCount ≤ (s.queues q).jobCount := by
  have hcounted := inv.counted q
  have hle := ThreadSum.le_sum (fun th : Thread Q J => th.exec.pending q) s.threads t
  have hpending : jobCount ≤ ∑ t, (s.threads t).exec.pending q := by
    simpa only [ht, ExecPc.pending, if_true] using hle
  exact ⟨inv.jobCount_pos (t := t) (by simp [ht, ExecPc.token]), by omega⟩

omit [DecidableEq T] in
/-- The initial state satisfies the invariant. -/
theorem inv_init [Fintype T] : Inv (init : State T Q J) where
  tokens q := by simp [scheduled, init, ExecPc.token, PushPc.token]
  counted q := by simp [init, ExecPc.pending, PushPc.pending]
  split q := by simp [Split, init, ExecPc.unstarted]

/-- One step keeps one token for each queue that counts a job. -/
theorem tokens_step [Fintype T] {s s' : State T Q J} {t : T} (inv : Inv s) (h : Moves s t s')
    (q : Q) : scheduled s' q = if 0 < (s'.queues q).jobCount then 1 else 0 := by
  have hs := inv.tokens q
  have hmoved := ThreadSum.sum_update_add (fun th : Thread Q J => th.exec.token q)
    (fun th => th.push.token q) s.threads t
  unfold scheduled at hs ⊢
  cases h with
  | fetchAdd q' job hp =>
    have hm := hmoved ⟨.counted q' job (s.queues q').jobCount, (s.threads t).exec⟩
    have hc := inv.counted q
    by_cases hq : q' = q
    · subst hq
      simp only [hp, PushPc.token, Function.update_self, true_and] at hm hs ⊢
      split_ifs at hs hm ⊢ <;> omega
    · simp only [hp, hq, PushPc.token, Function.update_of_ne (Ne.symm hq), false_and,
        if_false] at hm hs ⊢
      omega
  | pushJob q' job prevCount hp =>
    have hm := hmoved ⟨.stored q' prevCount, (s.threads t).exec⟩
    by_cases hq : q' = q
    · subst hq
      simp only [hp, PushPc.token, Function.update_self] at hm hs ⊢
      omega
    · simp only [hp, PushPc.token, Function.update_of_ne (Ne.symm hq)] at hm hs ⊢
      omega
  | pushQueue q' prevCount hp =>
    have hm := hmoved ⟨.idle, (s.threads t).exec⟩
    by_cases hz : prevCount = 0
    · simp only [hp, hz, PushPc.token, and_true, if_true, LockQueue.push_queue, List.count_append,
        List.count_singleton, beq_iff_eq] at hm hs ⊢
      omega
    · simp only [hp, hz, PushPc.token, and_false, if_false] at hm hs ⊢
      omega
  | popQueue q' rest ht hg =>
    have hm := hmoved ⟨.idle, .popped q'⟩
    simp only [ht, hg, List.count_cons, beq_iff_eq, PushPc.token, ExecPc.token] at hm hs ⊢
    omega
  | popNull => exact hs
  | popAll q' ht =>
    have hm := hmoved ⟨.idle, .batch q' none (s.queues q').jobs.queue
      (s.queues q').jobs.queue.length⟩
    by_cases hq : q' = q
    · subst hq
      simp only [ht, PushPc.token, ExecPc.token, Function.update_self] at hm hs ⊢
      omega
    · simp only [ht, PushPc.token, ExecPc.token,
        Function.update_of_ne (Ne.symm hq)] at hm hs ⊢
      omega
  | beginJob q' job rest jobCount ht =>
    have hm := hmoved ⟨.idle, .batch q' (some job) rest jobCount⟩
    simp only [ht, PushPc.token, ExecPc.token] at hm hs ⊢
    omega
  | endJob q' job rest jobCount ht =>
    have hm := hmoved ⟨.idle, .batch q' none rest jobCount⟩
    simp only [ht, PushPc.token, ExecPc.token] at hm hs ⊢
    omega
  | fetchSub q' jobCount ht =>
    obtain ⟨hpos, hle⟩ := inv.batch_le (t := t) (congrArg Thread.exec ht)
    by_cases hz : (s.queues q').jobCount = jobCount
    · have hm := hmoved ⟨.idle, .idle⟩
      by_cases hq : q' = q
      · subst hq
        simp only [ht, hz, PushPc.token, ExecPc.token, Function.update_self,
          if_true] at hm hs hpos ⊢
        rw [if_pos hpos] at hs
        simp only [sub_self, lt_irrefl, if_false]
        omega
      · simp only [ht, hz, hq, PushPc.token, ExecPc.token, Function.update_of_ne (Ne.symm hq),
          if_true, if_false] at hm hs ⊢
        omega
    · have hm := hmoved ⟨.idle, .remaining q'⟩
      by_cases hq : q' = q
      · subst hq
        have hrest : 0 < (s.queues q').jobCount - jobCount := by omega
        rw [if_pos hpos] at hs
        simp only [ht, hz, PushPc.token, ExecPc.token, Function.update_self, if_true, if_false,
          if_pos hrest] at hm hs ⊢
        omega
      · simp only [ht, hz, PushPc.token, ExecPc.token, Function.update_of_ne (Ne.symm hq),
          if_false] at hm hs ⊢
        omega
  | testDeadline q' passed ht =>
    have hm := hmoved ⟨.idle, if passed = true then .givingUp q' else .popped q'⟩
    cases passed <;> simp only [ht, PushPc.token, ExecPc.token, if_true, Bool.false_eq_true,
      if_false] at hm hs ⊢ <;> omega
  | pushBack q' ht =>
    have hm := hmoved ⟨.idle, .idle⟩
    simp only [ht, PushPc.token, ExecPc.token, LockQueue.push_queue, List.count_append,
      List.count_singleton, beq_iff_eq] at hm hs ⊢
    omega

/-- One step keeps the counter equal to the number of pending jobs. -/
theorem counted_step [Fintype T] {s s' : State T Q J} {t : T} (inv : Inv s) (h : Moves s t s')
    (q : Q) : (s'.queues q).jobCount = ((s'.queues q).jobs.queue.length +
      ∑ t, (s'.threads t).exec.pending q + ∑ t, (s'.threads t).push.pending q : ℕ) := by
  have hc := inv.counted q
  have hmoved := ThreadSum.sum_update_add (fun th : Thread Q J => th.exec.pending q)
    (fun th => th.push.pending q) s.threads t
  cases h with
  | fetchAdd q' job hp =>
    have hm := hmoved ⟨.counted q' job (s.queues q').jobCount, (s.threads t).exec⟩
    by_cases hq : q' = q
    · subst hq
      simp only [hp, PushPc.pending, Function.update_self, if_true] at hm hc ⊢
      omega
    · simp only [hp, hq, PushPc.pending, Function.update_of_ne (Ne.symm hq),
        if_false] at hm hc ⊢
      omega
  | pushJob q' job prevCount hp =>
    have hm := hmoved ⟨.stored q' prevCount, (s.threads t).exec⟩
    by_cases hq : q' = q
    · subst hq
      simp only [hp, PushPc.pending, Function.update_self, if_true, LockQueue.push_queue,
        List.length_append, List.length_singleton] at hm hc ⊢
      omega
    · simp only [hp, hq, PushPc.pending, Function.update_of_ne (Ne.symm hq),
        if_false] at hm hc ⊢
      omega
  | pushQueue q' prevCount hp =>
    have hm := hmoved ⟨.idle, (s.threads t).exec⟩
    simp only [hp, PushPc.pending] at hm hc ⊢
    omega
  | popQueue q' rest ht hg =>
    have hm := hmoved ⟨.idle, .popped q'⟩
    simp only [ht, PushPc.pending, ExecPc.pending] at hm hc ⊢
    omega
  | popNull => exact hc
  | popAll q' ht =>
    have hm := hmoved ⟨.idle, .batch q' none (s.queues q').jobs.queue
      (s.queues q').jobs.queue.length⟩
    by_cases hq : q' = q
    · subst hq
      simp only [ht, PushPc.pending, ExecPc.pending, Function.update_self, if_true,
        List.length_nil] at hm hc ⊢
      omega
    · simp only [ht, hq, PushPc.pending, ExecPc.pending, Function.update_of_ne (Ne.symm hq),
        if_false] at hm hc ⊢
      omega
  | beginJob q' job rest jobCount ht =>
    have hm := hmoved ⟨.idle, .batch q' (some job) rest jobCount⟩
    simp only [ht, PushPc.pending, ExecPc.pending] at hm hc ⊢
    omega
  | endJob q' job rest jobCount ht =>
    have hm := hmoved ⟨.idle, .batch q' none rest jobCount⟩
    simp only [ht, PushPc.pending, ExecPc.pending] at hm hc ⊢
    omega
  | fetchSub q' jobCount ht =>
    have hm := hmoved ⟨.idle, if (s.queues q').jobCount = jobCount then .idle else .remaining q'⟩
    have hz : (if (s.queues q').jobCount = jobCount then ExecPc.idle
        else ExecPc.remaining q' : ExecPc Q J).pending q = 0 := by split <;> rfl
    dsimp only at hm ⊢
    rw [hz] at hm
    by_cases hq : q' = q
    · subst hq
      simp only [ht, PushPc.pending, ExecPc.pending, Function.update_self, if_true] at hm hc ⊢
      omega
    · simp only [ht, hq, PushPc.pending, ExecPc.pending, Function.update_of_ne (Ne.symm hq),
        if_false] at hm hc ⊢
      omega
  | testDeadline q' passed ht =>
    have hm := hmoved ⟨.idle, if passed = true then .givingUp q' else .popped q'⟩
    cases passed <;> simp only [ht, PushPc.pending, ExecPc.pending, if_true, Bool.false_eq_true,
      if_false] at hm hc ⊢ <;> omega
  | pushBack q' ht =>
    have hm := hmoved ⟨.idle, .idle⟩
    simp only [ht, PushPc.pending, ExecPc.pending] at hm hc ⊢
    omega

/-- A thread that keeps its unstarted jobs leaves the view of them unchanged. -/
theorem unstarted_update {threads : T → Thread Q J} {t : T} {th : Thread Q J} {q : Q}
    (h : th.exec.unstarted q = (threads t).exec.unstarted q) :
    (fun u => (Function.update threads t th u).exec.unstarted q) =
      fun u => (threads u).exec.unstarted q := by
  funext u
  by_cases hu : u = t
  · subst hu
    rw [Function.update_self, h]
  · rw [Function.update_of_ne hu]

omit [DecidableEq T] in
/-- Storing one more job extends both sides of the split. -/
theorem Split.append {unstarted : T → Option (List J)} {pushed started stored : List J}
    (h : Split unstarted pushed started stored) (job : J) :
    Split unstarted (pushed ++ [job]) started (stored ++ [job]) := by
  constructor
  · intro t rest ht
    rw [h.1 t rest ht, List.append_assoc _ stored]
  · intro hnone
    rw [h.2 hnone, List.append_assoc _ stored]

/-- When no other thread has a batch of the queue, the split is that of the
thread that moved. -/
theorem split_of_holder {threads : T → Thread Q J} {t : T} {th : Thread Q J} {q : Q}
    {pushed started stored : List J}
    (hother : ∀ u, u ≠ t → (threads u).exec.unstarted q = none)
    (h : pushed = started ++ (th.exec.unstarted q).getD [] ++ stored) :
    Split (fun u => (Function.update threads t th u).exec.unstarted q) pushed started stored := by
  constructor
  · intro u rest hr
    dsimp only at hr
    by_cases hu : u = t
    · subst hu
      rw [Function.update_self] at hr
      rw [h, hr, Option.getD_some]
    · rw [Function.update_of_ne hu, hother u hu] at hr
      cases hr
  · intro hall
    have ht := hall t
    dsimp only at ht
    rw [Function.update_self] at ht
    rw [h, ht, Option.getD_none, List.append_nil]

/-- One step keeps the pushed jobs split into started and waiting ones. -/
theorem split_step [Fintype T] {s s' : State T Q J} {t : T} (inv : Inv s) (h : Moves s t s')
    (q : Q) : Split (fun t => (s'.threads t).exec.unstarted q) (s'.pushed q) (s'.started q)
      (s'.queues q).jobs.queue := by
  have hs := inv.split q
  -- a second thread with a batch would be a second token
  have hother : 0 < (s.threads t).exec.token q →
      ∀ u, u ≠ t → (s.threads u).exec.unstarted q = none := by
    intro ht u hu
    cases hr : (s.threads u).exec.unstarted q with
    | none => rfl
    | some rest => exact absurd (inv.holder_unique (ExecPc.token_pos_of_unstarted hr) ht) hu
  cases h with
  | fetchAdd q' job hp =>
    dsimp only
    rw [unstarted_update (by rfl)]
    by_cases hq : q' = q
    · subst hq
      simpa only [Function.update_self] using hs
    · simpa only [Function.update_of_ne (Ne.symm hq)] using hs
  | pushJob q' job prevCount hp =>
    dsimp only
    rw [unstarted_update (by rfl)]
    by_cases hq : q' = q
    · subst hq
      simpa only [Function.update_self, LockQueue.push_queue] using hs.append job
    · simpa only [Function.update_of_ne (Ne.symm hq)] using hs
  | pushQueue q' prevCount hp =>
    dsimp only
    rw [unstarted_update (by rfl)]
    exact hs
  | popQueue q' rest ht hg =>
    dsimp only
    rw [unstarted_update (by simp only [ht, ExecPc.unstarted])]
    exact hs
  | popNull => exact hs
  | popAll q' ht =>
    dsimp only
    by_cases hq : q' = q
    · subst hq
      have hrest := hother (by simp [ht, ExecPc.token])
      have hnone : ∀ u, (s.threads u).exec.unstarted q' = none := by
        intro u
        by_cases hu : u = t
        · simp only [hu, ht, ExecPc.unstarted]
        · exact hrest u hu
      apply split_of_holder hrest
      simpa only [Function.update_self, ExecPc.unstarted, if_true, Option.getD_some,
        List.append_nil] using hs.2 hnone
    · rw [unstarted_update (by simp only [ht, hq, ExecPc.unstarted, if_false])]
      simpa only [Function.update_of_ne (Ne.symm hq)] using hs
  | beginJob q' job rest jobCount ht =>
    dsimp only
    by_cases hq : q' = q
    · subst hq
      apply split_of_holder (hother (by simp [ht, ExecPc.token]))
      have hp := hs.1 t (job :: rest) (by simp only [ht, ExecPc.unstarted, if_true])
      simpa only [Function.update_self, ExecPc.unstarted, if_true, Option.getD_some,
        List.append_assoc, List.singleton_append, List.cons_append, List.nil_append] using hp
    · rw [unstarted_update (by simp only [ht, hq, ExecPc.unstarted, if_false])]
      simpa only [Function.update_of_ne (Ne.symm hq)] using hs
  | endJob q' job rest jobCount ht =>
    dsimp only
    rw [unstarted_update (by simp only [ht, ExecPc.unstarted])]
    exact hs
  | fetchSub q' jobCount ht =>
    have hz : (if (s.queues q').jobCount = jobCount then ExecPc.idle
        else ExecPc.remaining q' : ExecPc Q J).unstarted q = none := by split <;> rfl
    dsimp only
    by_cases hq : q' = q
    · subst hq
      apply split_of_holder (hother (by simp [ht, ExecPc.token]))
      have hp := hs.1 t [] (by simp only [ht, ExecPc.unstarted, if_true])
      simpa only [Function.update_self, hz, Option.getD_none] using hp
    · rw [unstarted_update (by rw [hz]; simp only [ht, hq, ExecPc.unstarted, if_false])]
      simpa only [Function.update_of_ne (Ne.symm hq)] using hs
  | testDeadline q' passed ht =>
    dsimp only
    rw [unstarted_update (by cases passed <;> simp [ht, ExecPc.unstarted])]
    exact hs
  | pushBack q' ht =>
    dsimp only
    rw [unstarted_update (by simp only [ht, ExecPc.unstarted])]
    exact hs

/-- One step keeps the invariant. -/
theorem inv_step [Fintype T] {s s' : State T Q J} {t : T} (inv : Inv s) (h : Moves s t s') :
    Inv s' where
  tokens := tokens_step inv h
  counted := counted_step inv h
  split := split_step inv h

/-- The invariant holds after every interleaving. -/
theorem inv_reachable [Fintype T] {s : State T Q J} (h : Reachable step init s) : Inv s :=
  h.invariant inv_init fun _ _ _ inv hs => inv_step inv (step_moves hs)

/-- The jobs pushed and not started: those left of a worker's batch, then
the stored ones. -/
def Waiting (s : State T Q J) (q : Q) (jobs : List J) : Prop :=
  (∃ t rest, (s.threads t).exec.unstarted q = some rest ∧
      jobs = rest ++ (s.queues q).jobs.queue) ∨
    (∀ t, (s.threads t).exec.unstarted q = none) ∧ jobs = (s.queues q).jobs.queue

/-- What the scheduling guarantees for one queue. -/
structure SingleExecutor [Fintype T] (s : State T Q J) (q : Q) : Prop where
  /-- The counter is never negative. -/
  count_nonneg : 0 ≤ (s.queues q).jobCount
  /-- While something is counted, exactly one place gets the queue executed. -/
  scheduled_once : 0 < (s.queues q).jobCount → scheduled s q = 1
  /-- While nothing is counted, no place does. -/
  scheduled_never : (s.queues q).jobCount = 0 → scheduled s q = 0
  /-- Two threads never run jobs of the queue at the same time. -/
  executor_unique : ∀ t u, Runs s t q → Runs s u q → t = u
  /-- Jobs start in the order they were stored, each at most once. -/
  in_order : s.started q <+: s.pushed q
  /-- A stored job that was not started is in a worker's batch or still
  stored, and the queue is bound to be executed. -/
  none_lost : ∃ waiting, s.pushed q = s.started q ++ waiting ∧ Waiting s q waiting ∧
    (waiting ≠ [] → scheduled s q = 1)

omit [DecidableEq T] in
/-- A running job makes its thread a holder of the queue. -/
theorem Runs.token_pos {s : State T Q J} {t : T} {q : Q} (h : Runs s t q) :
    0 < (s.threads t).exec.token q := by
  obtain ⟨job, rest, jobCount, he⟩ := h
  simp [he, ExecPc.token]

omit [DecidableEq T] in
/-- The unstarted jobs are those of the one batch, or there is no batch. -/
theorem Inv.exists_waiting [Fintype T] {s : State T Q J} (inv : Inv s) (q : Q) :
    ∃ waiting, s.pushed q = s.started q ++ waiting ∧ Waiting s q waiting := by
  by_cases hb : ∃ t rest, (s.threads t).exec.unstarted q = some rest
  · obtain ⟨t, rest, hr⟩ := hb
    have hp := (inv.split q).1 t rest hr
    rw [List.append_assoc] at hp
    exact ⟨_, hp, .inl ⟨t, rest, hr, rfl⟩⟩
  · have hnone : ∀ t, (s.threads t).exec.unstarted q = none := by
      intro t
      cases hr : (s.threads t).exec.unstarted q with
      | none => rfl
      | some rest => exact absurd ⟨t, rest, hr⟩ hb
    exact ⟨_, (inv.split q).2 hnone, .inr ⟨hnone, rfl⟩⟩

omit [DecidableEq T] in
/-- A waiting job is counted: a batch belongs to a holder, and stored jobs
are part of the count. -/
theorem Inv.jobCount_pos_of_waiting [Fintype T] {s : State T Q J} (inv : Inv s) {q : Q}
    {waiting : List J} (hw : Waiting s q waiting) (hne : waiting ≠ []) :
    0 < (s.queues q).jobCount := by
  rcases hw with ⟨t, rest, hr, _⟩ | ⟨_, hj⟩
  · exact inv.jobCount_pos (ExecPc.token_pos_of_unstarted hr)
  · have hlen : 0 < (s.queues q).jobs.queue.length := List.length_pos_iff.mpr (hj ▸ hne)
    have hc := inv.counted q
    omega

/-- In every interleaving of any number of pushers and workers, a queue with
counted jobs is scheduled exactly once, one thread at a time runs its jobs, in
the order they were stored, and no job is lost or run twice. The counter of the
source behaves so while fewer than 2^31 jobs of a queue are pending. -/
theorem jobQueue_single_executor [Fintype T] {s : State T Q J} (h : Reachable step init s)
    (q : Q) : SingleExecutor s q := by
  have inv := inv_reachable h
  have hone : 0 < (s.queues q).jobCount → scheduled s q = 1 := by
    intro hc
    rw [inv.tokens q, if_pos hc]
  obtain ⟨waiting, hp, hw⟩ := inv.exists_waiting q
  constructor
  · rw [inv.counted q]
    exact Int.natCast_nonneg _
  · exact hone
  · intro hc
    rw [inv.tokens q, if_neg (by omega)]
  · intro t u ht hu
    exact inv.holder_unique ht.token_pos hu.token_pos
  · exact ⟨waiting, hp.symm⟩
  · exact ⟨waiting, hp, hw, fun hne => hone (inv.jobCount_pos_of_waiting hw hne)⟩

/-- One thread pushes a job and counts a second one; the other runs the first,
which pushes a third to its own queue. -/
def nestedPushes : List (Fin 2 × Action Bool ℕ) :=
  [(0, .fetchAdd true 1), (0, .pushJob), (0, .pushQueue), (1, .popQueue), (0, .fetchAdd true 2),
    (1, .popAll), (1, .beginJob), (1, .fetchAdd true 3), (1, .pushJob)]

theorem jobQueue_single_executor_nested :
    ∃ s : State (Fin 2) Bool ℕ, run step init nestedPushes = some s ∧ SingleExecutor s true := by
  have hsome : (run step (init : State (Fin 2) Bool ℕ) nestedPushes).isSome = true := by decide
  obtain ⟨s, hs⟩ := Option.isSome_iff_exists.mp hsome
  exact ⟨s, hs, jobQueue_single_executor ⟨nestedPushes, hs⟩ true⟩

end Tokens

end System

end RioIocpServer.JobScheduling
