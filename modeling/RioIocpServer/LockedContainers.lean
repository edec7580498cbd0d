import RioIocpServer.LockedObject
import RioIocpServer.ThreadManager
import RioIocpServer.JobScheduling
import RioIocpServer.Contents

/-!
# The containers with a lock of their own

`LockQueue`, `LockUnorderedSet` and `LockMap` do their work under a `WriteLockGuard`.
Each access of the standard container inside is one step; `front` and `pop` of an empty
`queue` are not defined. Compared with them are the atomic operations the job queues
and the room are modelled with.
-/

namespace RioIocpServer.LockedContainers

open TransitionSystem Linearization LockedObject
open JobScheduling (LockQueue)
open Contents (UnorderedSet)

section Queues

variable {α : Type*}

/-- The methods of `LockQueue`. -/
inductive QueueOp (α : Type*) where
  /-- `Push`. -/
  | push (item : α)
  /-- `Pop`. -/
  | pop
  /-- `PopAll`, with the vector it is given. -/
  | popAll (items : List α)
  /-- `Clear`. -/
  | clear
  deriving DecidableEq

/-- Where a thread stands in the body of a method. -/
inductive QueueLocal (α : Type*) where
  /-- At `m_queue.push` of `Push`. -/
  | push (item : α)
  /-- At `m_queue.empty` of `Pop`. -/
  | popEmpty
  /-- At `m_queue.front` of `Pop`. -/
  | popFront
  /-- At `m_queue.pop` of `Pop`. -/
  | popPop (ret : α)
  /-- At `m_queue.size` of `PopAll`. -/
  | allSize (items : List α)
  /-- At `m_queue.front` of `PopAll`. -/
  | allFront (items : List α)
  /-- At `m_queue.pop` of `PopAll`, with `push_back` behind it. -/
  | allPop (item : α) (items : List α)
  /-- At the assignment of `Clear`. -/
  | clear

/-- What the methods return. -/
inductive QueueReply (α : Type*) where
  /-- Nothing. -/
  | done
  /-- An item, or `T()`. -/
  | item (ret : Option α)
  /-- The vector that was given. -/
  | items (items : List α)
  deriving DecidableEq

/-- The bodies of the methods of `LockQueue`. -/
def lockQueue : Program (LockQueue α) (QueueOp α) (QueueLocal α) (QueueReply α) where
  start
    | .push item => .push item
    | .pop => .popEmpty
    | .popAll items => .allSize items
    | .clear => .clear
  next
    | ⟨queue⟩, .push item => some (⟨queue ++ [item]⟩, .inr .done)
    | ⟨[]⟩, .popEmpty => some (⟨[]⟩, .inr (.item none))
    | ⟨item :: rest⟩, .popEmpty => some (⟨item :: rest⟩, .inl .popFront)
    | ⟨[]⟩, .popFront => none
    | ⟨item :: rest⟩, .popFront => some (⟨item :: rest⟩, .inl (.popPop item))
    | ⟨[]⟩, .popPop _ => none
    | ⟨_ :: rest⟩, .popPop ret => some (⟨rest⟩, .inr (.item (some ret)))
    | ⟨[]⟩, .allSize items => some (⟨[]⟩, .inr (.items items))
    | ⟨item :: rest⟩, .allSize items => some (⟨item :: rest⟩, .inl (.allFront items))
    | ⟨[]⟩, .allFront _ => none
    | ⟨item :: rest⟩, .allFront items => some (⟨item :: rest⟩, .inl (.allPop item items))
    | ⟨[]⟩, .allPop _ _ => none
    | ⟨_ :: rest⟩, .allPop item items => some (⟨rest⟩, .inl (.allSize (items ++ [item])))
    | ⟨_⟩, .clear => some (⟨[]⟩, .inr .done)

/-- The methods of `LockQueue` as the job queues use them: atomic. -/
def queueSpec : QueueOp α → LockQueue α → QueueReply α × LockQueue α
  | .push item, q => (.done, q.push item)
  | .pop, q => (.item q.pop.1, q.pop.2)
  | .popAll items, q => (.items (q.popAll items).1, (q.popAll items).2)
  | .clear, _ => (.done, ⟨[]⟩)

/-- The loop of `PopAll` ends with the vector and an empty queue. -/
theorem ends_popAll (queue items : List α) :
    Ends lockQueue ⟨queue⟩ (.allSize items) (.items (LockQueue.popAllLoop queue items)) ⟨[]⟩ := by
  induction queue generalizing items with
  | nil => exact .done rfl
  | cons item rest ih => exact .step rfl (.step rfl (.step rfl (ih (items ++ [item]))))

/-- The methods of `LockQueue` do alone what the atomic ones do. -/
theorem lockQueue_implements : Implements (lockQueue (α := α)) queueSpec := by
  rintro op ⟨queue⟩
  cases op with
  | push item => exact .done rfl
  | pop =>
    cases queue with
    | nil => exact .done rfl
    | cons item rest => exact .step rfl (.step rfl (.done rfl))
  | popAll items => exact ends_popAll queue items
  | clear => exact .done rfl

/-- The item an operation puts into the queue. -/
def pushedBy : QueueOp α × QueueReply α → List α
  | (.push item, _) => [item]
  | _ => []

/-- The items an operation hands out. -/
def handedOutBy : QueueOp α × QueueReply α → List α
  | (.pop, .item ret) => ret.toList
  | (.popAll given, .items items) => items.drop given.length
  | _ => []

/-- What has been handed out and what is stored, in order, are the items pushed, in
order; only `Clear` drops some. -/
structure Fifo (ops : List (QueueOp α × QueueReply α)) (q : LockQueue α) : Prop where
  /-- Nothing is handed out that was not pushed before, nothing twice or out of order. -/
  sublist : (ops.flatMap handedOutBy ++ q.queue).Sublist (ops.flatMap pushedBy)
  /-- Nothing is lost but by `Clear`. -/
  eq_of_kept : (∀ reply, (.clear, reply) ∉ ops) →
    ops.flatMap handedOutBy ++ q.queue = ops.flatMap pushedBy

/-- Handing out what an atomic operation hands out takes it from the front of the queue. -/
theorem handedOut_spec (op : QueueOp α) (q : LockQueue α) (hop : op ≠ .clear) :
    handedOutBy (op, (queueSpec op q).1) ++ (queueSpec op q).2.queue =
      q.queue ++ pushedBy (op, (queueSpec op q).1) := by
  obtain ⟨queue⟩ := q
  cases op with
  | push item => rfl
  | pop =>
    cases queue with
    | nil => rfl
    | cons item rest => simp [queueSpec, LockQueue.pop, handedOutBy, pushedBy]
  | popAll items =>
    simp [queueSpec, LockQueue.popAll, LockQueue.popAllLoop_eq, handedOutBy, pushedBy]
  | clear => exact (hop rfl).elim

/-- Atomic operations keep the order. -/
theorem fifo_of_legal {ops : List (QueueOp α × QueueReply α)} {q : LockQueue α}
    (h : Legal queueSpec ⟨[]⟩ ops q) : Fifo ops q := by
  refine h.induct ⟨List.Sublist.refl _, fun _ => rfl⟩ fun ops q op fifo => ?_
  by_cases hop : op = .clear
  · subst hop
    constructor
    · simp only [List.flatMap_append, List.flatMap_singleton, queueSpec, handedOutBy, pushedBy,
        List.append_nil]
      exact (List.sublist_append_left _ _).trans fifo.sublist
    · intro hkept
      exact (hkept _ (List.mem_append_right _ List.mem_cons_self)).elim
  · have hspec := handedOut_spec op q hop
    constructor
    · simp only [List.flatMap_append, List.flatMap_singleton]
      rw [List.append_assoc, hspec, ← List.append_assoc]
      exact fifo.sublist.append_right _
    · intro hkept
      simp only [List.flatMap_append, List.flatMap_singleton]
      rw [List.append_assoc, hspec, ← List.append_assoc,
        fifo.eq_of_kept fun reply hmem => hkept reply (List.mem_append_left _ hmem)]

end Queues

section Keyed

/-- A container with elements found by their keys. -/
structure Container (σ ι κ : Type*) [DecidableEq κ] where
  /-- The key of an element. -/
  key : ι → κ
  /-- `insert`. -/
  insert : ι → σ → σ
  /-- `count`, not 0. -/
  count : κ → σ → Bool
  /-- `erase`. -/
  erase : κ → σ → σ
  /-- An `insert` makes the key of the element found. -/
  count_insert : ∀ k i data, count k (insert i data) = (decide (k = key i) || count k data)
  /-- An `erase` makes its key not found. -/
  count_erase : ∀ k k' data, count k (erase k' data) = (decide (k ≠ k') && count k data)

/-- The methods that change a container. -/
inductive KeyedOp (ι κ : Type*) where
  /-- `Insert`. -/
  | insert (item : ι)
  /-- `Erase`. -/
  | erase (item : κ)
  deriving DecidableEq

/-- Where a thread stands in the body of a method. -/
inductive KeyedLocal (ι κ : Type*) where
  /-- At the `insert` of `Insert`. -/
  | insert (item : ι)
  /-- At the `count` of `Erase`. -/
  | count (item : κ)
  /-- At the `erase` of `Erase`. -/
  | erase (item : κ)

variable {σ ι κ : Type*} [DecidableEq κ] (c : Container σ ι κ)

/-- The bodies of `Insert` and `Erase`; `Insert` returns nothing. -/
def Container.program : Program σ (KeyedOp ι κ) (KeyedLocal ι κ) (Option Bool) where
  start
    | .insert item => .insert item
    | .erase item => .count item
  next
    | data, .insert item => some (c.insert item data, .inr none)
    | data, .count item =>
      if c.count item data = true then some (data, .inl (.erase item))
      else some (data, .inr (some false))
    | data, .erase item => some (c.erase item data, .inr (some true))

/-- The methods as atomic operations. -/
def Container.spec : KeyedOp ι κ → σ → Option Bool × σ
  | .insert item, data => (none, c.insert item data)
  | .erase item, data =>
    if c.count item data = true then (some true, c.erase item data) else (some false, data)

/-- The methods do alone what the atomic ones do. -/
theorem Container.implements : Implements c.program c.spec := by
  intro op data
  cases op with
  | insert item => exact .done rfl
  | erase item =>
    rw [Container.spec]
    by_cases h : c.count item data = true
    · rw [if_pos h]
      exact .step (if_pos h) (.done rfl)
    · rw [if_neg h]
      exact .done (if_neg h)

/-- How often an element with a key was inserted. -/
def Container.inserted (k : κ) (ops : List (KeyedOp ι κ × Option Bool)) : ℕ :=
  ops.countP fun
    | (.insert item, _) => c.key item = k
    | _ => false

/-- How often an `Erase` of a key returned true. -/
def erased (k : κ) (ops : List (KeyedOp ι κ × Option Bool)) : ℕ :=
  ops.countP fun
    | (.erase item, result) => item = k ∧ result = some true
    | _ => false

/-- Every `Erase` that returned true has an `Insert` of its own before it, and so has
an element that is stored. -/
def Container.ErasesInserted (ops : List (KeyedOp ι κ × Option Bool)) (data : σ) : Prop :=
  ∀ k, erased k ops + (if c.count k data = true then 1 else 0) ≤ c.inserted k ops

/-- Atomic operations erase what was inserted, once. -/
theorem Container.erasesInserted_of_legal {ops : List (KeyedOp ι κ × Option Bool)} {d data : σ}
    (hempty : ∀ k, c.count k d = false) (h : Legal c.spec d ops data) :
    c.ErasesInserted ops data := by
  have hinit : c.ErasesInserted [] d := by
    intro k
    rw [hempty]
    exact le_refl 0
  refine h.induct hinit fun ops data op hops k => ?_
  have hold := hops k
  simp only [erased, Container.inserted] at hold ⊢
  rw [List.countP_append, List.countP_append, List.countP_singleton, List.countP_singleton]
  cases op with
  | insert item =>
    simp only [Container.spec, c.count_insert, Bool.or_eq_true, decide_eq_true_eq,
      Bool.false_eq_true, if_false]
    by_cases hk : k = c.key item
    · rw [if_pos (.inl hk), if_pos hk.symm]
      split at hold <;> omega
    · rw [if_neg (Ne.symm hk)]
      simpa [hk] using hold
  | erase item =>
    rw [Container.spec]
    by_cases hcount : c.count item data = true
    · rw [if_pos hcount]
      simp only [c.count_erase, Bool.and_eq_true, decide_eq_true_eq, Bool.false_eq_true, if_false]
      by_cases hk : item = k
      · subst hk
        rw [if_pos hcount] at hold
        simpa using hold
      · have hk' : k ≠ item := fun h => hk h.symm
        simpa [hk, hk'] using hold
    · rw [if_neg hcount]
      simpa using hold

end Keyed

/-- `LockUnorderedSet`. -/
def lockUnorderedSet (α : Type*) [DecidableEq α] : Container (UnorderedSet α) α α where
  key item := item
  insert item set := set.insert item
  count item set := item ∈ set
  erase item set := set.erase item
  count_insert k i set := by
    rw [← Bool.decide_or]
    exact decide_eq_decide.mpr UnorderedSet.mem_insert
  count_erase k k' set := by
    rw [← Bool.decide_and]
    exact decide_eq_decide.mpr UnorderedSet.mem_erase

/-- `LockMap`; `insert` of a `map` keeps the value a key has. -/
def lockMap (Key Value : Type*) [DecidableEq Key] :
    Container (Key → Option Value) (Key × Value) Key where
  key item := item.1
  insert item map := if (map item.1).isSome = true then map else Function.update map item.1 item.2
  count k map := (map k).isSome
  erase k map := Function.update map k none
  count_insert k i map := by
    by_cases hk : k = i.1
    · subst hk
      split <;> simp_all
    · split <;> simp [hk, Function.update_of_ne]
  count_erase k k' map := by
    by_cases hk : k = k'
    · subst hk
      simp
    · simp [hk, Function.update_of_ne]

/-- However the accesses of fewer than 65535 threads, with different ids that fit the flag,
to the lock and to the `queue` are interleaved: the methods of a `LockQueue` act as the
atomic ones the job queues are modelled with, no thread asks an empty `queue` for its
front, and the items are handed out in the order in which they were pushed, each of them
once. -/
theorem lockQueue_actsAtomically {T α : Type*} [DecidableEq T] [Fintype T]
    {lThreadId : T → BitVec 32} (ids : RWLock.DistinctIds lThreadId)
    (hcard : Fintype.card T < 65535)
    {s : State T (LockQueue α) (QueueOp α) (QueueLocal α) (QueueReply α)}
    (h : Reachable (step lThreadId lockQueue) (init ⟨[]⟩) s) :
    ∃ committed, ActsAtomically queueSpec ⟨[]⟩ lockQueue s committed ∧
      Fifo (effects s.events) committed := by
  obtain ⟨committed, acts⟩ := (inv_reachable ids hcard lockQueue_implements h).actsAtomically
  exact ⟨committed, acts, fifo_of_legal acts.legal⟩

/-- One thread pushes an item while another one waits for the lock to pop it. -/
def pushWhilePopping : List (Bool × Action (QueueOp ℕ)) :=
  [(true, .invoke (.push 5)), (false, .invoke .pop), (false, .lock .load), (true, .lock .load),
    (true, .lock (.cas false)), (false, .lock (.cas false)), (true, .lock .increment),
    (true, .access), (false, .lock (.cas false)), (true, .lock .load), (true, .lock .decrement),
    (true, .lock .store), (false, .lock (.cas false)), (false, .lock .increment),
    (false, .access), (false, .access), (false, .access)]

/-- The item is handed out. -/
theorem lockQueue_actsAtomically_two : ∃ s, run (step RWLock.twoIds lockQueue) (init ⟨[]⟩)
      pushWhilePopping = some s ∧
    effects s.events = [(.push 5, .done), (.pop, .item (some 5))] ∧
    ∃ committed, ActsAtomically queueSpec ⟨[]⟩ lockQueue s committed ∧
      Fifo (effects s.events) committed := by
  have h : ((run (step RWLock.twoIds lockQueue) (init ⟨[]⟩) pushWhilePopping).any fun s =>
      effects s.events = [(.push 5, .done), (.pop, .item (some 5))]) = true := by
    decide +kernel
  obtain ⟨s, hr, heffects⟩ := (Option.any_eq_true _ _).mp h
  exact ⟨s, hr, of_decide_eq_true heffects,
    lockQueue_actsAtomically ThreadManager.distinct_twoIds (by decide) ⟨_, hr⟩⟩

/-- The same holds of the sets of the sectors and of the map of the room, for such threads;
what a thread sees between `ReadLock` and `ReadUnlock` is the container as it was left by whole
methods and stays as it is, and an `Erase` returns true only for something that was
inserted and not erased since. -/
theorem lockedContainers_actAtomically {T α Key Value : Type*} [DecidableEq T] [Fintype T]
    [DecidableEq α] [DecidableEq Key] {lThreadId : T → BitVec 32}
    (ids : RWLock.DistinctIds lThreadId) (hcard : Fintype.card T < 65535) :
    (∀ s, Reachable (step lThreadId (lockUnorderedSet α).program) (init .empty) s →
      ∃ committed,
        ActsAtomically (lockUnorderedSet α).spec .empty (lockUnorderedSet α).program s committed ∧
        (lockUnorderedSet α).ErasesInserted (effects s.events) committed) ∧
    ∀ s, Reachable (step lThreadId (lockMap Key Value).program) (init fun _ => none) s →
      ∃ committed,
        ActsAtomically (lockMap Key Value).spec (fun _ => none) (lockMap Key Value).program s
          committed ∧
        (lockMap Key Value).ErasesInserted (effects s.events) committed := by
  constructor
  · intro s h
    obtain ⟨committed, acts⟩ := (inv_reachable ids hcard
      (Container.implements (lockUnorderedSet α)) h).actsAtomically
    exact ⟨committed, acts, Container.erasesInserted_of_legal _
      (fun k => decide_eq_false UnorderedSet.not_mem_empty) acts.legal⟩
  · intro s h
    obtain ⟨committed, acts⟩ := (inv_reachable ids hcard
      (Container.implements (lockMap Key Value)) h).actsAtomically
    exact ⟨committed, acts, Container.erasesInserted_of_legal _ (fun _ => rfl) acts.legal⟩

/-- One thread inserts an element, and another one reads while the first one waits to
erase it. -/
def eraseWhileReading : List (Bool × Action (KeyedOp ℕ ℕ)) :=
  [(true, .invoke (.insert 5)), (true, .lock .load), (true, .lock (.cas false)),
    (true, .lock .increment), (true, .access), (true, .lock .load), (true, .lock .decrement),
    (true, .lock .store), (true, .invoke (.erase 5)), (true, .lock .load), (false, .readLock),
    (false, .lock .load), (false, .lock (.cas false)), (true, .lock (.cas false))]

/-- The reader still finds it. -/
theorem lockedContainers_actAtomically_two : ∃ s,
    run (step RWLock.twoIds (lockUnorderedSet ℕ).program) (init .empty) eraseWhileReading = some s ∧
    5 ∈ s.data ∧ ∃ committed,
      ActsAtomically (lockUnorderedSet ℕ).spec .empty (lockUnorderedSet ℕ).program s committed ∧
      (lockUnorderedSet ℕ).ErasesInserted (effects s.events) committed := by
  have h : ((run (step RWLock.twoIds (lockUnorderedSet ℕ).program) (init .empty)
      eraseWhileReading).any fun s => 5 ∈ s.data) = true := by
    decide +kernel
  obtain ⟨s, hr, hmem⟩ := (Option.any_eq_true _ _).mp h
  exact ⟨s, hr, of_decide_eq_true hmem, (@lockedContainers_actAtomically Bool ℕ ℕ ℕ _ _ _ _ _
    ThreadManager.distinct_twoIds (by decide)).1 s ⟨_, hr⟩⟩

end RioIocpServer.LockedContainers
