import RioIocpServer.TransitionSystem
import RioIocpServer.ThreadSum
import Mathlib.Data.Finset.Max

/-!
# Locks taken in the order of a rank

Threads run code that takes and releases locks, shared or for writing, and begin the
next piece of code while they hold nothing. A lock is granted as a read-write lock
does: shared while nobody writes, for writing while nobody holds it, and to its writer
again where it is reentrant. Code that takes a lock only above the ranks of those it
holds cannot be part of a circle of threads that wait for each other.
-/

namespace RioIocpServer.RankedLocks

open TransitionSystem

/-- How a lock is held. -/
inductive Mode where
  | shared
  | exclusive
  deriving DecidableEq

/-- The lock calls of a piece of code. -/
inductive Op (L : Type*) where
  /-- A lock is taken. -/
  | acquire (l : L) (mode : Mode)
  /-- The lock that was taken last is released. -/
  | release (l : L)

/-- A thread. -/
structure Thread (L : Type*) where
  /-- The locks it holds, the last one first. -/
  held : List (L × Mode)
  /-- What is left of the code it is in. -/
  code : List (Op L)

/-- The steps of a thread. -/
inductive Action (F : Type*) where
  /-- It begins a piece of code. -/
  | call (f : F)
  /-- It does the next lock call. -/
  | proceed
  deriving DecidableEq

section System

variable {T L F : Type*}

/-- A thread that is in no code. -/
def Thread.idle : Thread L := ⟨[], []⟩

/-- Nobody has begun anything. -/
def init : T → Thread L := fun _ => .idle

/-- A lock is granted to a thread. -/
def Grants (reentrant : L → Bool) (s : T → Thread L) (t : T) (l : L) : Mode → Prop
  | .shared => ∀ u, (l, .exclusive) ∉ (s u).held
  | .exclusive => (∀ u, (l, .shared) ∉ (s u).held ∧ (l, .exclusive) ∉ (s u).held) ∨
      reentrant l = true ∧ (l, .exclusive) ∈ (s t).held

/-- What the holds of all threads decide can be computed. -/
instance decidableGrants [DecidableEq L] [Fintype T] (reentrant : L → Bool) (s : T → Thread L)
    (t : T) (l : L) : ∀ mode, Decidable (Grants reentrant s t l mode)
  | .shared => inferInstanceAs (Decidable (∀ u, (l, .exclusive) ∉ (s u).held))
  | .exclusive => inferInstanceAs (Decidable ((∀ u, (l, .shared) ∉ (s u).held ∧
      (l, .exclusive) ∉ (s u).held) ∨ reentrant l = true ∧ (l, .exclusive) ∈ (s t).held))

/-- One step of a thread, where `body` is the code of a function. -/
def step [DecidableEq T] [DecidableEq L] [Fintype T] (reentrant : L → Bool)
    (body : F → List (Op L)) (s : T → Thread L) : T × Action F → Option (T → Thread L)
  | (t, .call f) =>
    match s t with
    | ⟨[], []⟩ => some (Function.update s t ⟨[], body f⟩)
    | _ => none
  | (t, .proceed) =>
    match s t with
    | ⟨held, .acquire l mode :: code⟩ =>
      if Grants reentrant s t l mode then some (Function.update s t ⟨(l, mode) :: held, code⟩)
      else none
    | ⟨(l', _) :: held, .release l :: code⟩ =>
      if l' = l then some (Function.update s t ⟨held, code⟩) else none
    | _ => none

/-- What one step can do, with what it has tested. -/
inductive Moves [DecidableEq T] (reentrant : L → Bool) (body : F → List (Op L))
    (s : T → Thread L) (t : T) : Action F → (T → Thread L) → Prop
  | called (f : F) (ht : s t = .idle) :
      Moves reentrant body s t (.call f) (Function.update s t ⟨[], body f⟩)
  | acquired {l : L} {mode : Mode} {code : List (Op L)}
      (hcode : (s t).code = .acquire l mode :: code) (hgrants : Grants reentrant s t l mode) :
      Moves reentrant body s t .proceed
        (Function.update s t ⟨(l, mode) :: (s t).held, code⟩)
  | released {l : L} {mode : Mode} {held : List (L × Mode)} {code : List (Op L)}
      (hheld : (s t).held = (l, mode) :: held) (hcode : (s t).code = .release l :: code) :
      Moves reentrant body s t .proceed (Function.update s t ⟨held, code⟩)

variable [DecidableEq T] [DecidableEq L] [Fintype T] {reentrant : L → Bool}
  {body : F → List (Op L)} {s s' : T → Thread L} {t : T}

/-- Every enabled step is one of the moves. -/
theorem step_moves {a : Action F} (h : step reentrant body s (t, a) = some s') :
    Moves reentrant body s t a s' := by
  cases a with
  | call f =>
    simp only [step] at h
    split at h
    · cases h
      exact .called f ‹_›
    · cases h
  | proceed =>
    simp only [step] at h
    split at h
    · rename_i held l mode code ht
      split at h
      · cases h
        have hmoves : Moves reentrant body s t .proceed
            (Function.update s t ⟨(l, mode) :: (s t).held, code⟩) :=
          .acquired (by rw [ht]) ‹Grants reentrant s t l mode›
        rwa [ht] at hmoves
      · cases h
    · rename_i l' mode held l code ht
      split at h
      · subst l'
        cases h
        exact .released (by rw [ht]) (by rw [ht])
      · cases h
    · cases h

end System

section Order

variable {L : Type*} {rank : L → ℕ} {held : List (L × Mode)} {code rest : List (Op L)}

/-- Code, begun with some locks held, takes each lock above the ranks of those it
holds, releases the one it took last, and holds nothing at its end. -/
def Ordered (rank : L → ℕ) : List (L × Mode) → List (Op L) → Prop
  | held, [] => held = []
  | held, .acquire l mode :: code =>
    (∀ h ∈ held, rank h.1 < rank l) ∧ Ordered rank ((l, mode) :: held) code
  | [], .release _ :: _ => False
  | (l', _) :: held, .release l :: code => l' = l ∧ Ordered rank held code

/-- Code that can stand wherever some locks are held: it keeps the order and leaves
them held. -/
def Nested (rank : L → ℕ) (held : List (L × Mode)) (code : List (Op L)) : Prop :=
  ∀ rest, Ordered rank held rest → Ordered rank held (code ++ rest)

/-- Code that runs with a lock. -/
def guarded (l : L) (mode : Mode) (code : List (Op L)) : List (Op L) :=
  .acquire l mode :: (code ++ [.release l])

/-- Code that can stand where nothing is held is in order. -/
theorem Nested.ordered (h : Nested rank [] code) : Ordered rank [] code := by
  have hrest := h [] rfl
  rwa [List.append_nil] at hrest

@[simp] theorem nested_nil : Nested rank held [] := fun _ hrest => hrest

/-- Pieces of code stand one after the other. -/
theorem Nested.append {code' : List (Op L)} (h : Nested rank held code)
    (h' : Nested rank held code') : Nested rank held (code ++ code') := by
  intro rest hrest
  rw [List.append_assoc]
  exact h _ (h' rest hrest)

/-- So do those of a loop. -/
theorem Nested.flatMap {β : Type*} {items : List β} {f : β → List (Op L)}
    (h : ∀ item ∈ items, Nested rank held (f item)) : Nested rank held (items.flatMap f) := by
  induction items with
  | nil => exact nested_nil
  | cons item items ih =>
    rw [List.flatMap_cons]
    exact (h item List.mem_cons_self).append (ih fun b hb => h b (List.mem_cons_of_mem item hb))

/-- A lock is taken above those that are held. -/
theorem Nested.guarded {l : L} {mode : Mode} (hrank : ∀ h ∈ held, rank h.1 < rank l)
    (h : Nested rank ((l, mode) :: held) code) : Nested rank held (guarded l mode code) := by
  intro rest hrest
  have hcode : RankedLocks.guarded l mode code ++ rest =
      .acquire l mode :: (code ++ (.release l :: rest)) := by
    simp [RankedLocks.guarded]
  rw [hcode]
  exact ⟨hrank, h _ ⟨rfl, hrest⟩⟩

end Order

section Invariant

variable {T L F : Type*} [DecidableEq T] [DecidableEq L] [Fintype T] {reentrant : L → Bool}
  {body : F → List (Op L)} {rank : L → ℕ} {s s' : T → Thread L} {t : T}

/-- A call begins code that is in order. -/
def OrderedCall (rank : L → ℕ) (body : F → List (Op L)) (_ : T → Thread L) : T × Action F → Prop
  | (_, .call f) => Ordered rank [] (body f)
  | (_, .proceed) => True

/-- The threads are in code that is in order, and nobody holds what another one writes. -/
structure Inv (rank : L → ℕ) (s : T → Thread L) : Prop where
  /-- What is left of the code is in order. -/
  ordered : ∀ t, Ordered rank (s t).held (s t).code
  /-- A lock that is held for writing is held by that thread only. -/
  exclusive : ∀ t u l mode, (l, .exclusive) ∈ (s t).held → (l, mode) ∈ (s u).held → t = u

omit [DecidableEq T] [DecidableEq L] [Fintype T] in
/-- A thread that has come to the end of its code holds nothing. -/
theorem Inv.idle_of_code (inv : Inv rank s) (h : (s t).code = []) : s t = .idle := by
  have hordered := inv.ordered t
  rw [h, Ordered] at hordered
  calc s t = ⟨(s t).held, (s t).code⟩ := rfl
    _ = .idle := by rw [h, hordered, Thread.idle]

omit [DecidableEq T] [DecidableEq L] [Fintype T] in
theorem inv_init : Inv rank (init : T → Thread L) where
  ordered _ := rfl
  exclusive _ _ _ _ h := by simp [init, Thread.idle] at h

omit [DecidableEq L] [Fintype T] in
/-- The order is kept where one thread is left in order. -/
theorem ordered_update (h : ∀ t, Ordered rank (s t).held (s t).code) {thread : Thread L}
    (ht : Ordered rank thread.held thread.code) (u : T) :
    Ordered rank (Function.update s t thread u).held (Function.update s t thread u).code := by
  by_cases hu : u = t
  · subst hu
    rwa [Function.update_self]
  · rw [Function.update_of_ne hu]
    exact h u

omit [DecidableEq L] [Fintype T] in
/-- Who holds fewer locks disturbs nobody. -/
theorem exclusive_update
    (h : ∀ t u l mode, (l, .exclusive) ∈ (s t).held → (l, mode) ∈ (s u).held → t = u)
    {thread : Thread L} (hfewer : ∀ x ∈ thread.held, x ∈ (s t).held) (u v : T) (l : L) (mode : Mode)
    (hu : (l, .exclusive) ∈ (Function.update s t thread u).held)
    (hv : (l, mode) ∈ (Function.update s t thread v).held) : u = v := by
  have hheld : ∀ w x, x ∈ (Function.update s t thread w).held → x ∈ (s w).held := by
    intro w x hx
    by_cases hw : w = t
    · subst hw
      rw [Function.update_self] at hx
      exact hfewer x hx
    · rwa [Function.update_of_ne hw] at hx
  exact h u v l mode (hheld u _ hu) (hheld v _ hv)

omit [DecidableEq T] [DecidableEq L] [Fintype T] in
/-- Who holds a lock in conflict with a hold that is granted is the thread it is granted to. -/
theorem Inv.owner_of_grants (inv : Inv rank s) {u : T} {l : L} {mode mode' : Mode}
    (hgrants : Grants reentrant s t l mode) (hu : (l, mode') ∈ (s u).held)
    (hconflict : mode = .exclusive ∨ mode' = .exclusive) : u = t := by
  cases mode with
  | shared =>
    rcases hconflict with hmode | rfl
    · cases hmode
    · exact (hgrants u hu).elim
  | exclusive =>
    rcases hgrants with hfree | ⟨-, hown⟩
    · cases mode' with
      | shared => exact ((hfree u).1 hu).elim
      | exclusive => exact ((hfree u).2 hu).elim
    · exact (inv.exclusive t u l mode' hown hu).symm

/-- A step keeps the invariant. -/
theorem inv_step (inv : Inv rank s) {a : T × Action F} (ok : OrderedCall rank body s a)
    (h : step reentrant body s a = some s') : Inv rank s' := by
  obtain ⟨t, a⟩ := a
  have hold := inv.ordered t
  cases step_moves h with
  | called f ht => exact ⟨ordered_update inv.ordered ok,
      exclusive_update inv.exclusive fun _ hx => (List.not_mem_nil hx).elim⟩
  | @acquired l mode code hcode hgrants =>
    rw [hcode, Ordered] at hold
    refine ⟨ordered_update inv.ordered hold.2, ?_⟩
    have hnew : ∀ u x, x ∈ (Function.update s t ⟨(l, mode) :: (s t).held, code⟩ u).held →
        x ∈ (s u).held ∨ u = t ∧ x = (l, mode) := by
      intro u x hx
      by_cases hu : u = t
      · subst hu
        rw [Function.update_self] at hx
        exact (List.mem_cons.mp hx).symm.imp_right fun hx => ⟨rfl, hx⟩
      · rw [Function.update_of_ne hu] at hx
        exact .inl hx
    intro u v l' mode' hu hv
    rcases hnew u _ hu with hu' | ⟨hu', heq⟩ <;> rcases hnew v _ hv with hv' | ⟨hv', heq'⟩
    · exact inv.exclusive u v l' mode' hu' hv'
    · cases heq'
      exact (inv.owner_of_grants hgrants hu' (.inr rfl)).trans hv'.symm
    · cases heq
      exact hu'.trans (inv.owner_of_grants hgrants hv' (.inl rfl)).symm
    · exact hu'.trans hv'.symm
  | released hheld hcode =>
    rw [hheld, hcode, Ordered] at hold
    refine ⟨ordered_update inv.ordered hold.2, exclusive_update inv.exclusive fun x hx => ?_⟩
    rw [hheld]
    exact List.mem_cons_of_mem _ hx

end Invariant

section Progress

variable {T L F : Type*} [DecidableEq T] [DecidableEq L] [Fintype T] {reentrant : L → Bool}
  {body : F → List (Op L)} {rank : L → ℕ} {s s' : T → Thread L} {t : T}

/-- The rank of the lock a thread is about to take. -/
def Thread.wanted (rank : L → ℕ) (thread : Thread L) : ℕ :=
  match thread.code with
  | .acquire l _ :: _ => rank l
  | _ => 0

/-- A thread that cannot go on waits for a lock that a thread holds, which is above
the locks it holds itself. -/
theorem waits_of_stuck (inv : Inv rank s) (hcode : (s t).code ≠ [])
    (hstuck : step reentrant body s (t, .proceed) = none) :
    ∃ l u mode, (l, mode) ∈ (s u).held ∧ (s t).wanted rank = rank l ∧
      ∀ h ∈ (s t).held, rank h.1 < rank l := by
  have hordered := inv.ordered t
  obtain ⟨held, code, hst⟩ : ∃ held code, s t = ⟨held, code⟩ := ⟨_, _, rfl⟩
  rw [hst] at hcode hordered ⊢
  cases code with
  | nil => exact (hcode rfl).elim
  | cons op code =>
    cases op with
    | acquire l mode =>
      have hnot : ¬ Grants reentrant s t l mode := by
        intro hgrants
        simp [step, hst, hgrants] at hstuck
      have hheld : ∃ u mode, (l, mode) ∈ (s u).held := by
        by_contra hno
        have hfree : ∀ u mode, (l, mode) ∉ (s u).held := fun u mode h => hno ⟨u, mode, h⟩
        cases mode with
        | shared => exact hnot fun u => hfree u .exclusive
        | exclusive => exact hnot (.inl fun u => ⟨hfree u .shared, hfree u .exclusive⟩)
      obtain ⟨u, mode', hu⟩ := hheld
      exact ⟨l, u, mode', hu, rfl, hordered.1⟩
    | release l =>
      cases held with
      | nil => exact hordered.elim
      | cons h held =>
        obtain ⟨l', mode⟩ := h
        simp [step, hst, hordered.1] at hstuck

/-- While a thread is in some code, a thread can go on: the one that is about to take
the highest lock waits for nobody, since its holder would be about to take a higher one. -/
theorem exists_proceed (inv : Inv rank s) (hbusy : ∃ t, (s t).code ≠ []) :
    ∃ t s', step reentrant body s (t, .proceed) = some s' := by
  by_contra hno
  have hstuck : ∀ t, step reentrant body s (t, .proceed) = none := by
    intro t
    by_contra hsome
    obtain ⟨s', hs'⟩ := Option.ne_none_iff_exists'.mp hsome
    exact hno ⟨t, s', hs'⟩
  obtain ⟨t, ht⟩ := hbusy
  have hne : (Finset.univ.filter fun t => (s t).code ≠ []).Nonempty := ⟨t, by simp [ht]⟩
  obtain ⟨m, hm, hmax⟩ := Finset.exists_max_image _ (fun t => (s t).wanted rank) hne
  obtain ⟨l, u, mode, hu, hwanted, -⟩ :=
    waits_of_stuck inv (Finset.mem_filter.mp hm).2 (hstuck m)
  have hcode : (s u).code ≠ [] := by
    intro hnil
    rw [inv.idle_of_code hnil] at hu
    exact List.not_mem_nil hu
  obtain ⟨l', -, -, -, hwanted', habove⟩ := waits_of_stuck inv hcode (hstuck u)
  have hlt : rank l < rank l' := habove _ hu
  have hle := hmax u (by simp [hcode])
  omega

end Progress

section Doom

variable {T L F : Type*} [DecidableEq T] [DecidableEq L] [Fintype T] {reentrant : L → Bool}
  {body : F → List (Op L)} {s s' : T → Thread L} {t : T}

/-- Code takes a lock a second time before it releases it. -/
def TakesTwice (reentrant : L → Bool) (l : L) (code : List (Op L)) : Prop :=
  reentrant l = false ∧
    ∃ before mode rest, code = before ++ .acquire l mode :: rest ∧ .release l ∉ before

/-- A thread that has a lock, or takes it next, and will take it a second time. -/
def Doomed (reentrant : L → Bool) (thread : Thread L) : Prop :=
  ∃ l, (l, .exclusive) ∈ thread.held ∧ TakesTwice reentrant l thread.code ∨
    ∃ code, thread.code = .acquire l .exclusive :: code ∧ TakesTwice reentrant l code

omit [DecidableEq L] in
/-- What comes later makes no difference. -/
theorem TakesTwice.append {l : L} {code : List (Op L)} (h : TakesTwice reentrant l code)
    (later : List (Op L)) : TakesTwice reentrant l (code ++ later) := by
  obtain ⟨hmutex, before, mode, rest, rfl, hnot⟩ := h
  exact ⟨hmutex, before, mode, rest ++ later, by simp, hnot⟩

omit [DecidableEq L] in
/-- Neither does code before it that does not release the lock. -/
theorem TakesTwice.after {l : L} {code earlier : List (Op L)} (h : TakesTwice reentrant l code)
    (hearlier : .release l ∉ earlier) : TakesTwice reentrant l (earlier ++ code) := by
  obtain ⟨hmutex, before, mode, rest, rfl, hnot⟩ := h
  refine ⟨hmutex, earlier ++ before, mode, rest, by simp, fun hin => ?_⟩
  exact (List.mem_append.mp hin).elim hearlier hnot

omit [DecidableEq L] in
/-- A loop takes a lock twice if one of its rounds does and the others do not release it. -/
theorem TakesTwice.flatMap {β : Type*} {l : L} {items : List β} {f : β → List (Op L)}
    (h : ∀ item ∈ items, .release l ∉ f item ∨ TakesTwice reentrant l (f item))
    (hex : ∃ item ∈ items, TakesTwice reentrant l (f item)) :
    TakesTwice reentrant l (items.flatMap f) := by
  induction items with
  | nil =>
    obtain ⟨item, hitem, -⟩ := hex
    exact (List.not_mem_nil hitem).elim
  | cons item items ih =>
    rw [List.flatMap_cons]
    by_cases htwice : TakesTwice reentrant l (f item)
    · exact htwice.append _
    · obtain ⟨other, hother, hex⟩ := hex
      have hlater : other ∈ items :=
        (List.mem_cons.mp hother).resolve_left fun heq => htwice (heq ▸ hex)
      exact (ih (fun b hb => h b (List.mem_cons_of_mem _ hb)) ⟨other, hlater, hex⟩).after
        ((h item List.mem_cons_self).resolve_right htwice)

omit [DecidableEq L] in
/-- Such a thread has code left. -/
theorem Doomed.busy {thread : Thread L} (h : Doomed reentrant thread) : thread ≠ .idle := by
  rintro rfl
  obtain ⟨l, ⟨hheld, -⟩ | ⟨code, hcode, -⟩⟩ := h
  · exact List.not_mem_nil hheld
  · cases hcode

omit [DecidableEq L] in
/-- The next lock call takes the lock the second time, or does not release it. -/
theorem TakesTwice.tail {l : L} {op : Op L} {code : List (Op L)}
    (h : TakesTwice reentrant l (op :: code)) :
    (∃ mode, op = .acquire l mode) ∨ op ≠ .release l ∧ TakesTwice reentrant l code := by
  obtain ⟨hmutex, before, mode, rest, hcode, hnot⟩ := h
  cases before with
  | nil =>
    cases hcode
    exact .inl ⟨mode, rfl⟩
  | cons op' before =>
    cases hcode
    refine .inr ⟨?_, hmutex, before, mode, rest, rfl, fun hin => hnot (List.mem_cons_of_mem _ hin)⟩
    rintro rfl
    exact hnot List.mem_cons_self

omit [DecidableEq T] [DecidableEq L] [Fintype T] in
/-- A mutex is not granted to its holder. -/
theorem not_grants_of_held {l : L} {mode : Mode} (hmutex : reentrant l = false)
    (hheld : (l, .exclusive) ∈ (s t).held) : ¬ Grants reentrant s t l mode := by
  intro hgrants
  cases mode with
  | shared => exact hgrants t hheld
  | exclusive =>
    rcases hgrants with hfree | ⟨hreentrant, -⟩
    · exact (hfree t).2 hheld
    · rw [hmutex] at hreentrant
      cases hreentrant

/-- No step gets it out. -/
theorem doomed_step {a : T × Action F} (h : Doomed reentrant (s t))
    (hs : step reentrant body s a = some s') : Doomed reentrant (s' t) := by
  obtain ⟨u, a⟩ := a
  by_cases hu : t = u
  · subst hu
    cases step_moves hs with
    | called f ht =>
      rw [ht] at h
      exact (h.busy rfl).elim
    | acquired hcode hgrants =>
      rw [Function.update_self]
      obtain ⟨l, ⟨hheld, htwice⟩ | ⟨code', hcode', htwice⟩⟩ := h
      · have hmutex := htwice.1
        rw [hcode] at htwice
        obtain ⟨mode', heq⟩ | ⟨-, hrest⟩ := htwice.tail
        · cases heq
          exact (not_grants_of_held hmutex hheld hgrants).elim
        · exact ⟨l, .inl ⟨List.mem_cons_of_mem _ hheld, hrest⟩⟩
      · obtain ⟨⟨rfl, rfl⟩, rfl⟩ : (_ = l ∧ _ = Mode.exclusive) ∧ _ = code' := by
          simpa using hcode.symm.trans hcode'
        exact ⟨_, .inl ⟨List.mem_cons_self, htwice⟩⟩
    | released hheld' hcode =>
      rw [Function.update_self]
      obtain ⟨l, ⟨hheld, htwice⟩ | ⟨code', hcode', -⟩⟩ := h
      · rw [hcode] at htwice
        obtain ⟨mode', heq⟩ | ⟨hne, hrest⟩ := htwice.tail
        · cases heq
        · rw [hheld'] at hheld
          refine ⟨l, .inl ⟨(List.mem_cons.mp hheld).resolve_left fun heq => ?_, hrest⟩⟩
          cases heq
          exact hne rfl
      · cases hcode.symm.trans hcode'
  · have hframe : s' t = s t := by
      cases step_moves hs <;> exact Function.update_of_ne hu _ _
    rwa [hframe]

end Doom

end RioIocpServer.RankedLocks
