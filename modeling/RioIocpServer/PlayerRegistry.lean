import RioIocpServer.Contents
import RioIocpServer.TransitionSystem

/-!
# The registry of players

What logging in, logging out and losing the connection are about: the players
registered, the logouts that wait in a queue, and the one player each session
remembers. A player is its session and a number that is never given twice. A session
has an unmatched login while it remembers a player whose logout nobody has queued.
-/

namespace RioIocpServer.PlayerRegistry

open Contents

/-- The registry. -/
@[ext] structure Registry (S : Type*) where
  /-- The players registered. -/
  players : UnorderedSet (S × ℤ)
  /-- The player is connected. -/
  valid : S × ℤ → Bool
  /-- The logouts that wait. -/
  jobs : List (Option (S × ℤ))
  /-- The player a session remembers. -/
  own : S → Option (S × ℤ)
  /-- The last login of a session was followed neither by a logout nor by its end. -/
  unmatched : S → Bool
  /-- The numbers given so far. -/
  sessionCnt : ℤ
  /-- The players counted. -/
  loginCnt : ℤ

/-- What can happen. -/
inductive Event (S : Type*) where
  /-- A session logs a new player in. -/
  | login (s : S)
  /-- A session queues the logout of the player it remembers. -/
  | logout (s : S)
  /-- A session ends: it forgets its player, and queues its logout if the player is
  connected. -/
  | ended (s : S)
  /-- The first logout that waits is performed. -/
  | run
  /-- Nothing the registry is about. -/
  | idle

section System

variable {S : Type*} [DecidableEq S]

/-- The player the next login of a session creates. -/
def Registry.next (r : Registry S) (s : S) : S × ℤ := (s, r.sessionCnt + 1)

/-- A login. -/
def Registry.login (r : Registry S) (s : S) : Registry S where
  players := r.players.insert (r.next s)
  valid := Function.update r.valid (r.next s) true
  jobs := r.jobs
  own := Function.update r.own s (some (r.next s))
  unmatched := Function.update r.unmatched s true
  sessionCnt := r.sessionCnt + 1
  loginCnt := r.loginCnt + 1

/-- A logout that is queued. -/
def Registry.logout (r : Registry S) (s : S) : Registry S :=
  { r with jobs := r.jobs ++ [r.own s], unmatched := Function.update r.unmatched s false }

/-- The logout that the end of a session queues. -/
def Registry.endJobs (r : Registry S) (s : S) : List (Option (S × ℤ)) :=
  match r.own s with
  | none => []
  | some p => if r.valid p = true then [some p] else []

/-- Who is connected after the end of a session. -/
def Registry.endValid (r : Registry S) (s : S) : S × ℤ → Bool :=
  match r.own s with
  | none => r.valid
  | some p => Function.update r.valid p false

/-- The end of a session. -/
def Registry.ended (r : Registry S) (s : S) : Registry S :=
  { r with
    valid := r.endValid s
    jobs := r.jobs ++ r.endJobs s
    own := Function.update r.own s none
    unmatched := Function.update r.unmatched s false }

/-- The logout of a player. -/
def Registry.erase (r : Registry S) (p : S × ℤ) (rest : List (Option (S × ℤ))) : Registry S :=
  { r with
    players := r.players.erase p
    valid := Function.update r.valid p false
    jobs := rest
    loginCnt := r.loginCnt - 1 }

/-- One event. -/
def perform (r : Registry S) : Event S → Option (Registry S)
  | .login s => some (r.login s)
  | .logout s => some (r.logout s)
  | .ended s => some (r.ended s)
  | .run =>
    match r.jobs with
    | some p :: rest => some (r.erase p rest)
    | _ => none
  | .idle => some r

/-- Whom the sessions remember after an event. -/
def Registry.ownAfter (r : Registry S) : Event S → S → Option (S × ℤ)
  | .login s => Function.update r.own s (some (r.next s))
  | .ended s => Function.update r.own s none
  | _ => r.own

/-- The invariant of the registry. -/
structure Inv (r : Registry S) : Prop where
  /-- Numbers are given in order. -/
  ids : ∀ p, p ∈ r.players → p.2 ≤ r.sessionCnt
  /-- Only players that were registered are logged out. -/
  queued : ∀ p, some p ∈ r.jobs → p.2 ≤ r.sessionCnt
  /-- A session remembers a player of its own. -/
  owned : ∀ s p, r.own s = some p → p.1 = s ∧ p.2 ≤ r.sessionCnt
  /-- Who is connected is registered. -/
  registered : ∀ p, r.valid p = true → p ∈ r.players
  /-- Who is registered and not connected is about to be logged out. -/
  pending : ∀ p, p ∈ r.players → r.valid p = false → some p ∈ r.jobs
  /-- An unmatched login is that of a connected player nobody logs out yet. -/
  logged : ∀ s, r.unmatched s = true → ∃ p, r.own s = some p ∧ r.valid p = true ∧ some p ∉ r.jobs

/-- The session does not log in again while its last login is unmatched. -/
def LoginMatched (s : S) (r : Registry S) : Event S → Prop
  | .login t => t = s → r.unmatched s = false
  | _ => True

/-- A session queues the logout of its player only while that login is unmatched: by a
logout or by its end, not by both and not twice. -/
def LogoutOnce (r : Registry S) : Event S → Prop
  | .logout s => r.own s ≠ none → r.unmatched s = true
  | .ended s => ∀ p ∈ r.own s, r.valid p = true → r.unmatched s = true
  | _ => True

instance (s : S) (r : Registry S) : DecidablePred (LoginMatched s r)
  | .login t => inferInstanceAs (Decidable (t = s → r.unmatched s = false))
  | .logout _ => isTrue trivial
  | .ended _ => isTrue trivial
  | .run => isTrue trivial
  | .idle => isTrue trivial

instance (r : Registry S) : DecidablePred (LogoutOnce r)
  | .login _ => isTrue trivial
  | .logout s => inferInstanceAs (Decidable (r.own s ≠ none → r.unmatched s = true))
  | .ended s => inferInstanceAs (Decidable (∀ p ∈ r.own s, r.valid p = true → r.unmatched s = true))
  | .run => isTrue trivial
  | .idle => isTrue trivial

/-- Every player of a session is remembered by it or about to be logged out. -/
def Covered (s : S) (r : Registry S) : Prop :=
  ∀ p, p ∈ r.players → p.1 = s → (r.own s = some p ∧ r.unmatched s = true) ∨ some p ∈ r.jobs

/-- A player of a session that nobody will ever log out. -/
def Abandoned (s : S) (r : Registry S) : Prop :=
  ∃ p, p.1 = s ∧ p ∈ r.players ∧ r.valid p = true ∧ some p ∉ r.jobs ∧ r.own s ≠ some p

/-- The counter is exact, and each player waits to be logged out at most once. -/
structure Exact (r : Registry S) : Prop where
  /-- The counter is the number of players. -/
  loginCnt_eq : r.loginCnt = r.players.elems.length
  /-- No logout waits twice. -/
  once : ∀ p, r.jobs.count (some p) ≤ 1
  /-- Who waits to be logged out is registered. -/
  present : ∀ p, some p ∈ r.jobs → p ∈ r.players

section Events

variable {r r' : Registry S} {s t : S} {p : S × ℤ}

omit [DecidableEq S] in
/-- The player that is created is new. -/
theorem Inv.next_new (inv : Inv r) (s : S) : r.next s ∉ r.players ∧ some (r.next s) ∉ r.jobs ∧
    ∀ t, r.own t ≠ some (r.next s) := by
  have hlt : r.sessionCnt < (r.next s).2 := Int.lt_succ r.sessionCnt
  refine ⟨fun h => ?_, fun h => ?_, fun t h => ?_⟩
  · have hle := inv.ids _ h
    omega
  · have hle := inv.queued _ h
    omega
  · have hle := (inv.owned t _ h).2
    omega

omit [DecidableEq S] in
/-- A session that remembers nobody queues nothing. -/
theorem endJobs_of_none (hown : r.own s = none) : r.endJobs s = [] := by
  rw [Registry.endJobs, hown]

/-- Nor does it disconnect anybody. -/
theorem endValid_of_none (hown : r.own s = none) : r.endValid s = r.valid := by
  rw [Registry.endValid, hown]

/-- The player a session remembers is not connected after its end. -/
theorem endValid_of_own {q : S × ℤ} (hown : r.own s = some q) :
    r.endValid s = Function.update r.valid q false := by
  rw [Registry.endValid, hown]

omit [DecidableEq S] in
/-- What the end of a session that remembers a player queues. -/
theorem endJobs_of_own {q : S × ℤ} (hown : r.own s = some q) :
    r.endJobs s = if r.valid q = true then [some q] else [] := by
  rw [Registry.endJobs, hown]

omit [DecidableEq S] in
/-- A session queues its player if that is connected. -/
theorem mem_endJobs : some p ∈ r.endJobs s ↔ r.own s = some p ∧ r.valid p = true := by
  cases hown : r.own s with
  | none => simp [endJobs_of_none hown]
  | some q =>
    rw [endJobs_of_own hown]
    by_cases hq : r.valid q = true
    · rw [if_pos hq, List.mem_singleton]
      constructor
      · intro h
        cases h
        exact ⟨rfl, hq⟩
      · exact fun h => h.1.symm
    · rw [if_neg hq]
      constructor
      · exact fun h => (List.not_mem_nil h).elim
      · rintro ⟨h, hvalid⟩
        cases h
        exact (hq hvalid).elim

/-- Who is connected after the end of a session. -/
theorem endValid_eq : r.endValid s p = true ↔ r.valid p = true ∧ r.own s ≠ some p := by
  cases hown : r.own s with
  | none => simp [endValid_of_none hown]
  | some q =>
    rw [endValid_of_own hown]
    by_cases hp : p = q
    · subst hp
      simp
    · simp [Function.update_of_ne hp, Ne.symm hp]

/-- A login keeps the invariant. -/
theorem inv_login (inv : Inv r) (s : S) : Inv (r.login s) := by
  obtain ⟨hnew, hjobs, hown⟩ := inv.next_new s
  have hle : ∀ n, n ≤ r.sessionCnt → n ≤ r.sessionCnt + 1 := fun n hn => by omega
  have hne : ∀ p, p ∈ r.players → p ≠ r.next s := fun p hp h => hnew (h ▸ hp)
  constructor
  · intro p hp
    rcases UnorderedSet.mem_insert.mp hp with rfl | hold
    · exact le_refl (r.sessionCnt + 1)
    · exact hle _ (inv.ids p hold)
  · exact fun p hp => hle _ (inv.queued p hp)
  · intro t p hp
    change Function.update r.own s _ t = some p at hp
    by_cases ht : t = s
    · subst ht
      rw [Function.update_self] at hp
      cases hp
      exact ⟨rfl, le_refl (r.sessionCnt + 1)⟩
    · rw [Function.update_of_ne ht] at hp
      obtain ⟨howner, hid⟩ := inv.owned t p hp
      exact ⟨howner, hle _ hid⟩
  · intro p hp
    change Function.update r.valid _ true p = true at hp
    by_cases hpn : p = r.next s
    · exact UnorderedSet.mem_insert.mpr (.inl hpn)
    · rw [Function.update_of_ne hpn] at hp
      exact UnorderedSet.mem_insert.mpr (.inr (inv.registered p hp))
  · intro p hp hvalid
    change Function.update r.valid _ true p = false at hvalid
    rcases UnorderedSet.mem_insert.mp hp with rfl | hold
    · rw [Function.update_self] at hvalid
      cases hvalid
    · rw [Function.update_of_ne (hne p hold)] at hvalid
      exact inv.pending p hold hvalid
  · intro t ht
    change Function.update r.unmatched s true t = true at ht
    show ∃ p, Function.update r.own s _ t = some p ∧ Function.update r.valid _ true p = true ∧ _
    by_cases hts : t = s
    · subst hts
      exact ⟨r.next t, Function.update_self .., Function.update_self .., hjobs⟩
    · rw [Function.update_of_ne hts] at ht ⊢
      obtain ⟨p, hp, hvalid, hnot⟩ := inv.logged t ht
      refine ⟨p, hp, ?_, hnot⟩
      rw [Function.update_of_ne (hne p (inv.registered p hvalid))]
      exact hvalid

/-- Queueing a logout keeps the invariant. -/
theorem inv_logout (inv : Inv r) (s : S) : Inv (r.logout s) := by
  constructor
  · exact inv.ids
  · intro p hp
    rcases List.mem_append.mp hp with hold | hnew
    · exact inv.queued p hold
    · exact (inv.owned s p (List.mem_singleton.mp hnew).symm).2
  · exact inv.owned
  · exact inv.registered
  · exact fun p hp hvalid => List.mem_append_left _ (inv.pending p hp hvalid)
  · intro t ht
    change Function.update r.unmatched s false t = true at ht
    by_cases hts : t = s
    · subst hts
      rw [Function.update_self] at ht
      cases ht
    · rw [Function.update_of_ne hts] at ht
      obtain ⟨p, hp, hvalid, hnot⟩ := inv.logged t ht
      refine ⟨p, hp, hvalid, fun hmem => ?_⟩
      rcases List.mem_append.mp hmem with hold | hnew
      · exact hnot hold
      · have hs := (inv.owned s p (List.mem_singleton.mp hnew).symm).1
        exact hts ((inv.owned t p hp).1.symm.trans hs)

/-- The end of a session keeps the invariant. -/
theorem inv_ended (inv : Inv r) (s : S) : Inv (r.ended s) := by
  constructor
  · exact inv.ids
  · intro p hp
    rcases List.mem_append.mp hp with hold | hnew
    · exact inv.queued p hold
    · exact (inv.owned s p (mem_endJobs.mp hnew).1).2
  · intro t p hp
    change Function.update r.own s none t = some p at hp
    by_cases ht : t = s
    · subst ht
      rw [Function.update_self] at hp
      cases hp
    · rw [Function.update_of_ne ht] at hp
      exact inv.owned t p hp
  · exact fun p hp => inv.registered p (endValid_eq.mp hp).1
  · intro p hp hvalid
    by_cases hold : r.valid p = true
    · have hown : r.own s = some p := by
        by_contra hne
        rw [show (r.ended s).valid p = r.endValid s p from rfl, endValid_eq.mpr ⟨hold, hne⟩] at hvalid
        cases hvalid
      exact List.mem_append_right _ (mem_endJobs.mpr ⟨hown, hold⟩)
    · exact List.mem_append_left _ (inv.pending p hp (Bool.not_eq_true _ ▸ hold))
  · intro t ht
    change Function.update r.unmatched s false t = true at ht
    by_cases hts : t = s
    · subst hts
      rw [Function.update_self] at ht
      cases ht
    · rw [Function.update_of_ne hts] at ht
      obtain ⟨p, hp, hvalid, hnot⟩ := inv.logged t ht
      have hother : r.own s ≠ some p :=
        fun h => hts ((inv.owned t p hp).1.symm.trans (inv.owned s p h).1)
      refine ⟨p, ?_, endValid_eq.mpr ⟨hvalid, hother⟩, fun hmem => ?_⟩
      · show Function.update r.own s none t = some p
        rw [Function.update_of_ne hts]
        exact hp
      · rcases List.mem_append.mp hmem with hold | hnew
        · exact hnot hold
        · exact hother (mem_endJobs.mp hnew).1

/-- Performing a logout keeps the invariant. -/
theorem inv_erase (inv : Inv r) {rest : List (Option (S × ℤ))} (hjobs : r.jobs = some p :: rest) :
    Inv (r.erase p rest) := by
  have hrest : ∀ q, some q ∈ rest → some q ∈ r.jobs := by
    intro q hq
    rw [hjobs]
    exact List.mem_cons_of_mem _ hq
  have hmem : ∀ q, q ≠ p → some q ∈ r.jobs → some q ∈ rest := by
    intro q hqp hq
    rw [hjobs] at hq
    exact (List.mem_cons.mp hq).resolve_left fun h => hqp (Option.some.inj h)
  constructor
  · exact fun q hq => inv.ids q (UnorderedSet.mem_erase.mp hq).2
  · exact fun q hq => inv.queued q (hrest q hq)
  · exact inv.owned
  · intro q hq
    change Function.update r.valid p false q = true at hq
    by_cases hqp : q = p
    · subst hqp
      rw [Function.update_self] at hq
      cases hq
    · rw [Function.update_of_ne hqp] at hq
      exact UnorderedSet.mem_erase.mpr ⟨hqp, inv.registered q hq⟩
  · intro q hq hvalid
    obtain ⟨hqp, hold⟩ := UnorderedSet.mem_erase.mp hq
    change Function.update r.valid p false q = false at hvalid
    rw [Function.update_of_ne hqp] at hvalid
    exact hmem q hqp (inv.pending q hold hvalid)
  · intro t ht
    obtain ⟨q, hq, hvalid, hnot⟩ := inv.logged t ht
    have hqp : q ≠ p := by
      rintro rfl
      rw [hjobs] at hnot
      exact hnot List.mem_cons_self
    refine ⟨q, hq, ?_, fun hmem => hnot (hrest q hmem)⟩
    show Function.update r.valid p false q = true
    rw [Function.update_of_ne hqp]
    exact hvalid

/-- A logout is performed if one waits. -/
theorem perform_run_eq_some : perform r .run = some r' ↔
    ∃ p rest, r.jobs = some p :: rest ∧ r' = r.erase p rest := by
  rw [perform]
  split
  · rename_i p rest hjobs
    rw [hjobs]
    simp [eq_comm]
  · rename_i hnone
    simp only [reduceCtorEq, false_iff, not_exists, not_and]
    exact fun p rest hjobs _ => hnone p rest hjobs

/-- A session remembers a player from a login to its end. -/
theorem own_perform {event : Event S} (h : perform r event = some r') :
    r'.own = r.ownAfter event := by
  cases event with
  | run =>
    obtain ⟨p, rest, -, rfl⟩ := perform_run_eq_some.mp h
    rfl
  | login t | logout t | ended t | idle =>
    cases h
    rfl

/-- Every event keeps the invariant. -/
theorem inv_perform (inv : Inv r) {event : Event S} (h : perform r event = some r') : Inv r' := by
  cases event with
  | login s =>
    cases h
    exact inv_login inv s
  | logout s =>
    cases h
    exact inv_logout inv s
  | ended s =>
    cases h
    exact inv_ended inv s
  | run =>
    obtain ⟨p, rest, hjobs, rfl⟩ := perform_run_eq_some.mp h
    exact inv_erase inv hjobs
  | idle =>
    cases h
    exact inv

section Covered

omit [DecidableEq S] in
/-- A player that is neither connected nor waits to be logged out is not registered. -/
theorem Inv.waits (inv : Inv r) (hp : p ∈ r.players) (hvalid : r.valid p ≠ true) :
    some p ∈ r.jobs :=
  inv.pending p hp (Bool.not_eq_true _ ▸ hvalid)

/-- While the logins of a session are matched, all its players are covered. -/
theorem covered_perform (inv : Inv r) (hcov : Covered s r) {event : Event S}
    (hmatched : LoginMatched s r event) (h : perform r event = some r') : Covered s r' := by
  cases event with
  | login t =>
    cases h
    intro p hp howner
    show (Function.update r.own t _ s = some p ∧ Function.update r.unmatched t true s = true) ∨ _
    rcases UnorderedSet.mem_insert.mp hp with rfl | hold
    · obtain rfl : t = s := howner
      exact .inl ⟨Function.update_self .., Function.update_self ..⟩
    · by_cases hts : t = s
      · refine .inr ((hcov p hold howner).resolve_left fun hown => ?_)
        rw [hmatched hts] at hown
        cases hown.2
      · rw [Function.update_of_ne (Ne.symm hts), Function.update_of_ne (Ne.symm hts)]
        exact hcov p hold howner
  | logout t =>
    cases h
    intro p hp howner
    rcases hcov p hp howner with ⟨hown, hun⟩ | hjob
    · by_cases hts : t = s
      · subst hts
        exact .inr (List.mem_append_right _ (List.mem_singleton.mpr hown.symm))
      · refine .inl ⟨hown, ?_⟩
        show Function.update r.unmatched t false s = true
        rw [Function.update_of_ne (Ne.symm hts)]
        exact hun
    · exact .inr (List.mem_append_left _ hjob)
  | ended t =>
    cases h
    intro p hp howner
    rcases hcov p hp howner with ⟨hown, hun⟩ | hjob
    · by_cases hts : t = s
      · subst hts
        by_cases hvalid : r.valid p = true
        · exact .inr (List.mem_append_right _ (mem_endJobs.mpr ⟨hown, hvalid⟩))
        · exact .inr (List.mem_append_left _ (inv.waits hp hvalid))
      · show (Function.update r.own t none s = some p ∧
          Function.update r.unmatched t false s = true) ∨ _
        rw [Function.update_of_ne (Ne.symm hts), Function.update_of_ne (Ne.symm hts)]
        exact .inl ⟨hown, hun⟩
    · exact .inr (List.mem_append_left _ hjob)
  | run =>
    obtain ⟨q, rest, hjobs, rfl⟩ := perform_run_eq_some.mp h
    intro p hp howner
    obtain ⟨hpq, hold⟩ := UnorderedSet.mem_erase.mp hp
    refine (hcov p hold howner).imp_right fun hjob => ?_
    rw [hjobs] at hjob
    exact (List.mem_cons.mp hjob).resolve_left fun heq => hpq (Option.some.inj heq)
  | idle =>
    cases h
    exact hcov

/-- A login of a session that is not matched abandons the player before. -/
theorem abandoned_of_login (inv : Inv r) {event : Event S} (hnot : ¬ LoginMatched s r event)
    (h : perform r event = some r') : Abandoned s r' := by
  cases event with
  | login t =>
    cases h
    have hun : t = s ∧ r.unmatched s = true := by
      simpa [LoginMatched] using hnot
    obtain ⟨rfl, hun⟩ := hun
    obtain ⟨hnew, -, hother⟩ := inv.next_new t
    obtain ⟨p, hown, hvalid, hjob⟩ := inv.logged t hun
    have hp := inv.registered p hvalid
    have hne : p ≠ r.next t := fun heq => hnew (heq ▸ hp)
    refine ⟨p, (inv.owned t p hown).1, UnorderedSet.mem_insert.mpr (.inr hp), ?_, hjob, ?_⟩
    · show Function.update r.valid _ true p = true
      rw [Function.update_of_ne hne]
      exact hvalid
    · show Function.update r.own t _ t ≠ some p
      rw [Function.update_self]
      exact fun heq => hne (Option.some.inj heq).symm
  | logout t => exact (hnot trivial).elim
  | ended t => exact (hnot trivial).elim
  | run => exact (hnot trivial).elim
  | idle => exact (hnot trivial).elim

/-- An abandoned player stays. -/
theorem abandoned_perform (inv : Inv r) (hab : Abandoned s r) {event : Event S}
    (h : perform r event = some r') : Abandoned s r' := by
  obtain ⟨p, howner, hp, hvalid, hjob, hown⟩ := hab
  have hforeign : ∀ t, r.own t ≠ some p := by
    intro t ht
    obtain rfl : s = t := howner.symm.trans (inv.owned t p ht).1
    exact hown ht
  cases event with
  | login t =>
    cases h
    have hne : p ≠ r.next t := fun heq => (inv.next_new t).1 (heq ▸ hp)
    refine ⟨p, howner, UnorderedSet.mem_insert.mpr (.inr hp), ?_, hjob, ?_⟩
    · show Function.update r.valid _ true p = true
      rw [Function.update_of_ne hne]
      exact hvalid
    · show Function.update r.own t _ s ≠ some p
      by_cases hts : s = t
      · rw [hts, Function.update_self]
        exact fun heq => hne (Option.some.inj heq).symm
      · rw [Function.update_of_ne hts]
        exact hown
  | logout t =>
    cases h
    refine ⟨p, howner, hp, hvalid, fun hmem => ?_, hown⟩
    rcases List.mem_append.mp hmem with hold | hnew
    · exact hjob hold
    · exact hforeign t (List.mem_singleton.mp hnew).symm
  | ended t =>
    cases h
    refine ⟨p, howner, hp, endValid_eq.mpr ⟨hvalid, hforeign t⟩, fun hmem => ?_, ?_⟩
    · rcases List.mem_append.mp hmem with hold | hnew
      · exact hjob hold
      · exact hforeign t (mem_endJobs.mp hnew).1
    · show Function.update r.own t none s ≠ some p
      by_cases hts : s = t
      · rw [hts, Function.update_self]
        exact Option.some_ne_none p ∘ Eq.symm
      · rw [Function.update_of_ne hts]
        exact hown
  | run =>
    obtain ⟨q, rest, hjobs, rfl⟩ := perform_run_eq_some.mp h
    rw [hjobs] at hjob
    have hne : p ≠ q := fun heq => hjob (heq ▸ List.mem_cons_self)
    refine ⟨p, howner, UnorderedSet.mem_erase.mpr ⟨hne, hp⟩, ?_,
      fun hmem => hjob (List.mem_cons_of_mem _ hmem), hown⟩
    show Function.update r.valid q false p = true
    rw [Function.update_of_ne hne]
    exact hvalid
  | idle =>
    cases h
    exact ⟨p, howner, hp, hvalid, hjob, hown⟩

omit [DecidableEq S] in
/-- With no logout waiting, a session whose logins are matched, the last one too, has
no player. -/
theorem Covered.gone (hcov : Covered s r) (hjobs : r.jobs = []) (hun : r.unmatched s = false) :
    ∀ p, p ∈ r.players → p.1 ≠ s := by
  intro p hp howner
  rcases hcov p hp howner with ⟨-, h⟩ | h
  · rw [hun] at h
    cases h
  · rw [hjobs] at h
    exact List.not_mem_nil h

omit [DecidableEq S] in
/-- A session whose last login is unmatched has a connected player. -/
theorem Inv.unmatched_player (inv : Inv r) (hun : r.unmatched s = true) :
    ∃ p, p.1 = s ∧ p ∈ r.players := by
  obtain ⟨p, hown, hvalid, -⟩ := inv.logged s hun
  exact ⟨p, (inv.owned s p hown).1, inv.registered p hvalid⟩

end Covered

section Counting

/-- A list that got one new item. -/
theorem count_append_le {jobs more : List (Option (S × ℤ))} (hold : jobs.count (some p) ≤ 1)
    (hmore : more.count (some p) ≤ 1) (hnew : some p ∈ more → some p ∉ jobs) :
    (jobs ++ more).count (some p) ≤ 1 := by
  rw [List.count_append]
  by_cases hmem : some p ∈ more
  · rw [List.count_eq_zero_of_not_mem (hnew hmem), Nat.zero_add]
    exact hmore
  · rw [List.count_eq_zero_of_not_mem hmem, Nat.add_zero]
    exact hold

/-- At most one item is queued at a time. -/
theorem count_singleton_le (job : Option (S × ℤ)) : [job].count (some p) ≤ 1 :=
  List.count_le_length

theorem count_endJobs_le : (r.endJobs s).count (some p) ≤ 1 := by
  cases hown : r.own s with
  | none => simp [endJobs_of_none hown]
  | some q =>
    rw [endJobs_of_own hown]
    split
    · exact count_singleton_le _
    · exact Nat.zero_le 1

omit [DecidableEq S] in
/-- An unmatched login is that of a registered player nobody logs out yet. -/
theorem Inv.unmatched_own (inv : Inv r) (hun : r.unmatched s = true) (hown : r.own s = some p) :
    p ∈ r.players ∧ some p ∉ r.jobs := by
  obtain ⟨q, hq, hvalid, hjob⟩ := inv.logged s hun
  cases hown.symm.trans hq
  exact ⟨inv.registered p hvalid, hjob⟩

/-- Logouts of registered players none of which waited before keep the counter exact. -/
theorem Exact.queued (hexact : Exact r) {more : List (Option (S × ℤ))}
    (hmore : ∀ p, more.count (some p) ≤ 1)
    (hnew : ∀ p, some p ∈ more → p ∈ r.players ∧ some p ∉ r.jobs)
    (hcnt : r'.loginCnt = r.loginCnt) (hplayers : r'.players = r.players)
    (hjobs : r'.jobs = r.jobs ++ more) : Exact r' := by
  refine ⟨?_, fun p => ?_, fun p hp => ?_⟩
  · rw [hcnt, hplayers]
    exact hexact.loginCnt_eq
  · rw [hjobs]
    exact count_append_le (hexact.once p) (hmore p) fun hmem => (hnew p hmem).2
  · rw [hjobs] at hp
    rw [hplayers]
    rcases List.mem_append.mp hp with hold | hmem
    · exact hexact.present p hold
    · exact (hnew p hmem).1

/-- While the logouts of each player are queued once, the counter is exact. -/
theorem exact_perform (inv : Inv r) (hexact : Exact r) {event : Event S}
    (honce : LogoutOnce r event) (h : perform r event = some r') : Exact r' := by
  have ⟨hcnt, hcount, hpresent⟩ := hexact
  cases event with
  | login t =>
    cases h
    obtain ⟨hnew, -, -⟩ := inv.next_new t
    refine ⟨?_, hcount, fun p hp => UnorderedSet.mem_insert.mpr (.inr (hpresent p hp))⟩
    show r.loginCnt + 1 = ((r.players.insert (r.next t)).elems.length : ℤ)
    rw [UnorderedSet.length_insert hnew, hcnt]
    push_cast
    rfl
  | logout t =>
    cases h
    refine hexact.queued (fun p => count_singleton_le _) (fun p hmem => ?_) rfl rfl rfl
    have hown : r.own t = some p := (List.mem_singleton.mp hmem).symm
    exact inv.unmatched_own (honce (by rw [hown]; exact Option.some_ne_none p)) hown
  | ended t =>
    cases h
    refine hexact.queued (fun p => count_endJobs_le) (fun p hmem => ?_) rfl rfl rfl
    obtain ⟨hown, hvalid⟩ := mem_endJobs.mp hmem
    exact inv.unmatched_own (honce p hown hvalid) hown
  | run =>
    obtain ⟨q, rest, hjobs, rfl⟩ := perform_run_eq_some.mp h
    rw [hjobs] at hcount hpresent
    have hq : q ∈ r.players := hpresent q List.mem_cons_self
    have hrest : some q ∉ rest := by
      have hone := hcount q
      rw [List.count_cons_self] at hone
      exact List.count_eq_zero.mp (by omega)
    refine ⟨?_, fun p => ?_, fun p hp => ?_⟩
    · have hpos : 0 < r.players.elems.length := List.length_pos_of_mem hq
      show r.loginCnt - 1 = ((r.players.erase q).elems.length : ℤ)
      rw [UnorderedSet.length_erase hq, hcnt]
      omega
    · exact le_trans (List.count_le_count_cons ..) (hcount p)
    · refine UnorderedSet.mem_erase.mpr ⟨fun heq => hrest (heq ▸ hp), ?_⟩
      exact hpresent p (List.mem_cons_of_mem _ hp)
  | idle =>
    cases h
    exact ⟨hcnt, hcount, hpresent⟩

end Counting

end Events

end System

end RioIocpServer.PlayerRegistry
