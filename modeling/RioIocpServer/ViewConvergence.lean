import RioIocpServer.Visibility

/-!
# Whom a client shows

A client shows the players whose last message to it was `S2C_ENTER` or `S2C_MOVE`.
The view lists lag behind: a move rewrites the list of the player that moves and not
those of the players it visits. What is shown is still on one of the two lists, so
that one more move of everybody puts it right, once every player is in the sector of
its position. A player that has logged out moves no more: whether it goes on being
shown depends on the list of the other player alone.
-/

namespace RioIocpServer.ViewConvergence

open TransitionSystem Bracketing Contents Visibility
open SectorSearch (Op twoPlayers mem_nearby updateSector_eq movePlayer_eq_some)

/-- The last mark is not a closing one. -/
def shownBy (marks : List Mark) : Bool := marks.getLast?.any fun m => m ≠ .closing

/-- Nothing more was said. -/
@[simp] theorem shownBy_append_nil (marks : List Mark) : shownBy (marks ++ []) = shownBy marks := by
  rw [List.append_nil]

/-- What was said last counts. -/
@[simp] theorem shownBy_concat (marks : List Mark) (m : Mark) :
    shownBy (marks ++ [m]) = decide (m ≠ .closing) := by
  rw [shownBy, List.getLast?_concat, Option.any_some]

/-- A position in view is in view from the other side. -/
theorem near_comm (pos target : PosInfo) (viewDist : ℤ) :
    near pos target viewDist = near target pos viewDist := by
  have hsq : ∀ a b : ℤ, (a - b) * (a - b) = (b - a) * (b - a) := fun a b => by ring
  rw [near, near, isNear, isNear, hsq (GridWindow.trunc pos.x), hsq (GridWindow.trunc pos.y)]

section System

variable {P : Type*} [DecidableEq P]

/-- The client of `c` shows `p`. -/
def Shows (s : State P) (c p : P) : Prop := shownBy (marks c p s.sent) = true

instance (s : State P) (c p : P) : Decidable (Shows s c p) :=
  inferInstanceAs (Decidable (shownBy _ = true))

/-- `IsValidPlayer` of a player. -/
def Connected (s : State P) (p : P) : Prop := (s.room.player p).isValidPlayer = true

instance (s : State P) (p : P) : Decidable (Connected s p) :=
  inferInstanceAs (Decidable (_ = true))

/-- Two players are within the view distance. -/
def InView (s : State P) (p q : P) : Prop :=
  near (s.room.player p).info.toPosInfo (s.room.player q).info.toPosInfo viewDistance = true

instance (s : State P) (p q : P) : Decidable (InView s p q) :=
  inferInstanceAs (Decidable (_ = true))

/-- The sector a player is looked for in is that of its position. -/
def InSector (s : State P) (p : P) : Prop :=
  (s.room.player p).idxInfo = getPlayerSectorIdx (s.room.player p).info.toPosInfo

/-- Nobody logs in, logs out or goes to another position. -/
def Settling : Op P → Prop
  | .movePlayer _ => True
  | .chat _ _ => True
  | _ => False

instance : DecidablePred (Settling (P := P))
  | .login _ => isFalse id
  | .updatePosition _ _ _ => isFalse id
  | .movePlayer _ => isTrue trivial
  | .chat _ _ => isTrue trivial
  | .logout _ => isFalse id

/-- What is shown is listed. -/
structure Listed (s : State P) : Prop where
  /-- Only players that were logged in are listed. -/
  entered : ∀ p q, q ∈ (s.room.player p).viewList → s.entered q = true
  /-- A player that is shown is on the list of the one that shows it or has it on its own. -/
  shown : ∀ c p, c ≠ p → Present s c → Shows s c p →
    p ∈ (s.room.player c).viewList ∨ c ∈ (s.room.player p).viewList

/-- The players are where they were. -/
structure SamePlaces (s s' : State P) : Prop where
  /-- In the same position. -/
  info_eq : ∀ q, (s'.room.player q).info = (s.room.player q).info
  /-- In the same state. -/
  connected_iff : ∀ q, Connected s' q ↔ Connected s q

/-- A player is on display: its view list is right and so is what those around it show. -/
structure OnDisplay (s : State P) (p : P) : Prop where
  /-- The view list holds the players in view. -/
  viewList : ∀ q, q ∈ (s.room.player p).viewList ↔ q ≠ p ∧ Connected s q ∧ InView s p q
  /-- The players in view show it. -/
  shown : ∀ c, c ≠ p → Connected s c → InView s c p → Shows s c p

/-- Every connected player has the right view list, and its client shows the right players. -/
structure Converged (s : State P) : Prop where
  /-- The view lists hold the players in view. -/
  viewList : ∀ p q, Connected s p →
    (q ∈ (s.room.player p).viewList ↔ q ≠ p ∧ Connected s q ∧ InView s p q)
  /-- The clients show the players in view. -/
  shown : ∀ c p, c ≠ p → Connected s c → Connected s p → (Shows s c p ↔ InView s c p)

section Steps

variable {s s' : State P} {op : Op P} {a b c d p q : P} {out : List (P × Message P)}

omit [DecidableEq P] in
/-- Being in view is mutual. -/
theorem inView_comm : InView s p q ↔ InView s q p := by
  rw [InView, InView, near_comm]

/-- A client that was told nothing shows what it did. -/
theorem shows_congr (h : marks c p s'.sent = marks c p s.sent) : Shows s' c p ↔ Shows s c p := by
  rw [Shows, Shows, h]

/-- What a visited player and the one that moves show after a move. -/
theorem shows_visited (hsent : s'.sent = s.sent ++ out) (effect : MoveEffect s.room p s'.room out)
    (hne : c ≠ p) (hc : c ∈ s.room.visited p) :
    Shows s' c p ∧ (Shows s' p c ↔ c ∉ (s.room.player p).viewList ∨ Shows s p c) := by
  obtain ⟨htarget, hmover⟩ := marks_moved hsent effect hne
  rw [Shows, Shows, Shows, htarget, hmover, targetMarks, moverMarks, if_pos hc, if_pos hc]
  constructor
  · rw [shownBy_concat]
    split <;> decide
  · by_cases hto : c ∈ (s.room.player p).viewList
    · rw [if_pos hto, shownBy_append_nil]
      simp [hto]
    · rw [if_neg hto, shownBy_concat]
      simp [hto]

/-- A player that has gone out of sight is shown no more, and its client shows nothing
of the player that moves unless it has logged out. -/
theorem shows_gone (hsent : s'.sent = s.sent ++ out) (effect : MoveEffect s.room p s'.room out)
    (hne : c ≠ p) (hc : c ∉ s.room.visited p) (hto : c ∈ (s.room.player p).viewList) :
    ¬ Shows s' p c ∧ (c ∈ s.room.players → ¬ Shows s' c p) := by
  obtain ⟨htarget, hmover⟩ := marks_moved hsent effect hne
  rw [Shows, Shows, htarget, hmover, targetMarks, moverMarks, if_neg hc, if_neg hc, if_pos hto,
    shownBy_concat]
  refine ⟨by decide, fun hin => ?_⟩
  rw [if_pos ⟨hto, hin⟩, shownBy_concat]
  decide

/-- A move keeps what is shown listed. -/
theorem listed_moved (inv : Visibility.Inv s) (listed : Listed s)
    (hvalid : Connected s p) (hsent : s'.sent = s.sent ++ out)
    (hentered : s'.entered = s.entered) (effect : MoveEffect s.room p s'.room out) : Listed s' := by
  constructor
  · intro a b hab
    rw [hentered]
    by_cases ha : a = p
    · subst ha
      exact inv.entered b (visited_other inv ((effect.viewList_self b).mp hab)).2
    · rw [effect.viewList_other a ha] at hab
      exact listed.entered a b hab
  · intro c d hne hpresent hshows
    rw [Present, hentered, effect.players_eq] at hpresent
    by_cases hd : d = p
    · subst hd
      rw [effect.viewList_self, effect.viewList_other c hne]
      by_cases hc : c ∈ s.room.visited d
      · exact .inr hc
      · by_cases hto : c ∈ (s.room.player d).viewList
        · have hin := hpresent (listed.entered d c hto)
          exact ((shows_gone hsent effect hne hc hto).2 hin hshows).elim
        · rw [shows_congr (marks_apart hsent effect hne hc hto).1] at hshows
          exact .inl ((listed.shown c d hne hpresent hshows).resolve_right hto)
    · by_cases hcp : c = p
      · subst hcp
        rw [effect.viewList_self, effect.viewList_other d hd]
        by_cases hv : d ∈ s.room.visited c
        · exact .inl hv
        · by_cases hto : d ∈ (s.room.player c).viewList
          · exact ((shows_gone hsent effect hd hv hto).1 hshows).elim
          · rw [shows_congr (marks_apart hsent effect hd hv hto).2] at hshows
            exact .inr ((listed.shown c d hne hpresent hshows).resolve_left hto)
      · rw [effect.viewList_other c hcp, effect.viewList_other d hd]
        rw [shows_congr (marks_others hsent effect hcp hd)] at hshows
        exact listed.shown c d hne hpresent hshows

/-- Every operation keeps what is shown listed. -/
theorem listed_step (inv : Visibility.Inv s) (listed : Listed s) (once : LoginOnce s op)
    (h : step s op = some s') : Listed s' := by
  cases step_effect inv once h with
  | quiet _ hview hmarks hentered hpresent _ =>
    constructor
    · intro a b hab
      rw [hview] at hab
      exact hentered b (listed.entered a b hab)
    · intro c d hne hc hshows
      rw [hview, hview]
      rw [shows_congr (hmarks c d)] at hshows
      exact listed.shown c d hne (hpresent c hc) hshows
  | moved p out hvalid hsent hentered effect =>
    exact listed_moved inv listed hvalid hsent hentered effect

end Steps

section Settling

variable {s s' : State P} {op : Op P} {a b c p q : P} {out : List (P × Message P)}

omit [DecidableEq P] in
/-- Nobody logs in while the room settles. -/
theorem Settling.once (h : Settling op) : LoginOnce s op := by
  cases op with
  | login p => exact h.elim
  | _ => trivial

/-- A move leaves the infos and states of all players as they are, and the one that
moves in the sector of its position. -/
theorem movePlayer_places {room room' : Room P} (inv : SectorSearch.Inv room)
    (hvalid : (room.player p).isValidPlayer = true)
    (h : room.movePlayer p = some (room', out)) :
    (∀ q, (room'.player q).info = (room.player q).info ∧
      (room'.player q).state = (room.player q).state) ∧
    (∀ q, q ≠ p → (room'.player q).idxInfo = (room.player q).idxInfo) ∧
    (room'.player p).idxInfo = getPlayerSectorIdx (room'.player p).info.toPosInfo := by
  obtain ⟨moved, hmoved, rfl, -⟩ := movePlayer_eq_some hvalid h
  rw [updateSector_eq (inv.inGrid p (inv.connected p hvalid))] at hmoved
  cases hmoved
  refine ⟨fun q => ?_, fun q hq => ?_, ?_⟩
  · by_cases hq : q = p
    · subst hq
      rw [setPlayer_self]
      split
      · rw [setPlayer_self]
        exact ⟨rfl, rfl⟩
      · exact ⟨rfl, rfl⟩
    · rw [setPlayer_of_ne _ hq]
      split
      · rw [setPlayer_of_ne _ hq]
        exact ⟨rfl, rfl⟩
      · exact ⟨rfl, rfl⟩
  · rw [setPlayer_of_ne _ hq]
    split
    · rw [setPlayer_of_ne _ hq]
    · rfl
  · rw [setPlayer_self]
    split
    · rw [setPlayer_self]
    · rename_i hsame
      exact (not_not.mp hsame).symm

/-- What an operation of a settling room does: nothing, or it moves a connected player. -/
inductive Settles (s s' : State P) : Op P → Prop
  | quiet (op : Op P) (hroom : s'.room = s.room)
      (hmarks : ∀ a b, marks a b s'.sent = marks a b s.sent)
      (hidle : ∀ p, op = .movePlayer p → ¬ Connected s p) : Settles s s' op
  | moved (p : P) (out : List (P × Message P)) (hvalid : Connected s p)
      (hsent : s'.sent = s.sent ++ out) (effect : MoveEffect s.room p s'.room out)
      (places : SamePlaces s s') (hself : InSector s' p)
      (hothers : ∀ q, q ≠ p → (InSector s' q ↔ InSector s q)) : Settles s s' (.movePlayer p)

/-- The effect of an operation of a settling room. -/
theorem settles_of_step (inv : Visibility.Inv s) (hset : Settling op) (h : step s op = some s') :
    Settles s s' op := by
  obtain ⟨⟨room', out⟩, hperform, rfl⟩ := Option.map_eq_some_iff.mp h
  cases op with
  | movePlayer p =>
    by_cases hvalid : (s.room.player p).isValidPlayer = true
    · obtain ⟨hplaces, hothers, hself⟩ := movePlayer_places inv.room hvalid hperform
      refine .moved p out hvalid rfl (movePlayer_effect inv.room hvalid hperform)
        ⟨fun q => (hplaces q).1, fun q => ?_⟩ hself fun q hq => ?_
      · rw [Connected, Connected, Player.isValidPlayer, Player.isValidPlayer, (hplaces q).2]
      · rw [InSector, InSector, hothers q hq, (hplaces q).1]
    · rw [SectorSearch.perform, Room.movePlayer, if_neg hvalid] at hperform
      cases hperform
      refine .quiet _ rfl (fun a b => marks_append _ _ |>.trans (List.append_nil _)) ?_
      rintro _ ⟨rfl⟩
      exact hvalid
  | chat p text =>
    have heffect := step_effect inv hset.once h
    cases hperform
    cases heffect with
    | quiet _ _ hmarks _ _ _ => exact .quiet _ rfl hmarks (by rintro _ ⟨⟩)
  | login p => exact hset.elim
  | updatePosition p pos timeStamp => exact hset.elim
  | logout p => exact hset.elim

/-- Every operation of a settling room goes through. -/
theorem settling_enabled (inv : Visibility.Inv s) (hset : Settling op) :
    ∃ s', step s op = some s' ∧ Visibility.Inv s' := by
  have hperform : ∃ result, SectorSearch.perform s.room op = some result := by
    cases op with
    | movePlayer p =>
      show ∃ result, s.room.movePlayer p = some result
      rw [Room.movePlayer]
      split
      · rename_i hvalid
        rw [updateSector_eq (inv.room.inGrid p (inv.room.connected p hvalid))]
        exact ⟨_, rfl⟩
      · exact ⟨_, rfl⟩
    | chat p text => exact ⟨_, rfl⟩
    | login p => exact hset.elim
    | updatePosition p pos timeStamp => exact hset.elim
    | logout p => exact hset.elim
  obtain ⟨result, hresult⟩ := hperform
  have h : step s op = some ⟨result.1, s.sent ++ result.2, entered s.entered op⟩ :=
    Option.map_eq_some_iff.mpr ⟨result, hresult, rfl⟩
  exact ⟨_, h, inv_step inv hset.once h⟩

/-- Players stay where they are while the room settles. -/
theorem samePlaces_step (inv : Visibility.Inv s) (hset : Settling op) (h : step s op = some s') :
    SamePlaces s s' := by
  cases settles_of_step inv hset h with
  | quiet _ hroom _ _ =>
    exact ⟨fun q => by rw [hroom], fun q => by rw [Connected, Connected, hroom]⟩
  | moved _ _ _ _ _ places _ _ => exact places

/-- A player that is in the sector of its position stays there while the room settles. -/
theorem inSector_step (inv : Visibility.Inv s) (hset : Settling op) (hq : InSector s q)
    (h : step s op = some s') : InSector s' q := by
  cases settles_of_step inv hset h with
  | quiet _ hroom _ _ =>
    rw [InSector, hroom]
    exact hq
  | moved p _ _ _ _ _ hself hothers =>
    by_cases hqp : q = p
    · rw [hqp]
      exact hself
    · exact (hothers q hqp).mpr hq

/-- A connected player that moves is in the sector of its position. -/
theorem inSector_moved (inv : Visibility.Inv s) (hp : Connected s p)
    (h : step s (.movePlayer p) = some s') : InSector s' p := by
  have hset : Settling (.movePlayer p : Op P) := trivial
  cases settles_of_step inv hset h with
  | quiet _ _ _ hidle => exact (hidle p rfl hp).elim
  | moved _ _ _ _ _ _ hself _ => exact hself

/-- When all connected players are in the sectors of their positions, a move visits
those in view. -/
theorem mem_visited_iff (inv : Visibility.Inv s) (hsync : ∀ q, Connected s q → InSector s q) :
    q ∈ s.room.visited p ↔ q ≠ p ∧ Connected s q ∧ InView s p q := by
  rw [Room.visited, List.mem_filter, mem_nearby inv.room, and_comm, decide_eq_true_eq]
  refine and_congr_right fun _ => ?_
  constructor
  · rintro ⟨⟨-, hstate, hnear⟩, -⟩
    exact ⟨decide_eq_true hstate, hnear⟩
  · rintro ⟨hvalid, hnear⟩
    refine ⟨⟨inv.room.connected q hvalid, of_decide_eq_true hvalid, hnear⟩, ?_⟩
    rw [hsync q hvalid]
    exact mem_adjacentSectors hnear

omit [DecidableEq P] in
/-- Who is in view stays as it is where the players do. -/
theorem SamePlaces.inView_iff (places : SamePlaces s s') : InView s' p q ↔ InView s p q := by
  rw [InView, InView, places.info_eq p, places.info_eq q]

/-- A connected player that moves is on display. -/
theorem onDisplay_moved (inv : Visibility.Inv s) (hsync : ∀ q, Connected s q → InSector s q)
    (hp : Connected s p) (h : step s (.movePlayer p) = some s') : OnDisplay s' p := by
  have hset : Settling (.movePlayer p : Op P) := trivial
  cases settles_of_step inv hset h with
  | quiet _ _ _ hidle => exact (hidle p rfl hp).elim
  | moved _ _ _ hsent effect places _ _ =>
    constructor
    · intro q
      rw [effect.viewList_self, mem_visited_iff inv hsync, places.connected_iff, places.inView_iff]
    · intro c hne hc hview
      rw [places.connected_iff] at hc
      rw [places.inView_iff, inView_comm] at hview
      exact (shows_visited hsent effect hne ((mem_visited_iff inv hsync).mpr ⟨hne, hc, hview⟩)).1

/-- A player on display stays so while the room settles. -/
theorem onDisplay_step (inv : Visibility.Inv s) (hsync : ∀ q, Connected s q → InSector s q)
    (hset : Settling op) (hp : Connected s p) (hdisplay : OnDisplay s p)
    (h : step s op = some s') : OnDisplay s' p := by
  cases settles_of_step inv hset h with
  | quiet _ hroom hmarks _ =>
    constructor
    · intro q
      rw [Connected, InView, hroom]
      exact hdisplay.viewList q
    · intro c hne hc hview
      rw [Connected, hroom] at hc
      rw [InView, hroom] at hview
      exact (shows_congr (hmarks c p)).mpr (hdisplay.shown c hne hc hview)
  | moved r out hvalid hsent effect places _ _ =>
    by_cases hpr : p = r
    · subst hpr
      exact onDisplay_moved inv hsync hp h
    · constructor
      · intro q
        rw [effect.viewList_other p hpr, places.connected_iff, places.inView_iff]
        exact hdisplay.viewList q
      · intro c hne hc hview
        rw [places.connected_iff] at hc
        rw [places.inView_iff] at hview
        have hshows := hdisplay.shown c hne hc hview
        by_cases hcr : c = r
        · subst hcr
          have hvisited := (mem_visited_iff inv hsync).mpr ⟨hpr, hp, hview⟩
          exact (shows_visited hsent effect hpr hvisited).2.mpr (.inr hshows)
        · exact (shows_congr (marks_others hsent effect hcr hpr)).mpr hshows

/-- Players that are all on display have converged. -/
theorem converged_of_onDisplay (inv : Visibility.Inv s) (listed : Listed s)
    (hdisplay : ∀ p, Connected s p → OnDisplay s p) : Converged s := by
  refine ⟨fun p q hp => (hdisplay p hp).viewList q, fun c p hne hc hp => ⟨fun hshows => ?_, ?_⟩⟩
  · have hpresent : Present s c := fun _ => inv.room.connected c hc
    rcases listed.shown c p hne hpresent hshows with hto | hback
    · exact (((hdisplay c hc).viewList p).mp hto).2.2
    · exact inView_comm.mp (((hdisplay p hp).viewList c).mp hback).2.2
  · exact (hdisplay p hp).shown c hne hc

end Settling

section Runs

variable {player : P → Player P} {s s' : State P} {ops : List (Op P)} {p : P}

/-- What holds after a run in which every player is logged in once. -/
theorem inv_run (hfresh : ∀ p, (player p).Fresh) (hr : run step (init player) ops = some s)
    (once : StepsMeet step LoginOnce (init player) ops) : Visibility.Inv s ∧ Listed s := by
  have hlisted : Listed (init player) := by
    constructor
    · intro a b hab
      change b ∈ (player a).viewList at hab
      rw [(hfresh a).viewList_eq] at hab
      exact (UnorderedSet.not_mem_empty hab).elim
    · intro c d _ _ hshows
      cases hshows
  have hstep : ∀ (s : State P) (op : Op P) (s' : State P), Visibility.Inv s ∧ Listed s →
      LoginOnce s op → step s op = some s' → Visibility.Inv s' ∧ Listed s' := by
    rintro s op s' ⟨inv, listed⟩ once h
    exact ⟨inv_step inv once h, listed_step inv listed once h⟩
  have hend := run_preserves hstep ⟨inv_init hfresh, hlisted⟩ once hr
  exact hend

/-- A run of a settling room leaves the players where they are. -/
theorem samePlaces_run (inv : Visibility.Inv s) (hset : ∀ op ∈ ops, Settling op)
    (hr : run step s ops = some s') : Visibility.Inv s' ∧ SamePlaces s s' := by
  have hstep : ∀ (m : State P) (op : Op P) (m' : State P), Visibility.Inv m ∧ SamePlaces s m →
      Settling op → step m op = some m' → Visibility.Inv m' ∧ SamePlaces s m' := by
    rintro m op m' ⟨invm, places⟩ hop h
    have next := samePlaces_step invm hop h
    exact ⟨inv_step invm hop.once h, fun q => (next.info_eq q).trans (places.info_eq q),
      fun q => (next.connected_iff q).trans (places.connected_iff q)⟩
  have hend := run_preserves hstep ⟨inv, fun _ => rfl, fun _ => Iff.rfl⟩
    (stepsMeet_of_forall fun op hop _ => hset op hop) hr
  exact hend

/-- A connected player that moves in a run of a settling room is in the sector of
its position behind it. -/
theorem inSector_run (inv : Visibility.Inv s) (hset : ∀ op ∈ ops, Settling op)
    (hp : Connected s p) (hmoves : .movePlayer p ∈ ops) (hr : run step s ops = some s') :
    InSector s' p := by
  have hinv : ∀ (m : State P) (op : Op P) (m' : State P), Visibility.Inv m ∧ Connected m p →
      Settling op → step m op = some m' → Visibility.Inv m' ∧ Connected m' p := by
    rintro m op m' ⟨invm, hpm⟩ hop h
    exact ⟨inv_step invm hop.once h, ((samePlaces_step invm hop h).connected_iff p).mpr hpm⟩
  have hend := run_establishes hinv (fun m op m' hm hop hq h => inSector_step hm.1 hop hq h)
    (fun m m' hm _ h => inSector_moved hm.1 hm.2 h) ⟨inv, hp⟩ hmoves
    (stepsMeet_of_forall fun op hop _ => hset op hop) hr
  exact hend

/-- A connected player that moves in a run of a settling room is on display behind
it, when all are in the sectors of their positions. -/
theorem onDisplay_run (inv : Visibility.Inv s) (hsync : ∀ q, Connected s q → InSector s q)
    (hset : ∀ op ∈ ops, Settling op) (hp : Connected s p) (hmoves : .movePlayer p ∈ ops)
    (hr : run step s ops = some s') : OnDisplay s' p := by
  have hinv : ∀ (m : State P) (op : Op P) (m' : State P),
      Visibility.Inv m ∧ (∀ q, Connected m q → InSector m q) ∧ Connected m p → Settling op →
      step m op = some m' →
      Visibility.Inv m' ∧ (∀ q, Connected m' q → InSector m' q) ∧ Connected m' p := by
    rintro m op m' ⟨invm, hm, hpm⟩ hop h
    have places := samePlaces_step invm hop h
    exact ⟨inv_step invm hop.once h, fun q hq =>
      inSector_step invm hop (hm q ((places.connected_iff q).mp hq)) h,
      (places.connected_iff p).mpr hpm⟩
  have hend := run_establishes hinv
    (fun m op m' hm hop hq h => onDisplay_step hm.1 hm.2.1 hop hm.2.2 hq h)
    (fun m m' hm _ h => onDisplay_moved hm.1 hm.2.1 hm.2.2 h) ⟨inv, hsync, hp⟩ hmoves
    (stepsMeet_of_forall fun op hop _ => hset op hop) hr
  exact hend

end Runs

section Departures

variable {s s' : State P} {op : Op P} {c p : P}

/-- A connected player that moves has the effect of a move. -/
theorem effect_moved (inv : Visibility.Inv s) (hp : Connected s p)
    (h : step s (.movePlayer p) = some s') : ∃ out, s'.sent = s.sent ++ out ∧
      s'.entered = s.entered ∧ MoveEffect s.room p s'.room out := by
  obtain ⟨⟨room', out⟩, hperform, rfl⟩ := Option.map_eq_some_iff.mp h
  exact ⟨out, rfl, rfl, movePlayer_effect inv.room hp hperform⟩

/-- What the next move of its client does to a departed player that is shown. -/
theorem departed_moved (inv : Visibility.Inv s) (hgone : ¬ Present s p) (hne : c ≠ p)
    (hc : Connected s c) (h : step s (.movePlayer c) = some s') :
    p ∉ (s'.room.player c).viewList ∧
      (Shows s' c p ↔ Shows s c p ∧ p ∉ (s.room.player c).viewList) := by
  obtain ⟨out, hsent, -, effect⟩ := effect_moved inv hc h
  have hvisited : p ∉ s.room.visited c := fun hv => hgone fun _ => (visited_other inv hv).2
  refine ⟨fun hlist => hvisited ((effect.viewList_self p).mp hlist), ?_⟩
  by_cases hto : p ∈ (s.room.player c).viewList
  · exact iff_of_false (shows_gone hsent effect hne.symm hvisited hto).1 fun hold => hold.2 hto
  · rw [shows_congr (marks_apart hsent effect hne.symm hvisited hto).2]
    exact (and_iff_left hto).symm

/-- A step leaves a departed player as it is on a list and on a screen, or it is the
move of the one that has the list. -/
theorem departed_step (inv : Visibility.Inv s) (hgone : ¬ Present s p) (hne : c ≠ p)
    (once : LoginOnce s op) (h : step s op = some s') :
    ¬ Present s' p ∧
      (((s'.room.player c).viewList = (s.room.player c).viewList ∧ (Shows s' c p ↔ Shows s c p)) ∨
        (p ∉ (s'.room.player c).viewList ∧
          (Shows s' c p ↔ Shows s c p ∧ p ∉ (s.room.player c).viewList))) := by
  cases step_effect inv once h with
  | quiet _ hview hmarks _ hpresent _ =>
    exact ⟨fun hp => hgone (hpresent p hp), .inl ⟨hview c, shows_congr (hmarks c p)⟩⟩
  | moved r out hvalid hsent hentered effect =>
    have hpr : p ≠ r := by
      rintro rfl
      exact hgone fun _ => inv.room.connected p hvalid
    refine ⟨fun hp => hgone ?_, ?_⟩
    · rw [Present, hentered, effect.players_eq] at hp
      exact hp
    · by_cases hcr : c = r
      · subst hcr
        exact .inr (departed_moved inv hgone hne hvalid h)
      · exact .inl ⟨effect.viewList_other c hcr, shows_congr (marks_others hsent effect hcr hpr)⟩

/-- A departed player that is shown without being listed stays so. -/
theorem ghost_step (inv : Visibility.Inv s) (hgone : ¬ Present s p) (hne : c ≠ p)
    (hghost : Shows s c p ∧ p ∉ (s.room.player c).viewList) (once : LoginOnce s op)
    (h : step s op = some s') : Shows s' c p ∧ p ∉ (s'.room.player c).viewList := by
  obtain ⟨-, ⟨hlist, hshows⟩ | ⟨hlist, hshows⟩⟩ := departed_step inv hgone hne once h
  · rw [hlist, hshows]
    exact hghost
  · exact ⟨hshows.mpr hghost, hlist⟩

/-- A departed player that is shown only while it is listed stays so. -/
theorem listing_step (inv : Visibility.Inv s) (hgone : ¬ Present s p) (hne : c ≠ p)
    (hlisting : Shows s c p → p ∈ (s.room.player c).viewList) (once : LoginOnce s op)
    (h : step s op = some s') : Shows s' c p → p ∈ (s'.room.player c).viewList := by
  intro hshown
  obtain ⟨-, ⟨hlist, hshows⟩ | ⟨-, hshows⟩⟩ := departed_step inv hgone hne once h
  · rw [hlist]
    exact hlisting (hshows.mp hshown)
  · obtain ⟨hold, hnot⟩ := hshows.mp hshown
    exact (hnot (hlisting hold)).elim

/-- A departed player that is neither listed nor shown stays so. -/
theorem forgotten_step (inv : Visibility.Inv s) (hgone : ¬ Present s p) (hne : c ≠ p)
    (hforgotten : ¬ Shows s c p ∧ p ∉ (s.room.player c).viewList) (once : LoginOnce s op)
    (h : step s op = some s') : ¬ Shows s' c p ∧ p ∉ (s'.room.player c).viewList := by
  obtain ⟨-, ⟨hlist, hshows⟩ | ⟨hlist, hshows⟩⟩ := departed_step inv hgone hne once h
  · rw [hlist, hshows]
    exact hforgotten
  · exact ⟨fun hshown => hforgotten.1 (hshows.mp hshown).1, hlist⟩

/-- What every step keeps of a departed player is kept by a run. -/
theorem departed_run {Q : State P → Prop} {ops : List (Op P)} (hne : c ≠ p)
    (hstep : ∀ s op s', Visibility.Inv s → ¬ Present s p → Q s → LoginOnce s op →
      step s op = some s' → Q s')
    (inv : Visibility.Inv s) (hgone : ¬ Present s p) (hQ : Q s)
    (once : StepsMeet step LoginOnce s ops) (hr : run step s ops = some s') :
    Visibility.Inv s' ∧ ¬ Present s' p ∧ Q s' := by
  have hkept : ∀ (s : State P) (op : Op P) (s' : State P),
      Visibility.Inv s ∧ ¬ Present s p ∧ Q s → LoginOnce s op → step s op = some s' →
      Visibility.Inv s' ∧ ¬ Present s' p ∧ Q s' := by
    rintro s op s' ⟨inv, hgone, hQ⟩ once h
    exact ⟨inv_step inv once h, (departed_step inv hgone hne once h).1,
      hstep s op s' inv hgone hQ once h⟩
  have hend := run_preserves hkept ⟨inv, hgone, hQ⟩ once hr
  exact hend

end Departures

end System

/-- However the players have moved before: when nobody logs in, logs out or takes
another position any more, two rounds of moves, in each of which every connected player
moves at least once, in any order and with chats between them, make every view list that
of the players in view, and every client show those players and no other connected one.
The second round begins when the first is over, and the coordinates are exact. -/
theorem views_converge {P : Type*} [DecidableEq P] {player : P → Player P}
    (hfresh : ∀ p, (player p).Fresh) {ops first second : List (Op P)} {s : State P}
    (hr : run step (init player) ops = some s)
    (once : StepsMeet step LoginOnce (init player) ops)
    (hset : ∀ op ∈ first ++ second, Settling op)
    (hmoves : ∀ p, Connected s p → .movePlayer p ∈ first ∧ .movePlayer p ∈ second) :
    ∃ s', run step s (first ++ second) = some s' ∧ SamePlaces s s' ∧ Converged s' := by
  obtain ⟨inv, listed⟩ := inv_run hfresh hr once
  have hfirst : ∀ op ∈ first, Settling op := fun op hop => hset op (List.mem_append_left _ hop)
  have hsecond : ∀ op ∈ second, Settling op := fun op hop => hset op (List.mem_append_right _ hop)
  obtain ⟨s', hs'⟩ := exists_run (fun _ _ => settling_enabled) inv hset
  obtain ⟨m, hm, hrest⟩ := run_append_eq_some.mp hs'
  obtain ⟨invm, placesm⟩ := samePlaces_run inv hfirst hm
  obtain ⟨inv', places⟩ := samePlaces_run inv hset hs'
  have hsync : ∀ q, Connected m q → InSector m q := by
    intro q hq
    have hqs := (placesm.connected_iff q).mp hq
    exact inSector_run inv hfirst hqs (hmoves q hqs).1 hm
  have hdisplay : ∀ q, Connected s' q → OnDisplay s' q := by
    intro q hq
    have hqs := (places.connected_iff q).mp hq
    have hqm := (placesm.connected_iff q).mpr hqs
    exact onDisplay_run invm hsync hsecond hqm (hmoves q hqs).2 hrest
  have listed' : Listed s' := by
    have hkept : ∀ (m : State P) (op : Op P) (m' : State P), Visibility.Inv m ∧ Listed m →
        Settling op → step m op = some m' → Visibility.Inv m' ∧ Listed m' := by
      rintro m op m' ⟨invm, listedm⟩ hop h
      exact ⟨inv_step invm hop.once h, listed_step invm listedm hop.once h⟩
    have hend := run_preserves hkept ⟨inv, listed⟩
      (stepsMeet_of_forall fun op hop _ => hset op hop) hs'
    exact hend.2
  exact ⟨s', hs', places, converged_of_onDisplay inv' listed' hdisplay⟩

/-- Two players that see each other part, and one follows the other. -/
def pursuit : List (Op Bool) :=
  [.login true, .login false, .movePlayer true, .movePlayer false,
    .updatePosition true SectorJobs.farPos 1, .movePlayer true,
    .updatePosition false SectorJobs.farPos 2, .movePlayer false]

/-- One of them does not show the other one in front of it, until both have moved twice. -/
theorem views_converge_pursuit : ∃ s s', run step (init twoPlayers) pursuit = some s ∧
    InView s false true ∧ ¬ Shows s false true ∧
    run step s ([.movePlayer true, .movePlayer false] ++ [.movePlayer false, .movePlayer true]) =
      some s' ∧ SamePlaces s s' ∧ Converged s' := by
  have h : ((run step (init twoPlayers) pursuit).any fun s =>
      InView s false true ∧ ¬ Shows s false true) = true := by
    decide +kernel
  obtain ⟨s, hr, hview⟩ := (Option.any_eq_true _ _).mp h
  obtain ⟨hin, hnot⟩ := of_decide_eq_true hview
  obtain ⟨s', hs', places, hconv⟩ := @views_converge Bool _ twoPlayers (fun p => ⟨rfl, rfl⟩) pursuit
    [.movePlayer true, .movePlayer false] [.movePlayer false, .movePlayer true] s hr
    (by decide +kernel) (by simp [Settling]) (fun p _ => by cases p <;> simp)
  exact ⟨s, s', hr, hin, hnot, hs', places, hconv⟩

/-- With the operations executed one at a time, a player that has logged out while another
client showed it is shown by that client after its next move, and for ever, exactly if it
was not on the view list of the client's own player. -/
theorem departed_shown_iff {P : Type*} [DecidableEq P] {player : P → Player P}
    (hfresh : ∀ p, (player p).Fresh) {ops before after : List (Op P)} {s m s' : State P} {c p : P}
    (hne : c ≠ p) (hr : run step (init player) ops = some s)
    (once : StepsMeet step LoginOnce (init player) ops)
    (hgone : ¬ Present s p) (hshows : Shows s c p)
    (hbefore : run step s before = some m) (onceBefore : StepsMeet step LoginOnce s before)
    (hc : Connected m c) (hafter : run step m (.movePlayer c :: after) = some s')
    (onceAfter : StepsMeet step LoginOnce m (.movePlayer c :: after)) :
    Shows s' c p ↔ p ∉ (s.room.player c).viewList := by
  obtain ⟨inv, -⟩ := inv_run hfresh hr once
  by_cases hlist : p ∈ (s.room.player c).viewList
  · refine iff_of_false ?_ fun hnot => hnot hlist
    obtain ⟨invm, hgonem, hlisting⟩ := departed_run hne
      (fun _ _ _ inv hgone hq once h => listing_step inv hgone hne hq once h) inv hgone
      (fun _ => hlist) onceBefore hbefore
    obtain ⟨n, hn, hrest⟩ := run_cons_eq_some.mp hafter
    obtain ⟨hlistn, hshowsn⟩ := departed_moved invm hgonem hne hc hn
    have hforgotten : ¬ Shows n c p ∧ p ∉ (n.room.player c).viewList := by
      refine ⟨fun hn => ?_, hlistn⟩
      obtain ⟨hold, hnot⟩ := hshowsn.mp hn
      exact hnot (hlisting hold)
    exact (departed_run hne
      (fun _ _ _ inv hgone hq once h => forgotten_step inv hgone hne hq once h)
      (inv_step invm onceAfter.1 hn) (departed_step invm hgonem hne onceAfter.1 hn).1 hforgotten
      (onceAfter.2 n hn) hrest).2.2.1
  · refine iff_of_true ?_ hlist
    obtain ⟨invm, hgonem, hghost⟩ := departed_run hne
      (fun _ _ _ inv hgone hq once h => ghost_step inv hgone hne hq once h) inv hgone
      ⟨hshows, hlist⟩ onceBefore hbefore
    exact (departed_run hne
      (fun _ _ _ inv hgone hq once h => ghost_step inv hgone hne hq once h) invm hgonem hghost
      onceAfter hafter).2.2.1

/-- A player shows itself once to another one, which does not move, and logs out. -/
def farewell : List (Op Bool) := [.login true, .login false, .movePlayer true, .logout true]

/-- The other one shows it still when it has moved and moves again. -/
theorem departed_shown_farewell : ∃ s s', run step (init twoPlayers) farewell = some s ∧
    true ∉ s.room.players ∧ true ∉ (s.room.player false).viewList ∧
    run step s [.movePlayer false, .movePlayer false] = some s' ∧ Shows s' false true := by
  have h : ((run step (init twoPlayers) farewell).any fun s =>
      (s.entered true = true ∧ true ∉ s.room.players ∧ true ∉ (s.room.player false).viewList) ∧
      Shows s false true ∧ Connected s false ∧
      StepsMeet step LoginOnce s [.movePlayer false, .movePlayer false] ∧
      (run step s [.movePlayer false, .movePlayer false]).isSome = true) = true := by
    decide +kernel
  obtain ⟨s, hr, hview⟩ := (Option.any_eq_true _ _).mp h
  obtain ⟨⟨hentered, hplayers, hlist⟩, hshows, hc, hmeet, hsome⟩ := of_decide_eq_true hview
  obtain ⟨s', hs'⟩ := Option.isSome_iff_exists.mp hsome
  have hiff := @departed_shown_iff Bool _ twoPlayers (fun p => ⟨rfl, rfl⟩) farewell []
    [.movePlayer false] s s s' false true (by decide) hr (by decide +kernel)
    (fun hp => hplayers (hp hentered)) hshows rfl trivial hc hs' hmeet
  exact ⟨s, s', hr, hplayers, hlist, hs', hiff.mpr hlist⟩

end RioIocpServer.ViewConvergence
