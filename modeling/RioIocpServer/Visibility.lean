import RioIocpServer.Bracketing
import RioIocpServer.SectorSearch

/-!
# What clients are told about other players

`S2C_ENTER`, `S2C_MOVE` and `S2C_LEAVE` are meant to show a player to a client
from the moment it comes into view until it goes out of view. Which of the first
two a target of `Zone::MovePlayer` gets is decided by the target's view list,
which only the target's own moves rewrite. The operations of the room are
executed one at a time; the messages sent and the logins are history.
-/

namespace RioIocpServer.Visibility

open TransitionSystem Bracketing Contents SectorSearch

/-- The room with the history of what was sent. -/
structure State (P : Type*) where
  /-- The room and the players. -/
  room : Room P
  /-- History: the messages in the order they were sent, with their receivers. -/
  sent : List (P × Message P)
  /-- History: the player was logged in. -/
  entered : P → Bool

section System

variable {P : Type*} [DecidableEq P]

/-- What a message tells the client of `c` about `p`. -/
def mark (c p : P) : P × Message P → Option Mark
  | (receiver, .enter targetId _) => if receiver = c ∧ targetId = p then some .opening else none
  | (receiver, .move targetId _) => if receiver = c ∧ targetId = p then some .inside else none
  | (receiver, .leave targetId) => if receiver = c ∧ targetId = p then some .closing else none
  | _ => none

/-- All a client was told about a player, in order. -/
def marks (c p : P) (sent : List (P × Message P)) : List Mark := sent.filterMap (mark c p)

/-- A room of new players. -/
def init (player : P → Player P) : State P := ⟨Room.new player, [], fun _ => false⟩

/-- The logins after an operation. -/
def entered (before : P → Bool) : Op P → P → Bool
  | .login p => Function.update before p true
  | _ => before

/-- One operation of the room. -/
def step (s : State P) (op : Op P) : Option (State P) :=
  (perform s.room op).map fun result => ⟨result.1, s.sent ++ result.2, entered s.entered op⟩

/-- Every client is told of every other player in repetitions of `ENTER`, any
number of `MOVE`, `LEAVE`. -/
def WellBracketed (s : State P) : Prop := ∀ c p, c ≠ p → Bracketed (marks c p s.sent)

omit [DecidableEq P] in
/-- `Room::Login` is called once for a player, right after its construction. -/
def LoginOnce (s : State P) : Op P → Prop
  | .login p => s.entered p = false
  | _ => True

omit [DecidableEq P] in
instance (s : State P) : DecidablePred (LoginOnce s)
  | .login p => inferInstanceAs (Decidable (s.entered p = false))
  | .updatePosition .. => isTrue trivial
  | .movePlayer _ => isTrue trivial
  | .chat .. => isTrue trivial
  | .logout _ => isTrue trivial

/-- A player moves in sight of others only while neither of them has the other in
its view list. -/
def Strangers (s : State P) : Op P → Prop
  | .movePlayer p => (s.room.player p).isValidPlayer = true → ∀ q ∈ s.room.visited p,
      q ∉ (s.room.player p).viewList ∧ p ∉ (s.room.player q).viewList
  | _ => True

/-- The last the client of `c` was told about `p` left it in view or not. -/
def Told (s : State P) (c p : P) (inView : Bool) : Prop :=
  run accept false (marks c p s.sent) = some inView

omit [DecidableEq P] in
/-- A player that is logged in or never was. -/
def Present (s : State P) (p : P) : Prop := s.entered p = true → p ∈ s.room.players

/-- The invariant of the room and the logins. -/
structure Inv (s : State P) : Prop where
  /-- The invariant of the room. -/
  room : SectorSearch.Inv s.room
  /-- Who is logged in was logged in. -/
  entered : ∀ p, p ∈ s.room.players → s.entered p = true
  /-- A player that was not has seen nobody. -/
  unseen : ∀ p q, q ∈ (s.room.player p).viewList → s.entered p = true

/-- The view lists in runs whose moves are those of strangers. -/
structure Pairs (s : State P) : Prop where
  /-- At most one of two players has the other in its list. -/
  oneSided : ∀ p q, q ∈ (s.room.player p).viewList → p ∉ (s.room.player q).viewList
  /-- Then both clients have the other player in view. -/
  listed : ∀ p q, q ∈ (s.room.player p).viewList → Told s p q true ∧ Told s q p true
  /-- Only players that were logged in are listed. -/
  listed_entered : ∀ p q, q ∈ (s.room.player p).viewList → s.entered q = true
  /-- If neither has the other in its list, neither client has the other in view. -/
  unlisted : ∀ p q, p ≠ q → q ∉ (s.room.player p).viewList → p ∉ (s.room.player q).viewList →
    Present s p → Present s q → Told s p q false

section Messages

variable {room moved room' : Room P} {a b c p q : P} {out : List (P × Message P)}

theorem marks_append (xs ys : List (P × Message P)) :
    marks c p (xs ++ ys) = marks c p xs ++ marks c p ys := List.filterMap_append

/-- A loop that says something about a pair for one target at most. -/
theorem marks_flatMap {targets : List P} {f : P → List (P × Message P)} (d : P)
    (hnodup : targets.Nodup) (hother : ∀ t, t ≠ d → marks a b (f t) = []) :
    marks a b (targets.flatMap f) = if d ∈ targets then marks a b (f d) else [] := by
  induction targets with
  | nil => rfl
  | cons t targets ih =>
    obtain ⟨hnotin, hrest⟩ := List.nodup_cons.mp hnodup
    rw [List.flatMap_cons, marks_append, ih hrest]
    by_cases ht : t = d
    · subst ht
      rw [if_neg hnotin, if_pos List.mem_cons_self, List.append_nil]
    · rw [hother t ht, List.nil_append]
      simp [Ne.symm ht]

/-- What the client of a target is told about the player that moves. -/
def targetMarks (room : Room P) (p c : P) : List Mark :=
  if c ∈ room.visited p then [if p ∈ (room.player c).viewList then .inside else .opening]
  else if c ∈ (room.player p).viewList ∧ c ∈ room.players then [.closing]
  else []

/-- What the client of the player that moves is told about a target. -/
def moverMarks (room : Room P) (p c : P) : List Mark :=
  if c ∈ room.visited p then if c ∈ (room.player p).viewList then [] else [.opening]
  else if c ∈ (room.player p).viewList then [.closing]
  else []

/-- A target of a move and the player that moves are told of each other. -/
theorem marks_moveMessages (hc : c ≠ p) (target : P) :
    marks c p (room.moveMessages p target) = (if target = c then
      [if p ∈ (room.player c).viewList then Mark.inside else .opening] else []) ∧
    marks p c (room.moveMessages p target) =
      (if target = c ∧ c ∉ (room.player p).viewList then [Mark.opening] else []) := by
  by_cases ht : target = c
  · subst ht
    by_cases hto : p ∈ (room.player target).viewList <;>
      by_cases hback : target ∈ (room.player p).viewList <;>
      simp [Room.moveMessages, marks, mark, hto, hback, hc, Ne.symm hc]
  · by_cases hto : p ∈ (room.player target).viewList <;>
      by_cases hback : target ∈ (room.player p).viewList <;>
      simp [Room.moveMessages, marks, mark, hto, hback, ht, Ne.symm hc]

/-- So are the two when the target has gone out of view. -/
theorem marks_leaveMessages (hc : c ≠ p) (target : P) :
    marks c p (room.leaveMessages p target) =
      (if target = c ∧ c ∈ room.players then [Mark.closing] else []) ∧
    marks p c (room.leaveMessages p target) = if target = c then [Mark.closing] else [] := by
  by_cases ht : target = c
  · subst ht
    by_cases hin : target ∈ room.players <;>
      simp [Room.leaveMessages, marks, mark, hin, hc, Ne.symm hc]
  · by_cases hin : target ∈ room.players <;>
      simp [Room.leaveMessages, marks, mark, hin, ht, Ne.symm hc]

/-- Nobody else is told anything by a move. -/
theorem marks_other (ha : a ≠ p) (hb : b ≠ p) (target : P) :
    marks a b (room.moveMessages p target) = [] ∧
      marks a b (room.leaveMessages p target) = [] := by
  constructor
  · by_cases hto : p ∈ (room.player target).viewList <;>
      by_cases hback : target ∈ (room.player p).viewList <;>
      simp [Room.moveMessages, marks, mark, hto, hback, Ne.symm ha, Ne.symm hb]
  · by_cases hin : target ∈ room.players <;>
      simp [Room.leaveMessages, marks, mark, hin, Ne.symm ha, Ne.symm hb]

end Messages

section Moves

variable {s s' : State P} {room moved room' : Room P} {a b c p q : P} {out : List (P × Message P)}

/-- Changing the sector of a player leaves the rest of the room as it is. -/
theorem updateSector_frame (hgrid : InGrid (room.player p).idxInfo)
    (h : room.updateSector p = some moved) :
    moved.players = room.players ∧ (∀ q, q ≠ p → moved.player q = room.player q) ∧
      (moved.player p).info = (room.player p).info ∧
      (moved.player p).viewList = (room.player p).viewList := by
  rw [updateSector_eq hgrid] at h
  cases h
  split
  · refine ⟨rfl, fun q hq => setPlayer_of_ne _ hq, ?_, ?_⟩ <;> rw [setPlayer_self]
  · exact ⟨rfl, fun _ _ => rfl, rfl, rfl⟩

/-- Whom a move visits does not depend on the sector of the player that moves. -/
theorem mem_visited_moved (inv : SectorSearch.Inv room) (hp : p ∈ room.players)
    (h : room.updateSector p = some moved) : q ∈ moved.visited p ↔ q ∈ room.visited p := by
  obtain ⟨hplayers, hothers, hinfo, -⟩ := updateSector_frame (inv.inGrid p hp) h
  have inv' := inv_updateSector inv hp h
  simp only [Room.visited, List.mem_filter, mem_nearby inv', mem_nearby inv, Sees, hplayers, hinfo,
    decide_eq_true_eq]
  by_cases hq : q = p
  · simp [hq]
  · rw [hothers q hq]

/-- What a move of a connected player tells the two clients of each pair. -/
structure MoveEffect (room : Room P) (p : P) (room' : Room P) (out : List (P × Message P)) :
    Prop where
  /-- Nobody logs in or out. -/
  players_eq : room'.players = room.players
  /-- The new view list of the player is the list of those it visited. -/
  viewList_self : ∀ q, q ∈ (room'.player p).viewList ↔ q ∈ room.visited p
  /-- The other view lists stay as they are. -/
  viewList_other : ∀ q, q ≠ p → (room'.player q).viewList = (room.player q).viewList
  /-- What the targets are told. -/
  target : ∀ c, c ≠ p → marks c p out = targetMarks room p c
  /-- What the player is told. -/
  mover : ∀ c, c ≠ p → marks p c out = moverMarks room p c
  /-- Nobody else is told anything. -/
  other : ∀ a b, a ≠ p → b ≠ p → marks a b out = []

/-- The effect of `Zone::MovePlayer` for a connected player. -/
theorem movePlayer_effect (inv : SectorSearch.Inv room)
    (hvalid : (room.player p).isValidPlayer = true)
    (h : room.movePlayer p = some (room', out)) : MoveEffect room p room' out := by
  have hp := inv.connected p hvalid
  obtain ⟨moved, hmoved, rfl, rfl⟩ := movePlayer_eq_some hvalid h
  obtain ⟨hplayers, hothers, -, hview⟩ := updateSector_frame (inv.inGrid p hp) hmoved
  have hvisited : ∀ q, q ∈ moved.visited p ↔ q ∈ room.visited p :=
    fun q => mem_visited_moved inv hp hmoved
  have hnodup : (moved.visited p).Nodup :=
    (nodup_nearby (inv_updateSector inv hp hmoved) GridWindow.nodup_window).filter _
  have hgone : ((room.player p).viewList.elems.filter fun target =>
      target ∉ UnorderedSet.empty.insertAll (moved.visited p)).Nodup :=
    (room.player p).viewList.nodup.filter _
  have hmem : ∀ c, c ∈ (room.player p).viewList.elems.filter (fun target =>
      target ∉ UnorderedSet.empty.insertAll (moved.visited p)) ↔
        c ∈ (room.player p).viewList ∧ c ∉ room.visited p := by
    intro c
    rw [List.mem_filter, decide_eq_true_eq, UnorderedSet.mem_insertAll, hvisited]
    exact and_congr Iff.rfl (not_congr (or_iff_right UnorderedSet.not_mem_empty))
  have hresult : ∀ a b, marks a b [(p, Message.moveResult)] = [] := fun _ _ => rfl
  constructor
  · exact hplayers
  · intro q
    rw [setPlayer_self, UnorderedSet.mem_insertAll, hvisited]
    exact or_iff_right UnorderedSet.not_mem_empty
  · intro q hq
    rw [setPlayer_of_ne _ hq, hothers q hq]
  · intro c hc
    rw [marks_append, marks_append, hresult, List.append_nil,
      marks_flatMap c hnodup fun t ht => by rw [(marks_moveMessages hc t).1, if_neg ht],
      marks_flatMap c hgone fun t ht => by rw [(marks_leaveMessages hc t).1, if_neg (by simp [ht])],
      (marks_moveMessages hc c).1, (marks_leaveMessages hc c).1]
    simp only [hmem, hvisited, hothers c hc, hplayers, targetMarks, if_true, true_and]
    by_cases hv : c ∈ room.visited p <;> by_cases hl : c ∈ (room.player p).viewList <;> simp [hv, hl]
  · intro c hc
    rw [marks_append, marks_append, hresult, List.append_nil,
      marks_flatMap c hnodup fun t ht => by rw [(marks_moveMessages hc t).2, if_neg (by simp [ht])],
      marks_flatMap c hgone fun t ht => by rw [(marks_leaveMessages hc t).2, if_neg ht],
      (marks_moveMessages hc c).2, (marks_leaveMessages hc c).2]
    simp only [hmem, hvisited, hview, moverMarks, if_true, true_and]
    by_cases hv : c ∈ room.visited p <;> by_cases hl : c ∈ (room.player p).viewList <;> simp [hv, hl]
  · intro a b ha hb
    rw [marks_append, marks_append, hresult, List.append_nil,
      marks_flatMap p hnodup fun t _ => (marks_other ha hb t).1,
      marks_flatMap p hgone fun t _ => (marks_other ha hb t).2, (marks_other ha hb p).1,
      (marks_other ha hb p).2]
    simp

/-- What one operation does to the view lists and to what clients were told. -/
inductive Effect (s s' : State P) : Op P → Prop
  | quiet (op : Op P)
      (hview : ∀ q, (s'.room.player q).viewList = (s.room.player q).viewList)
      (hmarks : ∀ a b, marks a b s'.sent = marks a b s.sent)
      (hentered : ∀ q, s.entered q = true → s'.entered q = true)
      (hpresent : ∀ q, Present s' q → Present s q) (hok : Strangers s op) : Effect s s' op
  | moved (p : P) (out : List (P × Message P))
      (hvalid : (s.room.player p).isValidPlayer = true) (hsent : s'.sent = s.sent ++ out)
      (hentered : s'.entered = s.entered) (effect : MoveEffect s.room p s'.room out) :
      Effect s s' (.movePlayer p)

/-- The effect of an operation. -/
theorem step_effect (inv : Inv s) {op : Op P} (once : LoginOnce s op) (h : step s op = some s') :
    Effect s s' op := by
  obtain ⟨⟨room', out⟩, hperform, rfl⟩ := Option.map_eq_some_iff.mp h
  cases op with
  | login p =>
    cases (login_eq s.room p).symm.trans hperform
    have hold : s.entered p = false := once
    refine .quiet _ (fun q => ?_) (fun a b => marks_append _ _ |>.trans (List.append_nil _))
      (fun q hq => ?_) (fun q hq => ?_) trivial
    · by_cases hqp : q = p
      · rw [hqp, setPlayer_self]
      · rw [setPlayer_of_ne _ hqp]
    · show Function.update s.entered p true q = true
      by_cases hqp : q = p
      · rw [hqp, Function.update_self]
      · rw [Function.update_of_ne hqp, hq]
    · intro hentered
      have hqp : q ≠ p := by
        rintro rfl
        rw [hold] at hentered
        cases hentered
      have hkept : Function.update s.entered p true q = true := by
        rw [Function.update_of_ne hqp]
        exact hentered
      exact (UnorderedSet.mem_insert.mp (hq hkept)).resolve_left hqp
  | updatePosition p pos timeStamp =>
    cases hperform
    refine .quiet _ (fun q => ?_) (fun a b => marks_append _ _ |>.trans (List.append_nil _))
      (fun _ hq => hq) (fun _ hq => hq) trivial
    by_cases hqp : q = p
    · show ((s.room.updatePosition p pos timeStamp).player q).viewList = _
      rw [hqp, Room.updatePosition, setPlayer_self]
    · show ((s.room.updatePosition p pos timeStamp).player q).viewList = _
      rw [Room.updatePosition, setPlayer_of_ne _ hqp]
  | movePlayer p =>
    by_cases hvalid : (s.room.player p).isValidPlayer = true
    · exact .moved p out hvalid rfl rfl (movePlayer_effect inv.room hvalid hperform)
    · rw [perform, Room.movePlayer, if_neg hvalid] at hperform
      cases hperform
      exact .quiet _ (fun _ => rfl) (fun a b => marks_append _ _ |>.trans (List.append_nil _))
        (fun _ hq => hq) (fun _ hq => hq) fun hv => (hvalid hv).elim
  | chat p text =>
    cases hperform
    refine .quiet _ (fun _ => rfl) (fun a b => ?_) (fun _ hq => hq) (fun _ hq => hq) trivial
    have hchat : marks a b (s.room.chat p text) = [] := by
      rw [marks, List.filterMap_eq_nil_iff]
      intro m hm
      rw [Room.chat] at hm
      split at hm
      · obtain ⟨target, -, rfl⟩ := List.mem_map.mp hm
        rfl
      · exact (List.not_mem_nil hm).elim
    rw [marks_append, hchat, List.append_nil]
  | logout p =>
    obtain ⟨rfl, rfl⟩ := logout_eq_some hperform
    refine .quiet _ (fun q => ?_) (fun a b => marks_append _ _ |>.trans (List.append_nil _))
      (fun _ hq => hq) (fun q hq hentered => ?_) trivial
    · by_cases hqp : q = p
      · rw [hqp, setPlayer_self]
      · rw [setPlayer_of_ne _ hqp]
    · exact (UnorderedSet.mem_erase.mp (hq hentered)).2

/-- Every operation keeps the invariant of the room and the logins. -/
theorem inv_step (inv : Inv s) {op : Op P} (once : LoginOnce s op) (h : step s op = some s') :
    Inv s' := by
  have heffect := step_effect inv once h
  obtain ⟨⟨room', out⟩, hperform, rfl⟩ := Option.map_eq_some_iff.mp h
  have hnew : LoginNew s.room op := by
    cases op with
    | login p =>
      intro hp
      have hold : s.entered p = false := once
      rw [inv.entered p hp] at hold
      cases hold
    | _ => trivial
  have hstep : SectorSearch.step s.room op = some room' := by
    rw [SectorSearch.step, hperform]
    rfl
  constructor
  · exact SectorSearch.inv_step inv.room hnew hstep
  · intro p hp
    cases op with
    | login q =>
      cases (login_eq s.room q).symm.trans hperform
      show Function.update s.entered q true p = true
      by_cases hpq : p = q
      · rw [hpq, Function.update_self]
      · rw [Function.update_of_ne hpq]
        exact inv.entered p ((UnorderedSet.mem_insert.mp hp).resolve_left hpq)
    | logout q =>
      obtain ⟨rfl, -⟩ := logout_eq_some hperform
      exact inv.entered p (UnorderedSet.mem_erase.mp hp).2
    | movePlayer q =>
      by_cases hvalid : (s.room.player q).isValidPlayer = true
      · exact inv.entered p ((movePlayer_effect inv.room hvalid hperform).players_eq ▸ hp)
      · rw [perform, Room.movePlayer, if_neg hvalid] at hperform
        cases hperform
        exact inv.entered p hp
    | updatePosition q pos timeStamp =>
      cases hperform
      exact inv.entered p hp
    | chat q text =>
      cases hperform
      exact inv.entered p hp
  · intro p q hq
    cases heffect with
    | quiet _ hview _ hentered _ _ =>
      rw [hview] at hq
      exact hentered p (inv.unseen p q hq)
    | moved r _ hvalid _ hentered effect =>
      rw [hentered]
      by_cases hp : p = r
      · exact inv.entered p (hp ▸ inv.room.connected r hvalid)
      · rw [effect.viewList_other p hp] at hq
        exact inv.unseen p q hq

end Moves

section Protocol

variable {s s' : State P} {op : Op P} {a b c p : P} {out : List (P × Message P)}

/-- What is told next is read from where the last message left the client. -/
theorem Told.append {told next : Bool} {more : List Mark} (h : Told s a b told)
    (hmore : marks a b s'.sent = marks a b s.sent ++ more)
    (hread : run accept told more = some next) : Told s' a b next := by
  rw [Told, hmore]
  exact run_append_eq_some.mpr ⟨told, h, hread⟩

/-- A client told nothing new is where it was. -/
theorem Told.congr {told : Bool} (h : Told s a b told)
    (hsame : marks a b s'.sent = marks a b s.sent) : Told s' a b told := by
  rw [Told, hsame]
  exact h

/-- Every client can be told what comes next. -/
theorem wellBracketed_iff : WellBracketed s ↔ ∀ c p, c ≠ p → ∃ told, Told s c p told :=
  forall_congr' fun _ => forall_congr' fun _ => imp_congr_right fun _ => bracketed_iff

/-- A player that is visited is another player that is logged in. -/
theorem visited_other (inv : Inv s) (hc : c ∈ s.room.visited p) :
    c ≠ p ∧ c ∈ s.room.players := by
  obtain ⟨hnear, hne⟩ := List.mem_filter.mp hc
  exact ⟨of_decide_eq_true hne, ((mem_nearby inv.room).mp hnear).1.1⟩

/-- The messages of a move as seen by the target and by the player that moves. -/
theorem marks_moved (hsent : s'.sent = s.sent ++ out) (effect : MoveEffect s.room p s'.room out)
    (hc : c ≠ p) :
    marks c p s'.sent = marks c p s.sent ++ targetMarks s.room p c ∧
      marks p c s'.sent = marks p c s.sent ++ moverMarks s.room p c := by
  rw [hsent, marks_append, marks_append, effect.target c hc, effect.mover c hc]
  exact ⟨rfl, rfl⟩

/-- A stranger that comes into sight is told of the player, and the player of it. -/
theorem told_visited (inv : Inv s) (pairs : Pairs s)
    (hvalid : (s.room.player p).isValidPlayer = true) (hsent : s'.sent = s.sent ++ out)
    (effect : MoveEffect s.room p s'.room out) (hc : c ∈ s.room.visited p)
    (hto : c ∉ (s.room.player p).viewList) (hback : p ∉ (s.room.player c).viewList) :
    Told s' c p true ∧ Told s' p c true := by
  obtain ⟨hne, hin⟩ := visited_other inv hc
  obtain ⟨htarget, hmover⟩ := marks_moved hsent effect hne
  have hp : Present s p := fun _ => inv.room.connected p hvalid
  have hcin : Present s c := fun _ => hin
  constructor
  · refine (pairs.unlisted c p hne hback hto hcin hp).append htarget ?_
    rw [targetMarks, if_pos hc, if_neg hback]
    rfl
  · refine (pairs.unlisted p c hne.symm hto hback hp hcin).append hmover ?_
    rw [moverMarks, if_pos hc, if_neg hto]
    rfl

/-- A player that goes out of sight is told so, and so is the player it saw
unless that has logged out. -/
theorem told_gone (pairs : Pairs s) (hsent : s'.sent = s.sent ++ out)
    (effect : MoveEffect s.room p s'.room out) (hne : c ≠ p) (hc : c ∉ s.room.visited p)
    (hto : c ∈ (s.room.player p).viewList) :
    Told s' p c false ∧ (∃ told, Told s' c p told) ∧
      (c ∈ s.room.players → Told s' c p false) := by
  obtain ⟨htarget, hmover⟩ := marks_moved hsent effect hne
  obtain ⟨hlisted, hlisted'⟩ := pairs.listed p c hto
  have hin : c ∈ s.room.players → Told s' c p false := by
    intro hin
    refine hlisted'.append htarget ?_
    rw [targetMarks, if_neg hc, if_pos ⟨hto, hin⟩]
    rfl
  refine ⟨hlisted.append hmover ?_, ?_, hin⟩
  · rw [moverMarks, if_neg hc, if_pos hto]
    rfl
  · by_cases hplayers : c ∈ s.room.players
    · exact ⟨false, hin hplayers⟩
    · refine ⟨true, hlisted'.append htarget ?_⟩
      rw [targetMarks, if_neg hc, if_neg fun h => hplayers h.2]
      rfl

/-- A player out of sight that was not listed is told nothing, nor is the player. -/
theorem marks_apart (hsent : s'.sent = s.sent ++ out)
    (effect : MoveEffect s.room p s'.room out) (hne : c ≠ p) (hc : c ∉ s.room.visited p)
    (hto : c ∉ (s.room.player p).viewList) :
    marks c p s'.sent = marks c p s.sent ∧ marks p c s'.sent = marks p c s.sent := by
  obtain ⟨htarget, hmover⟩ := marks_moved hsent effect hne
  rw [htarget, hmover, targetMarks, moverMarks, if_neg hc, if_neg hc, if_neg fun h => hto h.1,
    if_neg hto, List.append_nil, List.append_nil]
  exact ⟨rfl, rfl⟩

/-- Two other players are told nothing of each other. -/
theorem marks_others (hsent : s'.sent = s.sent ++ out)
    (effect : MoveEffect s.room p s'.room out) (ha : a ≠ p) (hb : b ≠ p) :
    marks a b s'.sent = marks a b s.sent := by
  rw [hsent, marks_append, effect.other a b ha hb, List.append_nil]

/-- A move in sight of a player that is not a stranger opens what is open. -/
theorem strangers_of_wellBracketed (inv : Inv s) (pairs : Pairs s) (hsent : s'.sent = s.sent ++ out)
    (effect : MoveEffect s.room p s'.room out) (hwell : WellBracketed s')
    (hc : c ∈ s.room.visited p) :
    c ∉ (s.room.player p).viewList ∧ p ∉ (s.room.player c).viewList := by
  obtain ⟨hne, -⟩ := visited_other inv hc
  obtain ⟨htarget, hmover⟩ := marks_moved hsent effect hne
  constructor
  · intro hto
    have hback := pairs.oneSided p c hto
    rw [targetMarks, if_pos hc, if_neg hback] at htarget
    have hopen := hwell c p hne
    rw [htarget] at hopen
    exact not_bracketed_of_reopened (pairs.listed p c hto).2 hopen
  · intro hback
    have hto := pairs.oneSided c p hback
    rw [moverMarks, if_pos hc, if_neg hto] at hmover
    have hopen := hwell p c hne.symm
    rw [hmover] at hopen
    exact not_bracketed_of_reopened (pairs.listed c p hback).2 hopen

/-- The messages stay well bracketed in a step exactly if a player that moves
comes into sight of strangers only. -/
theorem wellBracketed_step_iff (inv : Inv s) (pairs : Pairs s) (hwell : WellBracketed s)
    (once : LoginOnce s op) (h : step s op = some s') : WellBracketed s' ↔ Strangers s op := by
  cases step_effect inv once h with
  | quiet _ _ hmarks _ _ hok =>
    refine iff_of_true (fun c p hne => ?_) hok
    rw [hmarks]
    exact hwell c p hne
  | moved p out hvalid hsent _ effect =>
    constructor
    · intro hwell' _ c hc
      exact strangers_of_wellBracketed inv pairs hsent effect hwell' hc
    · intro hstrangers
      have hpair : ∀ c, c ≠ p → (∃ told, Told s' c p told) ∧ ∃ told, Told s' p c told := by
        intro c hne
        by_cases hc : c ∈ s.room.visited p
        · obtain ⟨hto, hback⟩ := hstrangers hvalid c hc
          obtain ⟨h1, h2⟩ := told_visited inv pairs hvalid hsent effect hc hto hback
          exact ⟨⟨_, h1⟩, _, h2⟩
        · by_cases hto : c ∈ (s.room.player p).viewList
          · obtain ⟨h1, h2, -⟩ := told_gone pairs hsent effect hne hc hto
            exact ⟨h2, _, h1⟩
          · obtain ⟨h1, h2⟩ := marks_apart hsent effect hne hc hto
            obtain ⟨told, htold⟩ := wellBracketed_iff.mp hwell c p hne
            obtain ⟨told', htold'⟩ := wellBracketed_iff.mp hwell p c hne.symm
            exact ⟨⟨told, htold.congr h1⟩, told', htold'.congr h2⟩
      refine wellBracketed_iff.mpr fun a b hne => ?_
      by_cases hb : b = p
      · subst hb
        exact (hpair a hne).1
      · by_cases ha : a = p
        · subst ha
          exact (hpair b hb).2
        · obtain ⟨told, htold⟩ := wellBracketed_iff.mp hwell a b hne
          exact ⟨told, htold.congr (marks_others hsent effect ha hb)⟩

/-- A move in sight of strangers only keeps the view lists one-sided and in
agreement with what the clients were told. -/
theorem pairs_moved (inv : Inv s) (pairs : Pairs s)
    (hvalid : (s.room.player p).isValidPlayer = true) (hsent : s'.sent = s.sent ++ out)
    (hentered : s'.entered = s.entered) (effect : MoveEffect s.room p s'.room out)
    (hstrangers : Strangers s (.movePlayer p)) : Pairs s' := by
  have hpresent : ∀ q, Present s' q → Present s q := by
    intro q hq
    rw [Present, hentered, effect.players_eq] at hq
    exact hq
  constructor
  · intro a b hab hba
    by_cases ha : a = p
    · subst ha
      have hvisited := (effect.viewList_self b).mp hab
      rw [effect.viewList_other b (visited_other inv hvisited).1] at hba
      exact (hstrangers hvalid b hvisited).2 hba
    · rw [effect.viewList_other a ha] at hab
      by_cases hb : b = p
      · subst hb
        exact (hstrangers hvalid a ((effect.viewList_self a).mp hba)).2 hab
      · rw [effect.viewList_other b hb] at hba
        exact pairs.oneSided a b hab hba
  · intro a b hab
    by_cases ha : a = p
    · subst ha
      have hvisited := (effect.viewList_self b).mp hab
      obtain ⟨hto, hback⟩ := hstrangers hvalid b hvisited
      exact (told_visited inv pairs hvalid hsent effect hvisited hto hback).symm
    · rw [effect.viewList_other a ha] at hab
      obtain ⟨htold, htold'⟩ := pairs.listed a b hab
      by_cases hb : b = p
      · subst hb
        have hvisited : a ∉ s.room.visited b := fun hv => (hstrangers hvalid a hv).2 hab
        obtain ⟨h1, h2⟩ := marks_apart hsent effect ha hvisited (pairs.oneSided a b hab)
        exact ⟨htold.congr h1, htold'.congr h2⟩
      · exact ⟨htold.congr (marks_others hsent effect ha hb),
          htold'.congr (marks_others hsent effect hb ha)⟩
  · intro a b hab
    rw [hentered]
    by_cases ha : a = p
    · subst ha
      exact inv.entered b (visited_other inv ((effect.viewList_self b).mp hab)).2
    · rw [effect.viewList_other a ha] at hab
      exact pairs.listed_entered a b hab
  · intro a b hne hab hba hpa hpb
    have hpa := hpresent a hpa
    have hpb := hpresent b hpb
    by_cases ha : a = p
    · subst ha
      rw [effect.viewList_self] at hab
      rw [effect.viewList_other b hne.symm] at hba
      by_cases hto : b ∈ (s.room.player a).viewList
      · exact (told_gone pairs hsent effect hne.symm hab hto).1
      · exact (pairs.unlisted a b hne hto hba hpa hpb).congr
          (marks_apart hsent effect hne.symm hab hto).2
    · rw [effect.viewList_other a ha] at hab
      by_cases hb : b = p
      · subst hb
        rw [effect.viewList_self] at hba
        by_cases hto : a ∈ (s.room.player b).viewList
        · exact (told_gone pairs hsent effect hne hba hto).2.2 (hpa (pairs.listed_entered b a hto))
        · exact (pairs.unlisted a b hne hab hto hpa hpb).congr
            (marks_apart hsent effect hne hba hto).1
      · rw [effect.viewList_other b hb] at hba
        exact (pairs.unlisted a b hne hab hba hpa hpb).congr (marks_others hsent effect ha hb)

/-- Every operation whose moves are those of strangers keeps the view lists so. -/
theorem pairs_step (inv : Inv s) (pairs : Pairs s) (once : LoginOnce s op)
    (hstrangers : Strangers s op) (h : step s op = some s') : Pairs s' := by
  cases step_effect inv once h with
  | quiet _ hview hmarks hentered hpresent _ =>
    constructor
    · intro a b hab
      rw [hview] at hab ⊢
      exact pairs.oneSided a b hab
    · intro a b hab
      rw [hview] at hab
      obtain ⟨htold, htold'⟩ := pairs.listed a b hab
      exact ⟨htold.congr (hmarks a b), htold'.congr (hmarks b a)⟩
    · intro a b hab
      rw [hview] at hab
      exact hentered b (pairs.listed_entered a b hab)
    · intro a b hne hab hba hpa hpb
      rw [hview] at hab hba
      exact (pairs.unlisted a b hne hab hba (hpresent a hpa) (hpresent b hpb)).congr (hmarks a b)
  | moved p out hvalid hsent hentered effect =>
    exact pairs_moved inv pairs hvalid hsent hentered effect hstrangers

end Protocol

section Runs

variable {player : P → Player P}

omit [DecidableEq P] in
/-- Nobody was logged in to a new room. -/
theorem inv_init (hfresh : ∀ p, (player p).Fresh) : Inv (init player) where
  room := inv_new hfresh
  entered p hp := (UnorderedSet.not_mem_empty hp).elim
  unseen p q hq := by
    change q ∈ (player p).viewList at hq
    rw [(hfresh p).viewList_eq] at hq
    exact (UnorderedSet.not_mem_empty hq).elim

/-- Nobody has seen anybody. -/
theorem pairs_init (hfresh : ∀ p, (player p).Fresh) : Pairs (init player) := by
  have hempty : ∀ p q, q ∉ ((init player).room.player p).viewList := by
    intro p q
    show q ∉ (player p).viewList
    rw [(hfresh p).viewList_eq]
    exact UnorderedSet.not_mem_empty
  exact ⟨fun p q hq => (hempty p q hq).elim, fun p q hq => (hempty p q hq).elim,
    fun p q hq => (hempty p q hq).elim, fun _ _ _ _ _ _ _ => rfl⟩

end Runs

end System

/-- In every run in which a player is logged in once, what every client is told of
every other player is well bracketed throughout exactly if no connected player
ever moves in sight of a player that is in its view list or has it in its own. -/
theorem wellBracketed_iff_strangers {P : Type*} [DecidableEq P] {player : P → Player P}
    (hfresh : ∀ p, (player p).Fresh) {ops : List (Op P)} {s : State P}
    (hr : run step (init player) ops = some s)
    (once : StepsMeet step LoginOnce (init player) ops) :
    Always step WellBracketed (init player) ops ↔ StepsMeet step Strangers (init player) ops := by
  have hkept : ∀ (s : State P) (op : Op P) (s' : State P), Inv s ∧ Pairs s → WellBracketed s →
      LoginOnce s op → Strangers s op → step s op = some s' → Inv s' ∧ Pairs s' := by
    rintro s op s' ⟨inv, pairs⟩ - once hok h
    exact ⟨inv_step inv once h, pairs_step inv pairs once hok h⟩
  have hexact : ∀ (s : State P) (op : Op P) (s' : State P), Inv s ∧ Pairs s →
      WellBracketed s → LoginOnce s op → step s op = some s' →
      (WellBracketed s' ↔ Strangers s op) := by
    rintro s op s' ⟨inv, pairs⟩ hwell once h
    exact wellBracketed_step_iff inv pairs hwell once h
  exact always_iff_stepsMeet_of_kept hkept hexact ⟨inv_init hfresh, pairs_init hfresh⟩
    (fun _ _ _ => ⟨[], List.nil_prefix⟩) once hr

/-- Two players log in, and one of them shows itself, goes away and comes back. -/
def visit : List (Op Bool) :=
  [.login true, .login false, .movePlayer true, .updatePosition true SectorJobs.farPos 1,
    .movePlayer true, .updatePosition true SectorJobs.cornerPos 2, .movePlayer true]

/-- The other one is shown it, loses it and is shown it again. -/
theorem wellBracketed_visit : ∃ s, run step (init twoPlayers) visit = some s ∧
    marks false true s.sent = [.opening, .closing, .opening] ∧
    (Always step WellBracketed (init twoPlayers) visit ↔
      StepsMeet step Strangers (init twoPlayers) visit) := by
  have h : ((run step (init twoPlayers) visit).any fun s =>
      marks false true s.sent = [.opening, .closing, .opening]) = true := by
    decide +kernel
  obtain ⟨s, hr, hmarks⟩ := (Option.any_eq_true _ _).mp h
  exact ⟨s, hr, of_decide_eq_true hmarks,
    wellBracketed_iff_strangers (fun p => ⟨rfl, rfl⟩) hr (by decide +kernel)⟩

/-- It moves twice in sight of the other one, whose view list is still empty at the
second move: `ENTER` is sent twice. -/
theorem enter_twice : ∃ s, run step (init twoPlayers)
      [.login true, .login false, .movePlayer true, .movePlayer true] = some s ∧
    marks false true s.sent = [.opening, .opening] ∧ ¬ WellBracketed s := by
  have h : ((run step (init twoPlayers)
      [.login true, .login false, .movePlayer true, .movePlayer true]).any fun s =>
      marks false true s.sent = [.opening, .opening]) = true := by
    decide +kernel
  obtain ⟨s, hr, hmarks⟩ := (Option.any_eq_true _ _).mp h
  have heq : marks false true s.sent = [.opening, .opening] := of_decide_eq_true hmarks
  refine ⟨s, hr, heq, fun hwell => ?_⟩
  have htwice := hwell false true (by decide)
  rw [heq] at htwice
  exact absurd htwice (by decide)

end RioIocpServer.Visibility
