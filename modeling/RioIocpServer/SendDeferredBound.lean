import RioIocpServer.RioSendProgress

/-!
# Bounds on a call of `SendDeferred`

Other threads may keep queueing packets while the core thread is in its call, so the
queue bounds nothing. No send completes during the call, though: every packet moved to
the send buffer takes at least four bytes of its free room, which ends the outer loop,
and every post empties the buffer of at least `SEND_LIMIT` bytes or reaches its end,
which keeps the posts below `MAX_POST_CNT`. Outside the call nothing is posted and not
committed.
-/

namespace RioIocpServer.RioSend

open TransitionSystem RioBuffer

variable {T : Type*} [DecidableEq T]

/-- The packets sent hold at least a header. -/
def HoldsHeader (_ : Session T) : Action T → Prop
  | .sendCheck _ packet => PacketHeader.sizeOf ≤ packet.length
  | _ => True

namespace Action

/-- A call of `SendDeferred`. -/
def isCall : Action T → Bool
  | .sendDeferred _ => true
  | _ => false

/-- A pass of the outer loop of `SendDeferred`. -/
def isDequeue : Action T → Bool
  | .dequeue => true
  | _ => false

/-- A step of the core thread inside `SendDeferred`. -/
def isOfCall : Action T → Bool
  | .dequeue => true
  | .testLimit => true
  | .post _ => true
  | .testMax => true
  | .stamp _ => true
  | .commit _ => true
  | _ => false

end Action

namespace Pc

/-- The step of the core thread at a position inside `SendDeferred`, for any answers. -/
def action (outcome : Outcome) (now : ℤ) (accepted : Bool) : Pc → Action T
  | .idle => .complete
  | .dequeue _ => .dequeue
  | .testLimit _ => .testLimit
  | .inner _ => .post outcome
  | .testMax _ => .testMax
  | .flush _ => .post outcome
  | .stamp _ => .stamp now
  | .commit _ => .commit accepted

/-- `sendCount`, and 0 outside `SendDeferred`. -/
def sendCount : Pc → ℤ
  | .idle => 0
  | .dequeue n => n
  | .testLimit n => n
  | .inner n => n
  | .testMax n => n
  | .flush n => n
  | .stamp n => n
  | .commit n => n

/-- The positions of the outer loop. -/
def inLoop : Pc → Bool
  | .dequeue _ => true
  | .testLimit _ => true
  | .inner _ => true
  | .testMax _ => true
  | _ => false

/-- The position behind a pass that posts, or does not. -/
def afterPass (posted : Bool) : Pc → Pc
  | .inner n => if posted = true then .inner (n + 1) else .testMax n
  | .flush n =>
    if posted = true then
      if n + 1 ≥ maxPostCnt then .stamp (n + 1) else .flush (n + 1)
    else .stamp n
  | pc => pc

/-- Behind the outer loop `sendCount` is what it was. -/
@[simp] theorem sendCount_afterLoop (n : ℤ) : (Session.afterLoop n).sendCount = n := by
  unfold Session.afterLoop
  split <;> rfl

/-- Behind the outer loop it is not entered again. -/
@[simp] theorem inLoop_afterLoop (n : ℤ) : (Session.afterLoop n).inLoop = false := by
  unfold Session.afterLoop
  split <;> rfl

/-- A pass that posts is counted. -/
theorem sendCount_afterPass {pc : Pc} (h : pc.Posts) (posted : Bool) :
    (pc.afterPass posted).sendCount = pc.sendCount + if posted = true then 1 else 0 := by
  cases pc with
  | inner n => cases posted <;> simp [afterPass, sendCount]
  | flush n =>
    cases posted
    · simp [afterPass, sendCount]
    · simp only [afterPass, if_true]
      split <;> rfl
  | _ => exact h.elim

/-- The call goes on behind the outer loop. -/
theorem afterLoop_ne_idle (n : ℤ) : Session.afterLoop n ≠ .idle := by
  unfold Session.afterLoop
  split <;> simp

/-- It goes on behind a pass that posts. -/
theorem afterPass_ne_idle {pc : Pc} (h : pc.Posts) (posted : Bool) :
    pc.afterPass posted ≠ .idle := by
  cases pc with
  | inner n => cases posted <;> simp [afterPass]
  | flush n =>
    cases posted
    · simp [afterPass]
    · simp only [afterPass, if_true]
      split <;> simp
  | _ => exact h.elim

end Pc

/-- What a pass of a loop that posts does besides moving the position. -/
structure Passed (s m : Session T) (posted : Bool) : Prop where
  /-- The invariant is kept. -/
  inv : Inv m
  /-- A pass that posts found data to send. -/
  size_pos : posted = true → 0 < s.sendBuffer.getSendDataSize
  /-- Nothing is written. -/
  written_eq : m.written = s.written
  /-- Nothing is completed. -/
  completed_eq : m.completed = s.completed
  /-- At most the next chunk is posted. -/
  posted_eq : m.posted = s.posted ++ if posted = true then [nextChunk s] else []
  /-- A post is counted. -/
  sendCnt_eq : m.sendCnt = s.sendCnt + if posted = true then 1 else 0

section Passes

variable {s s' : Session T}

omit [DecidableEq T] in
/-- `RegisterSend` posts and counts the next chunk or does neither. -/
theorem registerSend_passed (inv : Inv s) (hsize : 0 < s.sendBuffer.getSendDataSize)
    {outcome : Outcome} {posted : Bool} {m : Session T} (hr : s.registerSend
      s.sendBuffer.getChunkSendSize s.sendBuffer.getSendOffset outcome = (posted, m)) :
    Passed s m posted := by
  have inv' := inv_registerSend inv hsize hr
  have hreg := registerSend_registers inv hsize outcome
  rw [hr] at hreg
  cases hreg with
  | posted sendBuffer hc _ =>
    exact ⟨inv', fun _ => hsize, rfl, rfl, by simp [Session.posted], by simp⟩
  | refused outcome h => exact ⟨inv', fun _ => hsize, rfl, rfl, by simp, by simp⟩
  | failed =>
    exact ⟨inv', fun _ => hsize, rfl, rfl,
      by simp [Session.posted, Session.handleError, Session.disconnect],
      by simp [Session.handleError, Session.disconnect]⟩

/-- Every pass of a loop that posts. -/
theorem post_passed (inv : Inv s) {outcome : Outcome} (h : step s (.post outcome) = some s') :
    s.pc.Posts ∧ ∃ posted m, s' = { m with pc := s.pc.afterPass posted } ∧ Passed s m posted := by
  have hnone : Passed s s false :=
    ⟨inv, fun h => (Bool.false_ne_true h).elim, rfl, rfl, by simp, by simp⟩
  simp only [step] at h
  split at h
  · rw [‹s.pc = _›]
    refine ⟨trivial, ?_⟩
    split at h
    · split at h <;> cases h
      · exact ⟨true, _, rfl, registerSend_passed inv ‹_› ‹_›⟩
      · exact ⟨false, _, rfl, registerSend_passed inv ‹_› ‹_›⟩
    · cases h
      exact ⟨false, s, rfl, hnone⟩
  · rw [‹s.pc = _›]
    refine ⟨trivial, ?_⟩
    split at h
    · split at h <;> cases h
      · exact ⟨true, _, rfl, registerSend_passed inv ‹_› ‹_›⟩
      · exact ⟨false, _, rfl, registerSend_passed inv ‹_› ‹_›⟩
    · cases h
      exact ⟨false, s, rfl, hnone⟩
  · cases h

omit [DecidableEq T] in
/-- The free room is what is not written or already completed. -/
theorem getFreeSize_eq (inv : Inv s) : s.sendBuffer.getFreeSize =
    bufferSize - (s.written.length - (chunkBytes s.completed).length) := by
  rw [RingBuffer.getFreeSize, inv.capacity_eq, inv.cursors.size_eq]

omit [DecidableEq T] in
/-- The number of bytes posted. -/
theorem posted_add_unsent (s : Session T) :
    ((chunkBytes s.posted).length : ℤ) + unsent s = s.written.length := by
  rw [unsent]
  omega

omit [DecidableEq T] in
/-- A post leaves the bytes behind the chunk. -/
theorem Passed.unsent_eq {m : Session T} (passed : Passed s m true) :
    unsent m = unsent s - (nextChunk s).bytes.length := by
  rw [unsent, unsent, passed.posted_eq, passed.written_eq, if_pos rfl, chunkBytes_append,
    List.length_append, chunkBytes_cons, chunkBytes_nil, List.append_nil]
  omega

omit [DecidableEq T] in
/-- The chunk posted next is all that is not posted, or ends at the end of the buffer. -/
theorem nextChunk_cases (inv : Inv s) (hsize : 0 < s.sendBuffer.getSendDataSize) :
    0 < (nextChunk s).bytes.length ∧ ((nextChunk s).bytes.length : ℤ) ≤ unsent s ∧
      (((nextChunk s).bytes.length : ℤ) = unsent s ∨
        ((chunkBytes s.posted).length + (nextChunk s).bytes.length : ℤ) % bufferSize = 0) := by
  have hat := chunkAt_next inv hsize
  have hpos : 0 < s.sendBuffer.getChunkSendSize := hat.length_pos
  have hlen : s.sendBuffer.getChunkSendSize = (nextChunk s).bytes.length := hat.length_eq
  have hbounds := unsent_bounds inv
  have hle := hat.end_le_length
  have hcases := inv.cursors.head_cases
  have hsend := inv.cursors.send_eq
  have hcap := inv.capacity_eq
  have hb := inv.cursors.send_bounds
  have hfull := getSendDataSize_eq inv
  have hunsent := posted_add_unsent s
  rw [unsent] at hfull hunsent hbounds ⊢
  refine ⟨by omega, by omega, ?_⟩
  rw [RioBuffer.getChunkSendSize] at hlen
  split at hlen
  · left
    split at hfull <;> omega
  · right
    rw [← hlen, hsend, hcap, ← Int.emod_add_emod, add_sub_cancel, Int.emod_self]

end Passes

/-- What holds of a session all of whose packets hold a header. -/
structure Loaded (s : Session T) : Prop where
  /-- The invariant of the send path. -/
  inv : Inv s
  /-- The packets queued hold a header. -/
  queued : ∀ packet ∈ s.sendBufQueue, PacketHeader.sizeOf ≤ packet.length
  /-- So do those about to be queued. -/
  held : ∀ t packet, s.senders t = some packet → PacketHeader.sizeOf ≤ packet.length
  /-- The posts not committed are those of the call the core thread is in. -/
  sendCnt_eq : s.sendCnt = s.pc.sendCount
  /-- There are not fewer than none. -/
  sendCount_nonneg : 0 ≤ s.pc.sendCount

section Loaded

variable {s s' : Session T}

omit [DecidableEq T] in
/-- The initial session is loaded. -/
theorem loaded_init (memory : ℤ → UInt8) : Loaded (init memory : Session T) :=
  ⟨inv_init memory, fun _ h => (List.not_mem_nil h).elim, fun _ _ h => (nomatch h), rfl, le_rfl⟩

omit [DecidableEq T] in
/-- A completion touches neither the counts nor the position. -/
theorem processSend_counts (s : Session T) (n : ℤ) :
    (s.processSend n).sendCnt = s.sendCnt ∧ (s.processSend n).pc = s.pc := by
  unfold Session.processSend
  split
  · exact ⟨rfl, rfl⟩
  · split <;> exact ⟨rfl, rfl⟩

omit [DecidableEq T] in
/-- Whatever was posted and counted is committed. -/
theorem commitPosted_sendCnt {n : ℤ} (hn : 0 ≤ n) (hcnt : s.sendCnt = n) (accepted : Bool) :
    (s.commitPosted n accepted).sendCnt = 0 := by
  unfold Session.commitPosted Session.sendCommit
  split
  · rw [if_neg (by omega)]
  · omega

/-- Every step keeps it. -/
theorem loaded_step (loaded : Loaded s) {a : Action T} (hok : HoldsHeader s a)
    (h : step s a = some s') : Loaded s' := by
  obtain ⟨hqueued, hheld⟩ := packets_step ⟨loaded.queued, loaded.held⟩ loaded.inv
    (fun t packet ha => by subst ha; exact hok) h
  have hcnt := loaded.sendCnt_eq
  have hnonneg := loaded.sendCount_nonneg
  have hcounts : s'.sendCnt = s.sendCnt → s'.pc.sendCount = s.pc.sendCount →
      s'.sendCnt = s'.pc.sendCount ∧ 0 ≤ s'.pc.sendCount := fun hc hp => by omega
  suffices hcount : s'.sendCnt = s'.pc.sendCount ∧ 0 ≤ s'.pc.sendCount from
    ⟨inv_step loaded.inv h, hqueued, hheld, hcount.1, hcount.2⟩
  have hpost : ∀ {outcome}, step s (.post outcome) = some s' →
      s'.sendCnt = s'.pc.sendCount ∧ 0 ≤ s'.pc.sendCount := fun h => by
    obtain ⟨hpc, posted, m, rfl, passed⟩ := post_passed loaded.inv h
    have hcount := Pc.sendCount_afterPass hpc posted
    have hposted := passed.sendCnt_eq
    dsimp only
    rw [hposted, hcount]
    split <;> omega
  cases step_moves h with
  | entered currentTime hpc => exact hcounts rfl (by rw [hpc]; rfl)
  | emptied n hpc hq => exact hcounts rfl (by rw [hpc]; exact Pc.sendCount_afterLoop n)
  | full n packet rest ring hpc hq hw =>
    exact hcounts rfl (by rw [hpc]; exact Pc.sendCount_afterLoop n)
  | wrote n packet rest ring hpc hq hw => exact hcounts rfl (by rw [hpc]; rfl)
  | limit n hpc =>
    refine hcounts rfl ?_
    rw [hpc]
    dsimp only
    split <;> rfl
  | posted outcome s₁ pc hpc hsize hr => exact hpost h
  | notPosted outcome s₁ pc hpc hsize hr => exact hpost h
  | nothing outcome pc hpc hsize => exact hpost h
  | max n hpc =>
    refine hcounts rfl ?_
    rw [hpc]
    dsimp only
    split
    · exact Pc.sendCount_afterLoop n
    · rfl
  | stamped n now hpc => exact hcounts rfl (by rw [hpc]; rfl)
  | committed n accepted hpc =>
    rw [hpc] at hcnt hnonneg
    exact ⟨commitPosted_sendCnt hnonneg hcnt accepted, le_rfl⟩
  | completed chunk rest hpc hout =>
    obtain ⟨hc, hp⟩ := processSend_counts ({ s with
      outstanding := rest
      completed := s.completed ++ [chunk] } : Session T) chunk.length
    exact hcounts hc (by rw [hp])
  | _ => exact hcounts rfl rfl

end Loaded

/-- Bound on the passes of the outer loop left in a call: each but the last takes the
room of a header. -/
def passesLeft (s : Session T) : ℕ :=
  if s.pc.inLoop = true then (s.sendBuffer.getFreeSize / PacketHeader.sizeOf).toNat + 1 else 0

/-- Bound on the steps left in a call: bytes to post or to write, and the position for
the packets there is room for. -/
def stepsLeft (s : Session T) : ℕ :=
  if s.pc = .idle then 0
  else (unsent s + s.sendBuffer.getFreeSize).toNat +
    rank (s.sendBuffer.getFreeSize / PacketHeader.sizeOf).toNat s.pc

/-- Both bounds as one step changes them. -/
structure UsesUp (s : Session T) (a : Action T) (s' : Session T) : Prop where
  /-- A pass of the outer loop uses up one. -/
  passes : passesLeft s' + (if a.isDequeue = true then 1 else 0) ≤ passesLeft s
  /-- A step of the call uses up one. -/
  steps : stepsLeft s' + (if a.isOfCall = true then 1 else 0) ≤ stepsLeft s

section Bounds

variable {s s' : Session T}

omit [DecidableEq T] in
/-- The bounds are known from the room, the bytes not posted and the position. -/
theorem left_congr (hfree : s'.sendBuffer.getFreeSize = s.sendBuffer.getFreeSize)
    (hunsent : unsent s' = unsent s) (hpc : s'.pc = s.pc) :
    passesLeft s' = passesLeft s ∧ stepsLeft s' = stepsLeft s := by
  rw [passesLeft, passesLeft, stepsLeft, stepsLeft, hfree, hunsent, hpc]
  exact ⟨rfl, rfl⟩

omit [DecidableEq T] in
/-- A step of another thread leaves both bounds. -/
theorem usesUp_congr {a : Action T} (ha : a.isOfCall = false) (hd : a.isDequeue = false)
    (hfree : s'.sendBuffer.getFreeSize = s.sendBuffer.getFreeSize)
    (hunsent : unsent s' = unsent s) (hpc : s'.pc = s.pc) : UsesUp s a s' := by
  obtain ⟨hpasses, hsteps⟩ := left_congr hfree hunsent hpc
  exact ⟨by simp [hd, hpasses], by simp [ha, hsteps]⟩

omit [DecidableEq T] in
/-- A step of the call to a later position that writes nothing. -/
theorem usesUp_later {a : Action T} (hfree : s'.sendBuffer.getFreeSize = s.sendBuffer.getFreeSize)
    (hunsent : unsent s' ≤ unsent s) (hloop : s'.pc.inLoop = true → s.pc.inLoop = true)
    (hdequeue : a.isDequeue = true → s.pc.inLoop = true ∧ s'.pc.inLoop = false)
    (hrank : ∀ room, rank room s'.pc < rank room s.pc) : UsesUp s a s' := by
  have hidle : s.pc ≠ .idle := by
    intro h
    have hzero := hrank 0
    rw [h] at hzero
    exact absurd hzero (Nat.not_lt_zero _)
  have hlt := hrank (s.sendBuffer.getFreeSize / PacketHeader.sizeOf).toNat
  constructor
  · rw [passesLeft, passesLeft, hfree]
    by_cases hd : a.isDequeue = true
    · obtain ⟨hin, hout⟩ := hdequeue hd
      simp [hd, hin, hout]
    · rw [if_neg hd]
      by_cases hin : s'.pc.inLoop = true
      · rw [if_pos hin, if_pos (hloop hin)]
      · rw [if_neg hin]
        omega
  · rw [stepsLeft, stepsLeft, if_neg hidle, hfree]
    split <;> split <;> omega

omit [DecidableEq T] in
/-- A post that leaves fewer bytes, at a position that is not earlier. -/
theorem usesUp_posted {outcome : Outcome}
    (hfree : s'.sendBuffer.getFreeSize = s.sendBuffer.getFreeSize)
    (hbounds : 0 ≤ unsent s' + s.sendBuffer.getFreeSize) (hunsent : unsent s' < unsent s)
    (hloop : s'.pc.inLoop = true → s.pc.inLoop = true) (hidle : s.pc ≠ .idle)
    (hrank : ∀ room, rank room s'.pc ≤ rank room s.pc) : UsesUp s (.post outcome) s' := by
  have hle := hrank (s.sendBuffer.getFreeSize / PacketHeader.sizeOf).toNat
  constructor
  · have hno : (Action.post outcome : Action T).isDequeue = false := rfl
    rw [passesLeft, passesLeft, hfree, hno, if_neg Bool.false_ne_true]
    by_cases hin : s'.pc.inLoop = true
    · rw [if_pos hin, if_pos (hloop hin)]
    · rw [if_neg hin]
      omega
  · rw [stepsLeft, stepsLeft, if_neg hidle, hfree]
    split <;> split <;> omega

omit [DecidableEq T] in
/-- A packet that was written takes the room of a header at least. -/
theorem usesUp_wrote {n : ℤ} {len : ℤ} (hlen : PacketHeader.sizeOf ≤ len)
    (hle : len ≤ s.sendBuffer.getFreeSize) (hpc : s.pc = .dequeue n) (hpc' : s'.pc = .testLimit n)
    (hfree : s'.sendBuffer.getFreeSize = s.sendBuffer.getFreeSize - len)
    (hunsent : unsent s' = unsent s + len) : UsesUp s .dequeue s' := by
  have hroom : (s'.sendBuffer.getFreeSize / PacketHeader.sizeOf).toNat + 1 ≤
      (s.sendBuffer.getFreeSize / PacketHeader.sizeOf).toNat := by
    have hfour : (PacketHeader.sizeOf : ℤ) = 4 := rfl
    rw [hfour] at hlen
    rw [hfree, hfour]
    omega
  constructor
  · rw [passesLeft, passesLeft, hpc, hpc']
    simp only [Pc.inLoop, Action.isDequeue, if_true]
    omega
  · rw [stepsLeft, stepsLeft, hpc, hpc', hunsent]
    simp only [rank, Action.isOfCall, if_true, reduceCtorEq, if_false]
    omega

/-- A pass of a loop that posts. -/
theorem usesUp_post (loaded : Loaded s) {outcome : Outcome}
    (h : step s (.post outcome) = some s') : UsesUp s (.post outcome) s' := by
  obtain ⟨hpc, posted, m, rfl, passed⟩ := post_passed loaded.inv h
  have hfree : m.sendBuffer.getFreeSize = s.sendBuffer.getFreeSize := by
    rw [getFreeSize_eq passed.inv, getFreeSize_eq loaded.inv, passed.written_eq,
      passed.completed_eq]
  have hloop : (s.pc.afterPass posted).inLoop = true → s.pc.inLoop = true := by
    cases hp : s.pc <;> rw [hp] at hpc
    case inner n => exact fun _ => rfl
    case flush n =>
      cases posted
      · simp [Pc.afterPass, Pc.inLoop]
      · simp only [Pc.afterPass, if_true]
        split <;> simp [Pc.inLoop]
    all_goals exact hpc.elim
  cases posted with
  | false =>
    refine usesUp_later hfree ?_ hloop (fun hd => by simp [Action.isDequeue] at hd) ?_
    · refine (unsent_congr (s := s) ?_ passed.written_eq).le
      show m.posted = s.posted
      rw [passed.posted_eq]
      simp
    · intro room
      cases hp : s.pc <;> rw [hp] at hpc <;> first | exact hpc.elim | simp [Pc.afterPass, rank]
  | true =>
    have hsize := passed.size_pos rfl
    obtain ⟨hpos, hle, -⟩ := nextChunk_cases loaded.inv hsize
    have hm := unsent_bounds passed.inv
    have hs := loaded.inv.cursors.wellFormed.size_le
    have hunsent := passed.unsent_eq
    refine usesUp_posted hfree ?_ ?_ hloop ?_ ?_
    · show 0 ≤ unsent m + s.sendBuffer.getFreeSize
      rw [RingBuffer.getFreeSize]
      omega
    · show unsent m < unsent s
      omega
    · intro hidle
      rw [hidle] at hpc
      exact hpc
    · intro room
      cases hp : s.pc <;> rw [hp] at hpc
      case inner n => simp [Pc.afterPass, rank]
      case flush n =>
        simp only [Pc.afterPass, if_true]
        split <;> simp [rank]
      all_goals exact hpc.elim

/-- Every step of the session but the start of another call. -/
theorem usesUp_step (loaded : Loaded s) {a : Action T} (ha : a.isCall = false)
    (h : step s a = some s') : UsesUp s a s' := by
  have hnone : (a.isOfCall = false → a.isDequeue = false) := by
    cases a <;> simp [Action.isOfCall, Action.isDequeue]
  cases step_moves h with
  | allocated => exact usesUp_congr rfl rfl rfl rfl rfl
  | ignored t packet hc => exact usesUp_congr rfl rfl rfl rfl rfl
  | checked t packet hc => exact usesUp_congr rfl rfl rfl rfl rfl
  | pushed t packet ht => exact usesUp_congr rfl rfl rfl rfl rfl
  | disconnected => exact usesUp_congr rfl rfl rfl rfl rfl
  | skipped currentTime hpc hskip => cases ha
  | entered currentTime hpc => cases ha
  | emptied n hpc hq =>
    refine usesUp_later rfl le_rfl ?_ (fun _ => ⟨by rw [hpc]; rfl, Pc.inLoop_afterLoop n⟩) ?_
    · dsimp only
      rw [Pc.inLoop_afterLoop]
      exact fun hf => by cases hf
    · intro room
      have hlast := rank_afterLoop room n
      rw [hpc, rank]
      dsimp only
      omega
  | full n packet rest ring hpc hq hw =>
    refine usesUp_later rfl le_rfl ?_ (fun _ => ⟨by rw [hpc]; rfl, Pc.inLoop_afterLoop n⟩) ?_
    · dsimp only
      rw [Pc.inLoop_afterLoop]
      exact fun hf => by cases hf
    · intro room
      have hlast := rank_afterLoop room n
      rw [hpc, rank]
      dsimp only
      omega
  | wrote n packet rest ring hpc hq hw =>
    have inv' := inv_step loaded.inv h
    have hlen := loaded.queued packet (by rw [hq]; exact List.mem_cons_self)
    refine usesUp_wrote (Int.ofNat_le.mpr hlen) (le_free_of_accepted hw) hpc rfl ?_ ?_
    · rw [getFreeSize_eq inv', getFreeSize_eq loaded.inv]
      simp only [List.length_append, Nat.cast_add]
      ring
    · simp only [unsent, Session.posted, List.length_append, Nat.cast_add]
      ring
  | limit n hpc =>
    refine usesUp_later rfl le_rfl (fun _ => by rw [hpc]; rfl) (fun hd => by cases hd) ?_
    intro room
    rw [hpc]
    dsimp only
    split <;> simp [rank]
  | posted outcome s₁ pc hpc hsize hr => exact usesUp_post loaded h
  | notPosted outcome s₁ pc hpc hsize hr => exact usesUp_post loaded h
  | nothing outcome pc hpc hsize => exact usesUp_post loaded h
  | max n hpc =>
    refine usesUp_later rfl le_rfl (fun _ => by rw [hpc]; rfl) (fun hd => by cases hd) ?_
    intro room
    have hlast := rank_afterLoop room n
    have htest : rank room (.testMax n) = 5 * room + 5 := rfl
    rw [hpc]
    dsimp only
    split
    · omega
    · simp [rank]
  | stamped n now hpc =>
    refine usesUp_later rfl le_rfl (fun hin => by cases hin) (fun hd => by cases hd) ?_
    intro room
    simp [hpc, rank]
  | committed n accepted hpc =>
    exact ⟨by simp [passesLeft, Pc.inLoop, Action.isDequeue],
      by simp [stepsLeft, hpc, Action.isOfCall, rank]⟩
  | completed chunk rest hpc hout =>
    have hidle := (processSend_counts ({ s with
      outstanding := rest
      completed := s.completed ++ [chunk] } : Session T) chunk.length).2.trans hpc
    exact ⟨by simp [passesLeft, hidle, Pc.inLoop, Action.isDequeue],
      by simp [stepsLeft, hidle, Action.isOfCall]⟩

end Bounds

/-- Number of bytes posted. -/
def postedBytes (s : Session T) : ℤ := (chunkBytes s.posted).length

/-- The posts since the start of a call against the bytes posted since then: `emptied`
of them left nothing to post, each after `SEND_LIMIT` bytes at least, the others end at
the end of the buffer, up to `slack`. -/
structure Tally (start s : Session T) (emptied slack : ℤ) : Prop where
  /-- Nothing posted in the call is completed. -/
  completed_le : ((chunkBytes s.completed).length : ℤ) ≤ postedBytes start
  /-- Posted chunks stay posted. -/
  posted_le : postedBytes start ≤ postedBytes s
  /-- Every post is counted. -/
  count_eq : (s.posted.length : ℤ) = start.posted.length + s.pc.sendCount
  /-- The bytes that were posted when nothing was left. -/
  emptied_le : sendLimit * emptied ≤ postedBytes s - postedBytes start
  /-- The posts are of these kinds. -/
  count_le : s.pc.sendCount ≤
    emptied + (postedBytes s / bufferSize - postedBytes start / bufferSize) + slack

/-- What is known of the posts at the positions of a call. -/
def Phase (start s : Session T) (emptied : ℤ) : Pc → Prop
  | .idle => (s.posted.length : ℤ) ≤ start.posted.length + maxPostCnt
  | .inner _ => Tally start s emptied 0 ∧
      (unsent s = 0 ∨ sendLimit * (emptied + 1) ≤ postedBytes s - postedBytes start + unsent s)
  | .flush _ => Tally start s emptied 0 ∨ Tally start s emptied 1 ∧ unsent s = 0
  | .stamp _ => Tally start s emptied 1
  | .commit _ => Tally start s emptied 1
  | _ => Tally start s emptied 0

/-- A state of a call that started in `start`. -/
def InCall (start s : Session T) : Prop := ∃ emptied, Phase start s emptied s.pc

section Posts

variable {start s s' : Session T} {emptied slack : ℤ}

omit [DecidableEq T] in
/-- A step that posts and completes nothing keeps the tally. -/
theorem Tally.move (tally : Tally start s emptied slack) (hposted : s'.posted = s.posted)
    (hcompleted : s'.completed = s.completed) (hcount : s'.pc.sendCount = s.pc.sendCount) :
    Tally start s' emptied slack := by
  have hbytes : postedBytes s' = postedBytes s := by rw [postedBytes, postedBytes, hposted]
  constructor
  · rw [hcompleted]
    exact tally.completed_le
  · rw [hbytes]
    exact tally.posted_le
  · rw [hposted, hcount]
    exact tally.count_eq
  · rw [hbytes]
    exact tally.emptied_le
  · rw [hbytes, hcount]
    exact tally.count_le

omit [DecidableEq T] in
/-- One post more may be left over. -/
theorem Tally.loosen (tally : Tally start s emptied 0) : Tally start s emptied 1 :=
  ⟨tally.completed_le, tally.posted_le, tally.count_eq, tally.emptied_le, by
    have hcount := tally.count_le
    omega⟩

omit [DecidableEq T] in
/-- The bytes of the call fit the buffer. -/
theorem Tally.bytes_le (tally : Tally start s emptied slack) (inv : Inv s) :
    postedBytes s - postedBytes start ≤ bufferSize := by
  have hcompleted := tally.completed_le
  have hposted := inv.cursors.posted_le
  have hsize := inv.cursors.size_eq
  have hle := inv.cursors.size_le
  rw [inv.capacity_eq] at hle
  rw [postedBytes]
  omega

omit [DecidableEq T] in
/-- Few posts fit: at most one in 600 bytes, one at the end of the buffer and one left
over. -/
theorem Tally.sendCount_le (tally : Tally start s emptied 1) (inv : Inv s) :
    s.pc.sendCount ≤ maxPostCnt := by
  have hbytes := tally.bytes_le inv
  have hemptied := tally.emptied_le
  have hcount := tally.count_le
  have hbuffer : bufferSize = 65536 := rfl
  have hlimit : sendLimit = 600 := rfl
  have hmax : maxPostCnt = 256 := rfl
  rw [hbuffer] at hbytes hcount
  rw [hlimit] at hemptied
  omega

omit [DecidableEq T] in
/-- Behind the outer loop the tally is that of the flush or of the end. -/
theorem phase_afterLoop {n : ℤ} (tally : Tally start s emptied 0)
    (hpc : s.pc = Session.afterLoop n) : Phase start s emptied s.pc := by
  rw [hpc, Session.afterLoop]
  split
  · exact .inl tally
  · exact tally.loosen

omit [DecidableEq T] in
/-- Where neither the posts nor the position change, nor what is left to post, the call
goes on. -/
theorem InCall.congr (h : InCall start s) (hposted : s'.posted = s.posted)
    (hcompleted : s'.completed = s.completed) (hunsent : unsent s' = unsent s)
    (hpc : s'.pc = s.pc) : InCall start s' := by
  obtain ⟨emptied, hphase⟩ := h
  have hbytes : postedBytes s' = postedBytes s := by rw [postedBytes, postedBytes, hposted]
  have hmove : ∀ {slack}, Tally start s emptied slack → Tally start s' emptied slack :=
    fun tally => tally.move hposted hcompleted (by rw [hpc])
  refine ⟨emptied, ?_⟩
  rw [hpc]
  cases hp : s.pc <;> rw [hp] at hphase
  case idle =>
    show (s'.posted.length : ℤ) ≤ start.posted.length + maxPostCnt
    rw [hposted]
    exact hphase
  case inner n =>
    refine ⟨hmove hphase.1, ?_⟩
    rw [hunsent, hbytes]
    exact hphase.2
  case flush n =>
    refine hphase.imp hmove fun h => ⟨hmove h.1, ?_⟩
    rw [hunsent]
    exact h.2
  all_goals exact hmove hphase

omit [DecidableEq T] in
/-- What is not posted before and after the post of a chunk. -/
theorem Passed.postedBytes_eq {m : Session T} (passed : Passed s m true) :
    postedBytes m + unsent m = postedBytes s + unsent s := by
  have hm := posted_add_unsent m
  have hs := posted_add_unsent s
  rw [passed.written_eq] at hm
  rw [postedBytes, postedBytes]
  omega

omit [DecidableEq T] in
/-- A post leaves nothing to post, or what is posted next begins a new round through the
buffer. -/
theorem Passed.empties_or_turns {m : Session T} (passed : Passed s m true) (inv : Inv s) :
    unsent m < unsent s ∧ 0 ≤ unsent m ∧
      (unsent m = 0 ∧ postedBytes s / bufferSize ≤ postedBytes m / bufferSize ∨
        postedBytes s / bufferSize + 1 ≤ postedBytes m / bufferSize) := by
  obtain ⟨hpos, hle, hends⟩ := nextChunk_cases inv (passed.size_pos rfl)
  have hunsent := passed.unsent_eq
  have hbytes := passed.postedBytes_eq
  have hbuffer : bufferSize = 65536 := rfl
  refine ⟨by omega, by omega, ?_⟩
  rcases hends with hall | hend
  · refine .inl ⟨by omega, ?_⟩
    rw [hbuffer]
    omega
  · have hsum : ((chunkBytes s.posted).length : ℤ) + (nextChunk s).bytes.length =
        postedBytes m := by
      rw [← postedBytes]
      omega
    rw [hsum] at hend
    rw [hbuffer] at hend ⊢
    exact .inr (by omega)

omit [DecidableEq T] in
/-- A post that is one more of either kind, or one more left over. -/
theorem Tally.post (tally : Tally start s emptied 0) {m : Session T} (passed : Passed s m true)
    (hpc : s.pc.Posts) {emptied' slack' : ℤ}
    (hemptied : sendLimit * emptied' ≤ postedBytes m - postedBytes start)
    (hkinds : emptied + postedBytes s / bufferSize + 1 ≤
      emptied' + postedBytes m / bufferSize + slack') :
    Tally start { m with pc := s.pc.afterPass true } emptied' slack' := by
  have hcount : (s.pc.afterPass true).sendCount = s.pc.sendCount + 1 :=
    Pc.sendCount_afterPass hpc true
  have hposted : m.posted = s.posted ++ [nextChunk s] := passed.posted_eq
  have hle := tally.posted_le
  have hposts := tally.count_eq
  have hcountle := tally.count_le
  refine ⟨?_, ?_, ?_, hemptied, ?_⟩
  · show ((chunkBytes m.completed).length : ℤ) ≤ postedBytes start
    rw [passed.completed_eq]
    exact tally.completed_le
  · show postedBytes start ≤ postedBytes m
    rw [postedBytes, postedBytes, hposted, chunkBytes_append, List.length_append, Nat.cast_add]
    rw [postedBytes, postedBytes] at hle
    omega
  · show (m.posted.length : ℤ) = start.posted.length + (s.pc.afterPass true).sendCount
    rw [hposted, hcount, List.length_append, List.length_singleton]
    push_cast
    omega
  · show (s.pc.afterPass true).sendCount ≤
      emptied' + (postedBytes m / bufferSize - postedBytes start / bufferSize) + slack'
    omega

omit [DecidableEq T] in
/-- Behind a post of the rest the tally is that of the flush or of the end. -/
theorem phase_afterPost {n : ℤ}
    (h : Tally start s emptied 0 ∨ Tally start s emptied 1 ∧ unsent s = 0)
    (hpc : s.pc = if n + 1 ≥ maxPostCnt then .stamp (n + 1) else .flush (n + 1)) :
    Phase start s emptied s.pc := by
  rw [hpc]
  split
  · exact h.elim Tally.loosen And.left
  · exact h

omit [DecidableEq T] in
/-- A post inside the outer loop goes on with the call. -/
theorem inCall_inner (inv : Inv s) {n : ℤ} (hpc : s.pc = .inner n) {m : Session T}
    (passed : Passed s m true) (h : InCall start s) :
    InCall start { m with pc := s.pc.afterPass true } := by
  have hposts : s.pc.Posts := by rw [hpc]; trivial
  obtain ⟨e, hphase⟩ := h
  rw [hpc] at hphase
  obtain ⟨tally, hroom⟩ := hphase
  obtain ⟨hlt, hnonneg, hends⟩ := passed.empties_or_turns inv
  have hbytes := passed.postedBytes_eq
  have hroom := hroom.resolve_left (by omega)
  have hafter : s.pc.afterPass true = .inner (n + 1) := by rw [hpc]; rfl
  rcases hends with ⟨hzero, hround⟩ | hround
  · -- nothing is left to post, and there was more than the limit
    have hnext : Tally start { m with pc := s.pc.afterPass true } (e + 1) 0 :=
      tally.post passed hposts (by omega) (by omega)
    rw [hafter] at hnext ⊢
    exact ⟨e + 1, hnext, .inl hzero⟩
  · have hle := tally.emptied_le
    have hnext : Tally start { m with pc := s.pc.afterPass true } e 0 :=
      tally.post passed hposts (by omega) (by omega)
    rw [hafter] at hnext ⊢
    refine ⟨e, hnext, .inr ?_⟩
    show _ ≤ postedBytes m - postedBytes start + unsent m
    omega

omit [DecidableEq T] in
/-- A post of the rest goes on with the call. -/
theorem inCall_flush (inv : Inv s) {n : ℤ} (hpc : s.pc = .flush n) {m : Session T}
    (passed : Passed s m true) (h : InCall start s) :
    InCall start { m with pc := s.pc.afterPass true } := by
  have hposts : s.pc.Posts := by rw [hpc]; trivial
  obtain ⟨e, hphase⟩ := h
  rw [hpc] at hphase
  obtain ⟨hlt, hnonneg, hends⟩ := passed.empties_or_turns inv
  have hbytes := passed.postedBytes_eq
  have tally := hphase.resolve_right fun h => by omega
  have hle := tally.emptied_le
  refine ⟨e, phase_afterPost ?_ (n := n) (by rw [hpc]; rfl)⟩
  rcases hends with ⟨hzero, hround⟩ | hround
  · exact .inr ⟨tally.post passed hposts (by omega) (by omega), hzero⟩
  · exact .inl (tally.post passed hposts (by omega) (by omega))

/-- A pass of a loop that posts goes on with the call. -/
theorem inCall_post (inv : Inv s) (h : InCall start s) {outcome : Outcome}
    (hs : step s (.post outcome) = some s') : InCall start s' := by
  obtain ⟨hpc, posted, m, rfl, passed⟩ := post_passed inv hs
  cases posted with
  | false =>
    have hposted : m.posted = s.posted := by simpa using passed.posted_eq
    have hcount : (s.pc.afterPass false).sendCount = s.pc.sendCount := by
      simpa using Pc.sendCount_afterPass hpc false
    obtain ⟨e, hphase⟩ := h
    have hkeep : ∀ {slack}, Tally start s e slack →
        Tally start { m with pc := s.pc.afterPass false } e slack := fun tally =>
      tally.move hposted passed.completed_eq hcount
    refine ⟨e, ?_⟩
    cases hp : s.pc <;> rw [hp] at hpc hphase hkeep
    case inner n => exact hkeep hphase.1
    case flush n => exact hkeep (hphase.elim Tally.loosen And.left)
    all_goals exact hpc.elim
  | true =>
    cases hp : s.pc with
    | inner n => exact hp ▸ inCall_inner inv hp passed h
    | flush n => exact hp ▸ inCall_flush inv hp passed h
    | _ =>
      rw [hp] at hpc
      exact hpc.elim

/-- Every step but the start of another call goes on with the call, or leaves it. -/
theorem inCall_step (loaded : Loaded s) (h : InCall start s) {a : Action T} (ha : a.isCall = false)
    (hs : step s a = some s') : InCall start s' := by
  cases step_moves hs with
  | allocated => exact h.congr rfl rfl rfl rfl
  | ignored t packet hc => exact h
  | checked t packet hc => exact h.congr rfl rfl rfl rfl
  | pushed t packet ht => exact h.congr rfl rfl rfl rfl
  | disconnected => exact h.congr rfl rfl rfl rfl
  | skipped currentTime hpc hskip => cases ha
  | entered currentTime hpc => cases ha
  | emptied n hpc hq =>
    obtain ⟨e, tally⟩ := h
    rw [hpc] at tally
    refine ⟨e, phase_afterLoop (tally.move rfl rfl ?_) (n := n) rfl⟩
    rw [hpc]
    exact Pc.sendCount_afterLoop n
  | full n packet rest ring hpc hq hw =>
    obtain ⟨e, tally⟩ := h
    rw [hpc] at tally
    refine ⟨e, phase_afterLoop (tally.move rfl rfl ?_) (n := n) rfl⟩
    rw [hpc]
    exact Pc.sendCount_afterLoop n
  | wrote n packet rest ring hpc hq hw =>
    obtain ⟨e, tally⟩ := h
    rw [hpc] at tally
    exact ⟨e, tally.move rfl rfl (by rw [hpc]; rfl)⟩
  | limit n hpc =>
    obtain ⟨e, tally⟩ := h
    rw [hpc] at tally
    have hkeep : ∀ pc : Pc, pc.sendCount = n → Tally start { s with pc := pc } e 0 :=
      fun pc hcount => Tally.move tally rfl rfl (by rw [hpc]; exact hcount)
    refine ⟨e, ?_⟩
    by_cases hlimit : s.sendBuffer.getSendDataSize < sendLimit
    · simp only [if_pos hlimit]
      exact hkeep _ rfl
    · -- what is left to post is more than the limit
      simp only [if_neg hlimit]
      refine ⟨hkeep _ rfl, .inr ?_⟩
      have hle := Tally.emptied_le tally
      have hsize := getSendDataSize_eq loaded.inv
      have hbounds := unsent_bounds loaded.inv
      rw [Int.mul_add, Int.mul_one]
      show _ ≤ postedBytes s - postedBytes start + unsent s
      split at hsize <;> omega
  | posted outcome s₁ pc hpc hsize hr => exact inCall_post loaded.inv h hs
  | notPosted outcome s₁ pc hpc hsize hr => exact inCall_post loaded.inv h hs
  | nothing outcome pc hpc hsize => exact inCall_post loaded.inv h hs
  | max n hpc =>
    obtain ⟨e, tally⟩ := h
    rw [hpc] at tally
    by_cases hmax : n ≥ maxPostCnt
    · refine ⟨e, phase_afterLoop (tally.move rfl rfl ?_) (n := n) (if_pos hmax)⟩
      dsimp only
      rw [if_pos hmax, hpc]
      exact Pc.sendCount_afterLoop n
    · refine ⟨e, ?_⟩
      simp only [if_neg hmax]
      exact Tally.move tally rfl rfl (by rw [hpc]; rfl)
  | stamped n now hpc =>
    obtain ⟨e, tally⟩ := h
    rw [hpc] at tally
    exact ⟨e, tally.move rfl rfl (by rw [hpc]; rfl)⟩
  | committed n accepted hpc =>
    obtain ⟨e, tally⟩ := h
    rw [hpc] at tally
    have hle := tally.sendCount_le loaded.inv
    have hposts := tally.count_eq
    refine ⟨e, ?_⟩
    show ((s.commitPosted n accepted).posted.length : ℤ) ≤ _
    rw [(commitPosted_frame s n accepted).2.2.2]
    omega
  | completed chunk rest hpc hout =>
    obtain ⟨e, hphase⟩ := h
    rw [hpc] at hphase
    have hidle := (processSend_counts ({ s with
      outstanding := rest
      completed := s.completed ++ [chunk] } : Session T) chunk.length).2.trans hpc
    refine ⟨e, ?_⟩
    rw [hidle]
    show (List.length (Session.posted _) : ℤ) ≤ _
    rw [posted_complete hout]
    exact hphase

end Posts

/-- The core thread is at a `RIOSend` with `RIO_MSG_COMMIT_ONLY`. -/
def AttemptsCommit (s : Session T) : Prop := ∃ n, s.pc = .commit n ∧ 0 < n ∧ 0 < s.sendCnt

/-- An attempt asks for an answer: a refusal is reported. -/
theorem AttemptsCommit.refused {s s' : Session T} (h : AttemptsCommit s)
    (hs : step s (.commit false) = some s') : s'.errors = s.errors ++ ["SendCommit"] := by
  obtain ⟨n, hpc, hn, hcnt⟩ := h
  simp only [step, hpc, Session.commitPosted, gt_iff_lt, if_pos hn, Session.sendCommit,
    if_neg (not_le.mpr hcnt), Option.some.injEq] at hs
  rw [← hs]
  rfl

section Call

variable {start s s' : Session T} {as : List (Action T)}

/-- Inside the call the core thread is never held up. -/
theorem call_enabled (inv : Inv s) (hpc : s.pc ≠ .idle) (outcome : Outcome) (now : ℤ)
    (accepted : Bool) : (step s (s.pc.action outcome now accepted)).isSome = true := by
  cases hp : s.pc with
  | idle => exact (hpc hp).elim
  | dequeue n =>
    simp only [Pc.action, step, hp]
    cases hq : s.sendBufQueue with
    | nil => rfl
    | cons packet rest =>
      by_cases hfree : (packet.length : ℤ) ≤ s.sendBuffer.getFreeSize
      · obtain ⟨ring, hw⟩ := writeBuffer_accepts inv hfree
        simp only [hw, Option.isSome_some]
      · have hw := RingBuffer.writeBuffer_refused (not_le.mp hfree)
        simp only [hw, Option.isSome_some]
  | inner n =>
    simp only [Pc.action, step, hp]
    split
    · split <;> rfl
    · rfl
  | flush n =>
    simp only [Pc.action, step, hp]
    split
    · split <;> rfl
    · rfl
  | _ => simp only [Pc.action, step, hp, Option.isSome_some]

/-- Outside a call nothing is posted. -/
theorem idle_step {a : Action T} (ha : a.isCall = false) (hpc : s.pc = .idle)
    (h : step s a = some s') : s'.pc = .idle ∧ s'.posted = s.posted := by
  cases step_moves h with
  | allocated => exact ⟨hpc, rfl⟩
  | ignored t packet hc => exact ⟨hpc, rfl⟩
  | checked t packet hc => exact ⟨hpc, rfl⟩
  | pushed t packet ht => exact ⟨hpc, rfl⟩
  | disconnected => exact ⟨hpc, rfl⟩
  | skipped currentTime hpc' hskip => exact ⟨hpc, rfl⟩
  | entered currentTime hpc' => cases ha
  | completed chunk rest hpc' hout =>
    exact ⟨(processSend_counts _ _).2.trans hpc, posted_complete hout⟩
  | posted outcome s₁ pc hposts hsize hr => rw [hpc] at hposts; exact hposts.elim
  | notPosted outcome s₁ pc hposts hsize hr => rw [hpc] at hposts; exact hposts.elim
  | nothing outcome pc hposts hsize => rw [hpc] at hposts; exact hposts.elim
  | _ => cases hpc.symm.trans ‹_›

/-- It goes on behind a post. -/
theorem post_ne_idle (inv : Inv s) {outcome : Outcome} (h : step s (.post outcome) = some s') :
    s'.pc ≠ .idle := by
  obtain ⟨hpc, posted, m, rfl, -⟩ := post_passed inv h
  exact Pc.afterPass_ne_idle hpc posted

/-- The call is left by its commit only. -/
theorem commit_of_left (inv : Inv s) {a : Action T} (hpc : s.pc ≠ .idle) (h : step s a = some s')
    (hidle : s'.pc = .idle) : ∃ n accepted, a = .commit accepted ∧ s.pc = .commit n ∧
      s'.posted = s.posted := by
  cases step_moves h with
  | allocated => exact (hpc hidle).elim
  | ignored t packet hc => exact (hpc hidle).elim
  | checked t packet hc => exact (hpc hidle).elim
  | pushed t packet ht => exact (hpc hidle).elim
  | disconnected => exact (hpc hidle).elim
  | skipped currentTime hpc' hskip => exact (hpc hpc').elim
  | entered currentTime hpc' => exact (hpc hpc').elim
  | emptied n hpc' hq => exact (Pc.afterLoop_ne_idle n hidle).elim
  | full n packet rest ring hpc' hq hw => exact (Pc.afterLoop_ne_idle n hidle).elim
  | wrote n packet rest ring hpc' hq hw => cases hidle
  | limit n hpc' =>
    dsimp only at hidle
    split at hidle <;> cases hidle
  | posted outcome s₁ pc hposts hsize hr => exact (post_ne_idle inv h hidle).elim
  | notPosted outcome s₁ pc hposts hsize hr => exact (post_ne_idle inv h hidle).elim
  | nothing outcome pc hposts hsize => exact (post_ne_idle inv h hidle).elim
  | max n hpc' =>
    dsimp only at hidle
    split at hidle
    · exact (Pc.afterLoop_ne_idle n hidle).elim
    · cases hidle
  | stamped n now hpc' => cases hidle
  | committed n accepted hpc' =>
    exact ⟨n, accepted, rfl, hpc', (commitPosted_frame s n accepted).2.2.2⟩
  | completed chunk rest hpc' hout => exact (hpc hpc').elim

/-- Outside a call nothing is posted until the next one. -/
theorem idle_run (hcall : ∀ a ∈ as, a.isCall = false) (hpc : s.pc = .idle)
    (hr : run step s as = some s') : s'.posted = s.posted := by
  induction as generalizing s with
  | nil =>
    cases hr
    rfl
  | cons a as ih =>
    obtain ⟨m, hm, hrest⟩ := run_cons_eq_some.mp hr
    obtain ⟨hidle, hposted⟩ := idle_step (hcall a List.mem_cons_self) hpc hm
    exact (ih (fun b hb => hcall b (List.mem_cons_of_mem a hb)) hidle hrest).trans hposted

/-- A run that leaves a call leaves it by a commit behind its last post. -/
theorem commit_of_run {start : Session T} (loaded : Loaded s) (h : InCall start s)
    (hcall : ∀ a ∈ as, a.isCall = false) (hok : StepsMeet step HoldsHeader s as)
    (hpc : s.pc ≠ .idle) (hr : run step s as = some s') (hidle : s'.pc = .idle) :
    ∃ before accepted after m n, as = before ++ .commit accepted :: after ∧
      run step s before = some m ∧ m.pc = .commit n ∧ m.posted = s'.posted ∧
      Loaded m ∧ InCall start m := by
  induction as generalizing s with
  | nil =>
    cases hr
    exact (hpc hidle).elim
  | cons a as ih =>
    obtain ⟨m, hm, hrest⟩ := run_cons_eq_some.mp hr
    have hfirst := hcall a List.mem_cons_self
    have hlater : ∀ b ∈ as, b.isCall = false := fun b hb => hcall b (List.mem_cons_of_mem a hb)
    by_cases hleft : m.pc = .idle
    · obtain ⟨n, accepted, rfl, hpc', hposted⟩ := commit_of_left loaded.inv hpc hm hleft
      exact ⟨[], accepted, as, s, n, rfl, rfl, hpc',
        hposted.symm.trans (idle_run hlater hleft hrest).symm, loaded, h⟩
    · obtain ⟨before, accepted, after, w, n, rfl, hw, hfound⟩ :=
        ih (loaded_step loaded hok.1 hm) (inCall_step loaded h hfirst hm) hlater (hok.2 m hm) hleft
          hrest
      exact ⟨a :: before, accepted, after, w, n, rfl, run_cons_eq_some.mpr ⟨m, hm, hw⟩, hfound⟩

omit [DecidableEq T] in
/-- At every position of a call no more than `MAX_POST_CNT` sends were posted in it. -/
theorem InCall.posts_le (h : InCall start s) (inv : Inv s) :
    (s.posted.length : ℤ) ≤ start.posted.length + maxPostCnt := by
  obtain ⟨e, hphase⟩ := h
  have htally : ∀ {e}, Tally start s e 1 →
      (s.posted.length : ℤ) ≤ start.posted.length + maxPostCnt := fun tally => by
    have hle := tally.sendCount_le inv
    have heq := tally.count_eq
    omega
  cases hp : s.pc <;> rw [hp] at hphase
  case idle => exact hphase
  case inner n => exact htally hphase.1.loosen
  case flush n => exact htally (hphase.elim Tally.loosen And.left)
  case stamp n => exact htally hphase
  case commit n => exact htally hphase
  all_goals exact htally (Tally.loosen hphase)

/-- The start of a call posts nothing. -/
theorem posted_eq_of_call {t : ℤ} (h : step s (.sendDeferred t) = some s') :
    s'.posted = s.posted := by
  cases step_moves h <;> rfl

/-- What a call starts from. -/
theorem call_entered (loaded : Loaded s) {t : ℤ} (h : step s (.sendDeferred t) = some s') :
    InCall s s' ∧ (passesLeft s' : ℤ) ≤ bufferSize / PacketHeader.sizeOf + 1 ∧
      (stepsLeft s' : ℤ) ≤ bufferSize + 5 * (bufferSize / PacketHeader.sizeOf) + 4 := by
  have hbounds := unsent_bounds loaded.inv
  have hfree := getFreeSize_eq loaded.inv
  have hsize := loaded.inv.cursors.size_eq
  have hbuffer : bufferSize = 65536 := rfl
  have hheader : (PacketHeader.sizeOf : ℤ) = 4 := rfl
  rw [hheader]
  cases step_moves h with
  | skipped currentTime hpc hskip =>
    refine ⟨⟨0, ?_⟩, ?_, ?_⟩
    · rw [hpc]
      show (s.posted.length : ℤ) ≤ s.posted.length + maxPostCnt
      simp [maxPostCnt]
    · simp [passesLeft, hpc, Pc.inLoop, hbuffer]
    · simp [stepsLeft, hpc, hbuffer]
  | entered currentTime hpc =>
    refine ⟨⟨0, ?_⟩, ?_, ?_⟩
    · show Tally s { s with pc := .dequeue 0 } 0 0
      have hle := loaded.inv.cursors.completed_le
      constructor <;> simp [postedBytes, Pc.sendCount, Session.posted] at hle ⊢
    · simp only [passesLeft, Pc.inLoop, if_true]
      rw [hheader]
      omega
    · simp only [stepsLeft, reduceCtorEq, if_false, rank, hheader]
      have hunsent : unsent ({ s with pc := .dequeue 0 } : Session T) = unsent s := rfl
      rw [hunsent]
      omega

end Call

/-- What is promised of a call of `SendDeferred` that starts in `start` at time `t`, in the
state that the steps `as` lead to. -/
structure Bounded (start : Session T) (t : ℤ) (as : List (Action T)) (s' : Session T) : Prop where
  /-- The outer loop has as many passes as there is room for headers, and one. -/
  outerLoop_le : (as.countP Action.isDequeue : ℤ) ≤ bufferSize / PacketHeader.sizeOf + 1
  /-- The call has so many steps at most. -/
  steps_le : (as.countP Action.isOfCall : ℤ) ≤
    bufferSize + 5 * (bufferSize / PacketHeader.sizeOf) + 4
  /-- Until it returns its next step is enabled, whatever the environment answers. -/
  enabled : s'.pc ≠ .idle → ∀ outcome now accepted,
    (step s' (s'.pc.action outcome now accepted)).isSome = true
  /-- It posts no more than `MAX_POST_CNT` sends. -/
  posts_le : (s'.posted.length : ℤ) ≤ start.posted.length + maxPostCnt
  /-- On return no post is counted as not committed. -/
  sendCnt_eq : s'.pc = .idle → s'.sendCnt = 0
  /-- On return a commit was attempted behind the last post. -/
  committed : s'.pc = .idle → start.posted.length < s'.posted.length →
    ∃ before accepted after m, as = before ++ .commit accepted :: after ∧
      run step start (.sendDeferred t :: before) = some m ∧ AttemptsCommit m ∧
      m.posted = s'.posted

section Call

variable {s s' : Session T} {as : List (Action T)}

/-- From the start of a call on its invariants hold. -/
theorem call_run {start : Session T} (loaded : Loaded s) (h : InCall start s)
    (hcall : ∀ a ∈ as, a.isCall = false) (hok : StepsMeet step HoldsHeader s as)
    (hr : run step s as = some s') : Loaded s' ∧ InCall start s' ∧
      as.countP Action.isDequeue ≤ passesLeft s ∧ as.countP Action.isOfCall ≤ stepsLeft s := by
  have hnone : StepsMeet step (fun _ a => a.isCall = false) s as :=
    stepsMeet_of_forall fun a ha _ => hcall a ha
  have hmeet := hok.and hnone
  have hkept : ∀ (s : Session T) a s', Loaded s → HoldsHeader s a ∧ a.isCall = false →
      step s a = some s' → Loaded s' := fun _ _ _ hl ha hs => loaded_step hl ha.1 hs
  have huses : ∀ (s : Session T) a s', Loaded s → HoldsHeader s a ∧ a.isCall = false →
      step s a = some s' → UsesUp s a s' := fun _ _ _ hl ha hs => usesUp_step hl ha.2 hs
  have hdequeues := countP_add_le hkept (fun s a s' hl ha hs => (huses s a s' hl ha hs).passes)
    loaded hmeet hr
  have hcalls := countP_add_le hkept (fun s a s' hl ha hs => (huses s a s' hl ha hs).steps)
    loaded hmeet hr
  have hboth : ∀ s a s', Loaded s ∧ InCall start s → HoldsHeader s a ∧ a.isCall = false →
      step s a = some s' → Loaded s' ∧ InCall start s' := fun _ _ _ hl ha hs =>
    ⟨loaded_step hl.1 ha.1 hs, inCall_step hl.1 hl.2 ha.2 hs⟩
  obtain ⟨loaded', hin⟩ := run_preserves hboth ⟨loaded, h⟩ hmeet hr
  exact ⟨loaded', hin, by omega, by omega⟩

/-- However many packets other threads queue meanwhile, a call of `SendDeferred` is
bounded and leaves nothing that is posted and not committed. -/
theorem sendDeferred_bounded {memory : ℤ → UInt8} {t : ℤ}
    (h : ReachableVia step HoldsHeader (init memory) s)
    (hok : StepsMeet step HoldsHeader s (.sendDeferred t :: as))
    (hcall : ∀ a ∈ as, a.isCall = false)
    (hr : run step s (.sendDeferred t :: as) = some s') : Bounded s t as s' := by
  have loaded : Loaded s := h.invariant (loaded_init memory) fun _ _ _ hl ha hs =>
    loaded_step hl ha hs
  obtain ⟨m, hm, hrest⟩ := run_cons_eq_some.mp hr
  obtain ⟨hin, hpasses, hsteps⟩ := call_entered loaded hm
  have loadedm := loaded_step loaded hok.1 hm
  obtain ⟨loaded', hin', hdequeues, hcalls⟩ := call_run loadedm hin hcall (hok.2 m hm) hrest
  refine ⟨by omega, by omega, call_enabled loaded'.inv, hin'.posts_le loaded'.inv, ?_, ?_⟩
  · intro hidle
    have hcnt := loaded'.sendCnt_eq
    rw [hidle] at hcnt
    exact hcnt
  · intro hidle hlt
    have hentered : m.pc ≠ .idle := fun hleft => by
      rw [idle_run hcall hleft hrest, posted_eq_of_call hm] at hlt
      exact lt_irrefl _ hlt
    obtain ⟨before, accepted, after, w, n, rfl, hw, hpc, hposted, loadedw, e, tally⟩ :=
      commit_of_run loadedm hin hcall (hok.2 m hm) hentered hrest hidle
    -- the call counted the posts it is about to commit
    rw [hpc] at tally
    have hposts := tally.count_eq
    have hcnt := loadedw.sendCnt_eq
    rw [hpc] at hposts hcnt
    rw [Pc.sendCount] at hposts hcnt
    rw [← hposted] at hlt
    exact ⟨before, accepted, after, w, rfl, run_cons_eq_some.mpr ⟨m, hm, hw⟩,
      ⟨n, hpc, by omega, by omega⟩, hposted⟩

end Call

/-- A packet is queued. -/
def queueOne : List (Action Unit) := [.initSession, .sendCheck () [4, 0, 7, 0], .sendPush ()]

/-- The call that sends it, while another packet is queued and left for the next call. -/
def callOne : List (Action Unit) :=
  [.dequeue, .testLimit, .sendCheck () [4, 0, 8, 0], .dequeue, .sendPush (), .post .ok, .post .ok,
    .stamp 30, .commit true]

/-- The bounds of a call that sends a packet. -/
theorem callOne_bounded : ∃ s s', run step (init fun _ => 0) queueOne = some s ∧
    run step s (.sendDeferred 0 :: callOne) = some s' ∧ Bounded s 0 callOne s' := by
  have h : (run step (init fun _ => 0) (queueOne ++ .sendDeferred 0 :: callOne)).isSome = true := by
    decide
  obtain ⟨s', hs'⟩ := Option.isSome_iff_exists.mp h
  obtain ⟨s, hs, hcall⟩ := run_append_eq_some.mp hs'
  refine ⟨s, s', hs, hcall, sendDeferred_bounded ⟨queueOne, hs, ?_⟩ ?_ (by decide) hcall⟩
  · exact stepsMeet_of_forall (by simp [queueOne, HoldsHeader, PacketHeader.sizeOf])
  · exact stepsMeet_of_forall (by simp [callOne, HoldsHeader, PacketHeader.sizeOf])

end RioIocpServer.RioSend
