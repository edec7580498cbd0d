import RioIocpServer.RioSend
import RioIocpServer.PacketExtraction

/-!
# Progress of the RIO send path

`GetSendDataSize` reads the distance from the send position to the head, which
is zero for a buffer that is full of bytes not posted. Packets that fill the
buffer exactly, or one that never fits, therefore stop the session for good.
As long as no packet is longer than the buffer and no write leaves it full of
bytes not posted, a session with nothing outstanding posts whenever it has
something to transmit.
-/

namespace RioIocpServer.RioSend

open TransitionSystem RioBuffer

variable {T : Type*} [DecidableEq T]

/-- Number of bytes written and not posted. -/
def unsent (s : Session T) : ℤ := s.written.length - (chunkBytes s.posted).length

/-- There is something to transmit. -/
def Transmittable (s : Session T) : Prop := s.sendBufQueue ≠ [] ∨ 0 < unsent s

/-- A connected and allocated session outside `SendDeferred` has no send
outstanding and something to transmit. -/
structure Pending (s : Session T) : Prop where
  /-- The core thread is outside `SendDeferred`. -/
  pc_eq : s.pc = .idle
  /-- The session is connected. -/
  connected : s.connected = true
  /-- Its buffers are allocated. -/
  allocated : s.allocated = true
  /-- Every posted send is completed. -/
  outstanding_eq : s.outstanding = []
  /-- Bytes or packets are waiting. -/
  transmittable : Transmittable s

/-- The sends of a call succeed and nobody disconnects meanwhile. -/
def Succeeds : Action T → Prop
  | .post outcome => outcome = .ok
  | .disconnect => False
  | .sendDeferred _ => False
  | _ => True

/-- The call passes the test of `COMMIT_TIME`. -/
def Passes (s : Session T) (currentTime : ℤ) : Prop :=
  ¬ (s.lastSendTime ≠ 0 ∧ currentTime - s.lastSendTime ≤ commitTime)

/-- Every completed call of `SendDeferred` whose sends succeed and whose steps
meet `ok` posts. -/
def CallsPost (ok : Session T → Action T → Prop) (s : Session T) : Prop :=
  ∀ currentTime call s', Passes s currentTime → (∀ a ∈ call, Succeeds a) →
    StepsMeet step ok s (.sendDeferred currentTime :: call) →
    run step s (.sendDeferred currentTime :: call) = some s' → s'.pc = .idle →
    s.posted.length < s'.posted.length

/-- The steps of a call on its own: sends succeed and commits are accepted. -/
def OfCall : Action T → Prop
  | .dequeue => True
  | .testLimit => True
  | .post outcome => outcome = .ok
  | .testMax => True
  | .stamp _ => True
  | .commit _ => True
  | _ => False

/-- The send path does not wedge in the runs whose steps meet `ok`. -/
structure NeverWedges (ok : Session T → Action T → Prop) (memory : ℤ → UInt8) : Prop where
  /-- `GetSendDataSize` counts the bytes written and not posted. -/
  sendDataSize_eq : ∀ s, ReachableVia step ok (init memory) s →
    s.sendBuffer.getSendDataSize = unsent s
  /-- An empty buffer takes the packet at the head of the queue. -/
  head_accepted : ∀ s, ReachableVia step ok (init memory) s → s.sendBuffer.size = 0 →
    ∀ packet rest, s.sendBufQueue = packet :: rest →
      ∃ ring, s.sendBuffer.writeBuffer packet = some (true, ring)
  /-- A session with something to transmit posts in its next call. -/
  calls_post : ∀ s, ReachableVia step ok (init memory) s → Pending s → CallsPost ok s
  /-- A call left to itself ends. -/
  calls_end : ∀ s, ReachableVia step ok (init memory) s → ∃ call s', (∀ a ∈ call, OfCall a) ∧
    run step s call = some s' ∧ s'.pc = .idle

/-- The packets sent are built by `_CreateNetBuffer`. -/
def Fed (_ : Session T) : Action T → Prop
  | .sendCheck _ packet => ∃ payload pktId, packet = createNetBuffer payload pktId
  | _ => True

/-- Moreover no packet is longer than the buffer, and no packet that the locked
section writes leaves the buffer full of bytes not posted. -/
def FitsBuffer (s : Session T) (a : Action T) : Prop :=
  Fed s a ∧
    match a with
    | .sendCheck _ packet => packet.length ≤ bufferSize
    | .dequeue => ∀ packet rest, s.sendBufQueue = packet :: rest →
        packet.length ≤ s.sendBuffer.getFreeSize → unsent s + packet.length ≠ bufferSize
    | _ => True

/-- A packet that an empty buffer takes. -/
def Sendable (packet : List UInt8) : Prop := 0 < packet.length ∧ packet.length ≤ bufferSize

/-- All packets queued or about to be queued are of one kind. -/
structure Packets (kind : List UInt8 → Prop) (s : Session T) : Prop where
  /-- Those queued. -/
  queued : ∀ packet ∈ s.sendBufQueue, kind packet
  /-- Those about to be queued. -/
  held : ∀ t packet, s.senders t = some packet → kind packet

/-- What such runs keep besides the invariant. -/
structure Steady (s : Session T) : Prop where
  /-- The invariant of the send path. -/
  inv : Inv s
  /-- The packets queued fit an empty buffer. -/
  queued : ∀ packet ∈ s.sendBufQueue, Sendable packet
  /-- So do those about to be queued. -/
  held : ∀ t packet, s.senders t = some packet → Sendable packet
  /-- The buffer is not full of bytes not posted. -/
  unsent_ne : unsent s ≠ bufferSize

/-- The positions of a call from which a send is posted before it ends. -/
def ToPost (s : Session T) : Pc → Prop
  | .dequeue n => n = 0 ∧ Transmittable s
  | .testLimit n => n = 0 ∧ 0 < unsent s
  | .inner _ => 0 < unsent s
  | .flush _ => 0 < unsent s
  | _ => False

/-- A call that has not posted yet and is going to. -/
structure Armed (s : Session T) : Prop where
  /-- The session is connected. -/
  connected : s.connected = true
  /-- Nothing is outstanding. -/
  outstanding_eq : s.outstanding = []
  /-- The call is on its way to a post. -/
  to_post : ToPost s s.pc

section Progress

variable {s s' : Session T}

omit [DecidableEq T] in
/-- Bytes not posted are stored. -/
theorem unsent_bounds (inv : Inv s) : 0 ≤ unsent s ∧ unsent s ≤ s.sendBuffer.size ∧
    s.sendBuffer.size ≤ bufferSize := by
  have hle := inv.cursors.unsent_le
  have hsize := inv.cursors.size_le
  have hcap := inv.capacity_eq
  have hp := inv.cursors.posted_le
  rw [unsent]
  omega

omit [DecidableEq T] in
/-- `GetSendDataSize` is right except in a buffer full of bytes not posted. -/
theorem getSendDataSize_eq (inv : Inv s) : s.sendBuffer.getSendDataSize =
    if unsent s = bufferSize then 0 else unsent s := by
  rw [inv.cursors.sendDataSize_eq, inv.capacity_eq, unsent]

omit [DecidableEq T] in
/-- With nothing outstanding the bytes stored are those not posted. -/
theorem size_eq_unsent (inv : Inv s) (hout : s.outstanding = []) :
    s.sendBuffer.size = unsent s := by
  rw [inv.cursors.size_eq, unsent, Session.posted, hout, List.append_nil]

omit [DecidableEq T] in
/-- `WriteBuffer` accepts what there is room for. -/
theorem writeBuffer_accepts (inv : Inv s) {packet : List UInt8}
    (h : (packet.length : ℤ) ≤ s.sendBuffer.getFreeSize) :
    ∃ ring, s.sendBuffer.writeBuffer packet = some (true, ring) := by
  obtain ⟨ring, hw, -⟩ := inv.cursors.write h
  exact ⟨ring, hw⟩

omit [DecidableEq T] in
/-- A refused packet is longer than the free room. -/
theorem free_lt_of_refused (inv : Inv s) {packet : List UInt8} {ring : RingBuffer UInt8}
    (h : s.sendBuffer.writeBuffer packet = some (false, ring)) :
    s.sendBuffer.getFreeSize < packet.length := by
  by_contra hle
  obtain ⟨ring', hw⟩ := writeBuffer_accepts inv (not_lt.mp hle)
  rw [h] at hw
  cases hw

omit [DecidableEq T] in
/-- An accepted packet is not. -/
theorem le_free_of_accepted {packet : List UInt8} {ring : RingBuffer UInt8}
    (h : s.sendBuffer.writeBuffer packet = some (true, ring)) :
    packet.length ≤ s.sendBuffer.getFreeSize := by
  by_contra hlt
  rw [RingBuffer.writeBuffer_refused (by omega)] at h
  cases h

omit [DecidableEq T] in
/-- The initial session is steady. -/
theorem steady_init (memory : ℤ → UInt8) : Steady (init memory : Session T) :=
  ⟨inv_init memory, fun _ h => (List.not_mem_nil h).elim, fun _ _ h => (nomatch h),
    by simp [unsent, init, Session.posted, bufferSize]⟩

omit [DecidableEq T] in
/-- The kind of the packets is known from the queue and the threads that send. -/
theorem Packets.congr {kind : List UInt8 → Prop} (packets : Packets kind s)
    (hqueue : s'.sendBufQueue = s.sendBufQueue) (hsenders : s'.senders = s.senders) :
    Packets kind s' := by
  constructor
  · rw [hqueue]
    exact packets.queued
  · rw [hsenders]
    exact packets.held

omit [DecidableEq T] in
/-- A built packet is sendable when it is not longer than the buffer. -/
theorem sendable_of_fits {t : T} {packet : List UInt8}
    (h : FitsBuffer s (.sendCheck t packet)) : Sendable packet := by
  obtain ⟨⟨payload, pktId, rfl⟩, hle⟩ := h
  exact ⟨by rw [createNetBuffer_length]; omega, hle⟩

omit [DecidableEq T] in
/-- A posted chunk is no longer unsent. -/
theorem unsent_posted (h : s'.posted = s.posted ++ [nextChunk s]) (hw : s'.written = s.written) :
    unsent s' ≤ unsent s := by
  rw [unsent, unsent, h, hw, chunkBytes_append, List.length_append]
  omega

omit [DecidableEq T] in
/-- `RegisterSend` does not touch the queue and posts at most. -/
theorem registered_frame (inv : Inv s) (hsize : 0 < s.sendBuffer.getSendDataSize)
    {outcome : Outcome} {b : Bool} (hr : s.registerSend s.sendBuffer.getChunkSendSize
      s.sendBuffer.getSendOffset outcome = (b, s')) :
    s'.sendBufQueue = s.sendBufQueue ∧ s'.senders = s.senders ∧ s'.written = s.written ∧
      s'.posted = s.posted ++ (if b = true then [nextChunk s] else []) := by
  have hreg := registerSend_registers inv hsize outcome
  rw [hr] at hreg
  cases hreg with
  | posted sendBuffer hc inv' => simp [Session.posted]
  | refused outcome h => simp
  | failed => simp [Session.posted, Session.handleError, Session.disconnect]

omit [DecidableEq T] in
/-- A commit does not touch the data. -/
theorem commitPosted_frame (s : Session T) (n : ℤ) (accepted : Bool) :
    (s.commitPosted n accepted).sendBufQueue = s.sendBufQueue ∧
      (s.commitPosted n accepted).senders = s.senders ∧
      (s.commitPosted n accepted).written = s.written ∧
      (s.commitPosted n accepted).posted = s.posted := by
  unfold Session.commitPosted Session.sendCommit
  split
  · split
    · exact ⟨rfl, rfl, rfl, rfl⟩
    · cases accepted <;> exact ⟨rfl, rfl, rfl, rfl⟩
  · exact ⟨rfl, rfl, rfl, rfl⟩

omit [DecidableEq T] in
/-- A completion does not touch the queue. -/
theorem processSend_frame (s : Session T) (n : ℤ) :
    (s.processSend n).sendBufQueue = s.sendBufQueue ∧ (s.processSend n).senders = s.senders ∧
      (s.processSend n).written = s.written ∧ (s.processSend n).posted = s.posted := by
  unfold Session.processSend
  split
  · exact ⟨rfl, rfl, rfl, rfl⟩
  · split <;> exact ⟨rfl, rfl, rfl, rfl⟩

omit [DecidableEq T] in
/-- The bytes not posted are known from the two logs. -/
theorem unsent_congr (hp : s'.posted = s.posted) (hw : s'.written = s.written) :
    unsent s' = unsent s := by
  rw [unsent, unsent, hp, hw]

/-- Where the packets that are sent are of a kind, all packets stay of that kind. -/
theorem packets_step {kind : List UInt8 → Prop} (packets : Packets kind s) (inv : Inv s)
    {a : Action T} (hkind : ∀ t packet, a = .sendCheck t packet → kind packet)
    (h : step s a = some s') : Packets kind s' := by
  cases step_moves h with
  | checked t packet hc =>
    refine ⟨packets.queued, fun u p hp => ?_⟩
    dsimp only at hp
    by_cases hu : u = t
    · subst hu
      rw [Function.update_self] at hp
      cases hp
      exact hkind u packet rfl
    · rw [Function.update_of_ne hu] at hp
      exact packets.held u p hp
  | pushed t packet ht =>
    refine ⟨fun p hp => ?_, fun u p hp => ?_⟩
    · rcases List.mem_append.mp hp with hp | hp
      · exact packets.queued p hp
      · rw [List.mem_singleton.mp hp]
        exact packets.held t packet ht
    · dsimp only at hp
      by_cases hu : u = t
      · subst hu
        rw [Function.update_self] at hp
        cases hp
      · rw [Function.update_of_ne hu] at hp
        exact packets.held u p hp
  | wrote n packet rest ring hpc hq hw =>
    exact ⟨fun p hp => packets.queued p (by rw [hq]; exact List.mem_cons_of_mem _ hp),
      packets.held⟩
  | posted outcome s₁ pc hpc hsize hr | notPosted outcome s₁ pc hpc hsize hr =>
    obtain ⟨hq, hs, -, -⟩ := registered_frame inv hsize hr
    exact packets.congr hq hs
  | committed n accepted hpc =>
    obtain ⟨hq, hs, -, -⟩ := commitPosted_frame s n accepted
    exact packets.congr hq hs
  | completed chunk rest hpc hout =>
    obtain ⟨hq, hs, -, -⟩ := processSend_frame ({ s with
      outstanding := rest
      completed := s.completed ++ [chunk] } : Session T) chunk.length
    exact packets.congr hq hs
  | _ => exact packets.congr rfl rfl

omit [DecidableEq T] in
/-- A completed chunk stays in the log of the chunks posted. -/
theorem posted_complete {chunk : Chunk UInt8} {rest : List (Chunk UInt8)}
    (hout : s.outstanding = chunk :: rest) :
    (({ s with outstanding := rest, completed := s.completed ++ [chunk] } :
      Session T).processSend chunk.length).posted = s.posted := by
  refine (processSend_frame _ _).2.2.2.trans ?_
  rw [Session.posted, Session.posted, hout, List.append_assoc, List.singleton_append]

/-- Every step that meets the condition keeps the session steady. -/
theorem steady_step (st : Steady s) {a : Action T} (hok : FitsBuffer s a)
    (h : step s a = some s') : Steady s' := by
  have hne := st.unsent_ne
  have hb := unsent_bounds st.inv
  have hle : unsent s' ≤ unsent s → unsent s' ≠ bufferSize := fun h => by omega
  obtain ⟨hqueued, hheld⟩ := packets_step ⟨st.queued, st.held⟩ st.inv
    (fun t packet ha => sendable_of_fits (ha ▸ hok)) h
  refine ⟨inv_step st.inv h, hqueued, hheld, ?_⟩
  cases step_moves h with
  | wrote n packet rest ring hpc hq hw =>
    have hfits := hok.2 packet rest hq (le_free_of_accepted hw)
    intro heq
    apply hfits
    rw [← heq]
    simp only [unsent, List.length_append, Nat.cast_add, Session.posted]
    ring
  | posted outcome s₁ pc hpc hsize hr =>
    obtain ⟨-, -, hw, hp⟩ := registered_frame st.inv hsize hr
    exact hle (unsent_posted hp hw)
  | notPosted outcome s₁ pc hpc hsize hr =>
    obtain ⟨-, -, hw, hp⟩ := registered_frame st.inv hsize hr
    rw [if_neg Bool.false_ne_true, List.append_nil] at hp
    exact hle (unsent_congr hp hw).le
  | committed n accepted hpc =>
    obtain ⟨-, -, hw, hp⟩ := commitPosted_frame s n accepted
    exact hle (unsent_congr hp hw).le
  | completed chunk rest hpc hout =>
    exact hle (unsent_congr (posted_complete hout) (processSend_frame _ _).2.2.1).le
  | _ => exact hle le_rfl

/-- Posted chunks stay posted. -/
theorem posted_mono (inv : Inv s) {a : Action T} (h : step s a = some s') :
    s.posted.length ≤ s'.posted.length := by
  cases step_moves h with
  | posted outcome s₁ pc hpc hsize hr =>
    show s.posted.length ≤ s₁.posted.length
    rw [(registered_frame inv hsize hr).2.2.2, List.length_append]
    exact Nat.le_add_right _ _
  | notPosted outcome s₁ pc hpc hsize hr =>
    show s.posted.length ≤ s₁.posted.length
    rw [(registered_frame inv hsize hr).2.2.2, List.length_append]
    exact Nat.le_add_right _ _
  | committed n accepted hpc =>
    show s.posted.length ≤ (s.commitPosted n accepted).posted.length
    rw [(commitPosted_frame s n accepted).2.2.2]
  | completed chunk rest hpc hout => rw [posted_complete hout]
  | _ => exact le_rfl

omit [DecidableEq T] in
/-- A successful `RIOSend` of a connected session registers the send. -/
theorem registerSend_ok (inv : Inv s) (hsize : 0 < s.sendBuffer.getSendDataSize)
    (hc : s.connected = true) : ∃ s', s.registerSend s.sendBuffer.getChunkSendSize
      s.sendBuffer.getSendOffset .ok = (true, s') ∧ s'.connected = true := by
  have hreg := registerSend_registers inv hsize .ok
  generalize s.registerSend s.sendBuffer.getChunkSendSize s.sendBuffer.getSendOffset .ok = r at hreg
  cases hreg with
  | posted sendBuffer hc' inv' => exact ⟨_, rfl, hc⟩
  | refused outcome h => simp [hc] at h

/-- A step of an armed call posts or leaves the call armed. -/
theorem armed_step (st : Steady s) (armed : Armed s) {a : Action T} (hs : Succeeds a)
    (h : step s a = some s') :
    s.posted.length < s'.posted.length ∨ s'.posted = s.posted ∧ Armed s' := by
  have hc := armed.connected
  have hout := armed.outstanding_eq
  have hpost := armed.to_post
  have hb := unsent_bounds st.inv
  have hsize : s.sendBuffer.getSendDataSize = unsent s := by
    rw [getSendDataSize_eq st.inv, if_neg st.unsent_ne]
  cases step_moves h with
  | allocated => exact .inr ⟨rfl, hc, hout, hpost⟩
  | ignored t packet hc' => exact .inr ⟨rfl, armed⟩
  | checked t packet hc' => exact .inr ⟨rfl, hc, hout, hpost⟩
  | pushed t packet ht =>
    refine .inr ⟨rfl, hc, hout, ?_⟩
    cases hpc : s.pc <;> rw [hpc] at hpost
    case dequeue n => exact ⟨hpost.1, .inl (by simp)⟩
    all_goals exact hpost
  | disconnected => exact hs.elim
  | skipped currentTime hpc hskip => exact hs.elim
  | entered currentTime hpc => exact hs.elim
  | emptied n hpc hq =>
    rw [hpc] at hpost
    obtain ⟨rfl, htrans⟩ := hpost
    exact .inr ⟨rfl, hc, hout, htrans.resolve_left (not_not_intro hq)⟩
  | full n packet rest ring hpc hq hw =>
    -- a packet that fits an empty buffer was refused, so bytes are stored
    rw [hpc] at hpost
    obtain ⟨rfl, -⟩ := hpost
    have hlt := free_lt_of_refused st.inv hw
    have hle := (st.queued packet (by rw [hq]; exact List.mem_cons_self)).2
    have hcap := st.inv.capacity_eq
    have heq := size_eq_unsent st.inv hout
    rw [RingBuffer.getFreeSize] at hlt
    exact .inr ⟨rfl, hc, hout, by show 0 < unsent s; omega⟩
  | wrote n packet rest ring hpc hq hw =>
    rw [hpc] at hpost
    have hlen := (st.queued packet (by rw [hq]; exact List.mem_cons_self)).1
    refine .inr ⟨rfl, hc, hout, hpost.1, ?_⟩
    simp only [unsent, List.length_append, Nat.cast_add, Session.posted] at hb ⊢
    omega
  | limit n hpc =>
    rw [hpc] at hpost
    refine .inr ⟨rfl, hc, hout, ?_⟩
    dsimp only
    split
    · exact ⟨hpost.1, .inr hpost.2⟩
    · exact hpost.2
  | posted outcome s₁ pc hpc hsize' hr =>
    refine .inl ?_
    show s.posted.length < s₁.posted.length
    rw [(registered_frame st.inv hsize' hr).2.2.2, List.length_append]
    exact Nat.lt_add_of_pos_right Nat.one_pos
  | notPosted outcome s₁ pc hpc hsize' hr =>
    obtain rfl : outcome = .ok := hs
    obtain ⟨s₂, hr', -⟩ := registerSend_ok st.inv hsize' hc
    rw [hr] at hr'
    cases hr'
  | nothing outcome pc hpc hsize' =>
    have hpos : 0 < unsent s := by
      cases hpc' : s.pc <;> rw [hpc'] at hpc hpost
      case inner n => exact hpost
      case flush n => exact hpost
      all_goals exact hpc.elim
    omega
  | max n hpc =>
    rw [hpc] at hpost
    exact hpost.elim
  | stamped n now hpc =>
    rw [hpc] at hpost
    exact hpost.elim
  | committed n accepted hpc =>
    rw [hpc] at hpost
    exact hpost.elim
  | completed chunk rest hpc hout' =>
    rw [hpc] at hpost
    exact hpost.elim

/-- Chunks stay posted over a run. -/
theorem posted_mono_run (inv : Inv s) {as : List (Action T)} (hr : run step s as = some s') :
    s.posted.length ≤ s'.posted.length := by
  induction as generalizing s with
  | nil =>
    cases hr
    exact le_rfl
  | cons a as ih =>
    obtain ⟨m, hm, hrest⟩ := run_cons_eq_some.mp hr
    exact (posted_mono inv hm).trans (ih (inv_step inv hm) hrest)

/-- A call that was armed has posted when it ends. -/
theorem armed_run (st : Steady s) (armed : Armed s) {call : List (Action T)}
    (hs : ∀ a ∈ call, Succeeds a) (hok : StepsMeet step FitsBuffer s call)
    (hr : run step s call = some s') (hidle : s'.pc = .idle) :
    s.posted.length < s'.posted.length := by
  induction call generalizing s with
  | nil =>
    cases hr
    have hpost := armed.to_post
    rw [hidle] at hpost
    exact hpost.elim
  | cons a call ih =>
    obtain ⟨m, hm, hrest⟩ := run_cons_eq_some.mp hr
    have st' := steady_step st hok.1 hm
    rcases armed_step st armed (hs a List.mem_cons_self) hm with hlt | ⟨heq, armed'⟩
    · exact hlt.trans_le (posted_mono_run st'.inv hrest)
    · rw [← heq]
      exact ih st' armed' (fun b hb => hs b (List.mem_cons_of_mem a hb)) (hok.2 m hm) hrest

/-- A pending session posts in its next call. -/
theorem calls_post (st : Steady s) (pending : Pending s) : CallsPost FitsBuffer s := by
  intro currentTime call s' hpass hs hok hr hidle
  obtain ⟨m, hm, hrest⟩ := run_cons_eq_some.mp hr
  have st' := steady_step st hok.1 hm
  have hok' := hok.2 m hm
  cases step_moves hm with
  | skipped currentTime hpc hskip =>
    rcases hskip with h | h | h
    · rw [pending.connected] at h
      cases h
    · rw [pending.allocated] at h
      cases h
    · exact (hpass h).elim
  | entered currentTime hpc =>
    have armed : Armed { s with pc := .dequeue 0 } :=
      ⟨pending.connected, pending.outstanding_eq, rfl, pending.transmittable⟩
    have hlt : ({ s with pc := .dequeue 0 } : Session T).posted.length < s'.posted.length :=
      armed_run st' armed hs hok' hrest hidle
    exact hlt

end Progress

section Completion

variable {s s' : Session T}

/-- Bound on the steps left in a call for the queue length. -/
def rank (queueLength : ℕ) : Pc → ℕ
  | .idle => 0
  | .commit _ => 1
  | .stamp _ => 2
  | .flush _ => 3
  | .dequeue _ => 5 * queueLength + 4
  | .testMax _ => 5 * queueLength + 5
  | .inner _ => 5 * queueLength + 6
  | .testLimit _ => 5 * queueLength + 7

/-- What every step of a call on its own makes smaller: the position and the
queue first, then the bytes not posted. -/
def remaining (s : Session T) : ℕ := rank s.sendBufQueue.length s.pc * 65537 + (unsent s).toNat

omit [DecidableEq T] in
/-- Going on to a later position makes less remain. -/
theorem remaining_lt (inv : Inv s')
    (h : rank s'.sendBufQueue.length s'.pc < rank s.sendBufQueue.length s.pc) :
    remaining s' < remaining s := by
  have hb := unsent_bounds inv
  have hcap : bufferSize = 65536 := rfl
  rw [remaining, remaining]
  omega

/-- Outside its loops a call goes to the flush or to its end. -/
theorem rank_afterLoop (queueLength : ℕ) (n : ℤ) : rank queueLength (Session.afterLoop n) ≤ 3 := by
  unfold Session.afterLoop
  split <;> simp [rank]

omit [DecidableEq T] in
/-- The steps of a call succeed. -/
theorem OfCall.succeeds {a : Action T} (h : OfCall a) : Succeeds a := by
  cases a <;> first | exact h | exact h.elim

omit [DecidableEq T] in
/-- The steps of a call queue no packet. -/
theorem OfCall.fed {a : Action T} (h : OfCall a) (s : Session T) : Fed s a := by
  cases a <;> first | exact h.elim | trivial

omit [DecidableEq T] in
/-- Moving only the position makes less remain when the new one is later. -/
theorem remaining_pc_lt (inv : Inv s) {pc : Pc}
    (h : rank s.sendBufQueue.length pc < rank s.sendBufQueue.length s.pc) :
    remaining { s with pc := pc } < remaining s := remaining_lt (inv_pc inv pc) h

omit [DecidableEq T] in
/-- A registered send leaves fewer bytes not posted. -/
theorem unsent_registered (inv : Inv s) (hsize : 0 < s.sendBuffer.getSendDataSize)
    {outcome : Outcome} (hr : s.registerSend s.sendBuffer.getChunkSendSize
      s.sendBuffer.getSendOffset outcome = (true, s')) : unsent s' < unsent s := by
  obtain ⟨-, -, hw, hp⟩ := registered_frame inv hsize hr
  have hat := chunkAt_next inv hsize
  have hpos := hat.length_pos
  have hlen := hat.length_eq
  rw [if_pos rfl] at hp
  rw [unsent, unsent, hp, hw, chunkBytes_append, List.length_append, chunkBytes_cons,
    chunkBytes_nil, List.append_nil]
  omega

omit [DecidableEq T] in
/-- A registered send makes less remain as long as the position does not go
back. -/
theorem remaining_registered_lt (inv : Inv s) (hsize : 0 < s.sendBuffer.getSendDataSize)
    {outcome : Outcome} (hr : s.registerSend s.sendBuffer.getChunkSendSize
      s.sendBuffer.getSendOffset outcome = (true, s')) {pc : Pc}
    (h : rank s.sendBufQueue.length pc ≤ rank s.sendBufQueue.length s.pc) :
    remaining { s' with pc := pc } < remaining s := by
  have hlt := unsent_registered inv hsize hr
  have hb := unsent_bounds (inv_registerSend inv hsize hr)
  have hq := (registered_frame inv hsize hr).1
  have hu : unsent { s' with pc := pc } = unsent s' := rfl
  rw [remaining, remaining, hu]
  dsimp only
  rw [hq]
  omega

omit [DecidableEq T] in
/-- `RegisterSend` of a session that is no longer connected does nothing. -/
theorem registerSend_disconnected (hc : s.connected = false) (dataLength dataOffset : ℤ)
    (outcome : Outcome) : s.registerSend dataLength dataOffset outcome = (false, s) := by
  unfold Session.registerSend
  rw [if_pos hc]

/-- A pass of the loop inside the outer loop is enabled and makes less remain. -/
theorem inner_remaining (inv : Inv s) {n : ℤ} (hpc : s.pc = .inner n) :
    ∃ s', step s (.post .ok) = some s' ∧ remaining s' < remaining s := by
  have hlater : rank s.sendBufQueue.length (.testMax n) < rank s.sendBufQueue.length s.pc := by
    rw [hpc]
    simp [rank]
  by_cases hsize : 0 < s.sendBuffer.getSendDataSize
  · by_cases hc : s.connected = true
    · obtain ⟨s₁, hr, -⟩ := registerSend_ok inv hsize hc
      refine ⟨{ s₁ with pc := .inner (n + 1) }, ?_, remaining_registered_lt inv hsize hr ?_⟩
      · simp only [step, hpc, hr, gt_iff_lt, if_pos hsize]
      · rw [hpc]
        exact le_rfl
    · have hr := registerSend_disconnected (by simpa using hc) s.sendBuffer.getChunkSendSize
        s.sendBuffer.getSendOffset .ok
      refine ⟨{ s with pc := .testMax n }, ?_, remaining_pc_lt inv hlater⟩
      simp only [step, hpc, hr, gt_iff_lt, if_pos hsize]
  · refine ⟨{ s with pc := .testMax n }, ?_, remaining_pc_lt inv hlater⟩
    simp only [step, hpc, gt_iff_lt, if_neg hsize]

/-- A pass of the loop that posts the rest is enabled and makes less remain. -/
theorem flush_remaining (inv : Inv s) {n : ℤ} (hpc : s.pc = .flush n) :
    ∃ s', step s (.post .ok) = some s' ∧ remaining s' < remaining s := by
  have hlater : rank s.sendBufQueue.length (.stamp n) < rank s.sendBufQueue.length s.pc := by
    rw [hpc]
    simp [rank]
  by_cases hsize : 0 < s.sendBuffer.getSendDataSize
  · by_cases hc : s.connected = true
    · obtain ⟨s₁, hr, -⟩ := registerSend_ok inv hsize hc
      refine ⟨{ s₁ with
        pc := if n + 1 ≥ maxPostCnt then .stamp (n + 1) else .flush (n + 1) }, ?_,
        remaining_registered_lt inv hsize hr ?_⟩
      · simp only [step, hpc, hr, gt_iff_lt, if_pos hsize]
      · rw [hpc]
        split <;> simp [rank]
    · have hr := registerSend_disconnected (by simpa using hc) s.sendBuffer.getChunkSendSize
        s.sendBuffer.getSendOffset .ok
      refine ⟨{ s with pc := .stamp n }, ?_, remaining_pc_lt inv hlater⟩
      simp only [step, hpc, hr, gt_iff_lt, if_pos hsize]
  · refine ⟨{ s with pc := .stamp n }, ?_, remaining_pc_lt inv hlater⟩
    simp only [step, hpc, gt_iff_lt, if_neg hsize]

/-- Inside a call a step of the call is enabled and makes less remain. -/
theorem call_step (inv : Inv s) (hpc : s.pc ≠ .idle) :
    ∃ (a : Action T) (s' : Session T), OfCall a ∧ step s a = some s' ∧
      remaining s' < remaining s := by
  cases hp : s.pc with
  | idle => exact (hpc hp).elim
  | dequeue n =>
    cases hq : s.sendBufQueue with
    | nil =>
      have hs : step s .dequeue = some { s with pc := Session.afterLoop n } := by
        simp only [step, hp, hq]
      refine ⟨.dequeue, _, trivial, hs, remaining_pc_lt inv ?_⟩
      have := rank_afterLoop s.sendBufQueue.length n
      rw [hp, rank]
      omega
    | cons packet rest =>
      by_cases hfree : (packet.length : ℤ) ≤ s.sendBuffer.getFreeSize
      · obtain ⟨ring, hw⟩ := writeBuffer_accepts inv hfree
        have hs : step s .dequeue = some { s with
            sendBuffer := { s.sendBuffer with toRingBuffer := ring }
            sendBufQueue := rest
            written := s.written ++ packet
            pc := .testLimit n } := by simp only [step, hp, hq, hw]
        refine ⟨.dequeue, _, trivial, hs, remaining_lt (inv_step inv hs) ?_⟩
        rw [hp, hq]
        simp only [rank, List.length_cons]
        omega
      · have hw := RingBuffer.writeBuffer_refused (not_le.mp hfree)
        have hs : step s .dequeue = some { s with pc := Session.afterLoop n } := by
          simp only [step, hp, hq, hw]
        refine ⟨.dequeue, _, trivial, hs, remaining_pc_lt inv ?_⟩
        have := rank_afterLoop s.sendBufQueue.length n
        rw [hp, rank]
        omega
  | testLimit n =>
    refine ⟨.testLimit, { s with
      pc := if s.sendBuffer.getSendDataSize < sendLimit then .dequeue n else .inner n }, trivial,
      by simp only [step, hp], remaining_pc_lt inv ?_⟩
    rw [hp]
    split <;> simp [rank]
  | inner n =>
    obtain ⟨s', hs, hlt⟩ := inner_remaining inv hp
    exact ⟨.post .ok, s', rfl, hs, hlt⟩
  | testMax n =>
    refine ⟨.testMax, { s with
      pc := if n ≥ maxPostCnt then Session.afterLoop n else .dequeue n }, trivial,
      by simp only [step, hp], remaining_pc_lt inv ?_⟩
    have hafter := rank_afterLoop s.sendBufQueue.length n
    have hmax : rank s.sendBufQueue.length (.testMax n) = 5 * s.sendBufQueue.length + 5 := rfl
    rw [hp]
    split
    · omega
    · simp [rank]
  | flush n =>
    obtain ⟨s', hs, hlt⟩ := flush_remaining inv hp
    exact ⟨.post .ok, s', rfl, hs, hlt⟩
  | stamp n =>
    have hs : step s (.stamp 1) = some { s with lastSendTime := 1, pc := .commit n } := by
      simp only [step, hp]
    refine ⟨.stamp 1, _, trivial, hs, remaining_lt (inv_step inv hs) ?_⟩
    simp [hp, rank]
  | commit n =>
    have hs : step s (.commit true) = some { s.commitPosted n true with pc := .idle } := by
      simp only [step, hp]
    refine ⟨.commit true, _, trivial, hs, remaining_lt (inv_step inv hs) ?_⟩
    simp [hp, rank]

/-- A call left to itself ends. -/
theorem call_completes (inv : Inv s) : ∃ (call : List (Action T)) (s' : Session T),
    (∀ a ∈ call, OfCall a) ∧ run step s call = some s' ∧ s'.pc = .idle := by
  induction hn : remaining s using Nat.strong_induction_on generalizing s with
  | _ n ih =>
    by_cases hpc : s.pc = .idle
    · exact ⟨[], s, fun a ha => (List.not_mem_nil ha).elim, rfl, hpc⟩
    · obtain ⟨a, m, ha, hm, hlt⟩ := call_step inv hpc
      obtain ⟨call, s', hcall, hr, hidle⟩ := ih _ (hn ▸ hlt) (inv_step inv hm) rfl
      refine ⟨a :: call, s', ?_, run_cons_eq_some.mpr ⟨m, hm, hr⟩, hidle⟩
      intro b hb
      rcases List.mem_cons.mp hb with rfl | hb
      · exact ha
      · exact hcall b hb

end Completion

/-- While no packet is longer than the buffer and no write leaves the buffer
full of bytes not posted, the send path never wedges. -/
theorem sendPath_never_wedges (memory : ℤ → UInt8) :
    NeverWedges (FitsBuffer : Session T → Action T → Prop) memory := by
  have hsteady : ∀ s, ReachableVia step FitsBuffer (init memory : Session T) s → Steady s :=
    fun s h => h.invariant (steady_init memory) fun _ _ _ st hok hs => steady_step st hok hs
  constructor
  · intro s h
    rw [getSendDataSize_eq (hsteady s h).inv, if_neg (hsteady s h).unsent_ne]
  · intro s h hempty packet rest hq
    have st := hsteady s h
    have hle := (st.queued packet (by rw [hq]; exact List.mem_cons_self)).2
    have hcap := st.inv.capacity_eq
    apply writeBuffer_accepts st.inv
    rw [RingBuffer.getFreeSize]
    omega
  · exact fun s h pending => calls_post (hsteady s h) pending
  · exact fun s h => call_completes (hsteady s h).inv

/-- What can be decided of the condition. -/
def fitsNow (s : Session T) : Action T → Bool
  | .sendCheck _ packet => packet.length ≤ bufferSize
  | .dequeue => s.sendBufQueue.head?.all fun packet =>
      s.sendBuffer.getFreeSize < packet.length || unsent s + packet.length ≠ bufferSize
  | _ => true

omit [DecidableEq T] in
/-- It is enough for packets that are built by `_CreateNetBuffer`. -/
theorem fitsBuffer_of_fitsNow {s : Session T} {a : Action T} (hfed : Fed s a)
    (h : fitsNow s a = true) : FitsBuffer s a := by
  refine ⟨hfed, ?_⟩
  cases a with
  | sendCheck t packet => exact of_decide_eq_true h
  | dequeue =>
    intro packet rest hq hle
    simp only [fitsNow, hq, List.head?_cons, Option.all_some, Bool.or_eq_true, decide_eq_true_eq]
      at h
    exact h.resolve_left (not_lt.mpr hle)
  | _ => trivial

/-- Two packets are queued on a fresh session. -/
def twoQueued : List (Action Unit) :=
  [.initSession, .sendCheck () (createNetBuffer [1, 2] 7), .sendPush (),
    .sendCheck () (createNetBuffer [] 8), .sendPush ()]

/-- A call writes both and posts them. -/
def postingCall : List (Action Unit) :=
  [.dequeue, .testLimit, .dequeue, .testLimit, .dequeue, .post .ok, .post .ok, .stamp 30,
    .commit true]

/-- Such a session is pending and its next call posts. -/
theorem sendPath_never_wedges_twoQueued : ∃ s s' : Session Unit,
    run step (init fun _ => 0) twoQueued = some s ∧ Pending s ∧
    run step s (.sendDeferred 0 :: postingCall) = some s' ∧
    s.posted.length < s'.posted.length := by
  have h : ((run step (init fun _ => 0) twoQueued).any fun s =>
      s.pc = .idle ∧ s.connected = true ∧ s.allocated = true ∧ s.outstanding = [] ∧
      s.sendBufQueue ≠ [] ∧ s.lastSendTime = 0 ∧
      StepsMeet step (fun s a => fitsNow s a = true) s (.sendDeferred 0 :: postingCall) ∧
      (run step s (.sendDeferred 0 :: postingCall)).any fun s' => s'.pc = .idle) = true := by
    decide +kernel
  obtain ⟨s, hr, hview⟩ := (Option.any_eq_true _ _).mp h
  obtain ⟨hpc, hc, ha, hout, hq, htime, hfits, hcall⟩ := of_decide_eq_true hview
  obtain ⟨s', hr', hidle⟩ := (Option.any_eq_true _ _).mp hcall
  have hqueued : StepsMeet step (fun s a => fitsNow s a = true) (init fun _ => 0) twoQueued := by
    decide +kernel
  have hfed : ∀ a ∈ twoQueued, ∀ s : Session Unit, Fed s a := by
    simp [twoQueued, Fed]
  have hfed' : ∀ a ∈ .sendDeferred 0 :: postingCall, ∀ s : Session Unit, Fed s a := by
    simp [postingCall, Fed]
  have pending : Pending s := ⟨hpc, hc, ha, hout, .inl hq⟩
  refine ⟨s, s', hr, pending, hr', (sendPath_never_wedges fun _ => 0).calls_post s ⟨twoQueued, hr,
    ?_⟩ pending 0 postingCall s' ?_ (by simp [postingCall, Succeeds]) ?_ hr'
    (of_decide_eq_true hidle)⟩
  · exact ((stepsMeet_of_forall hfed).and hqueued).mono fun _ _ h => fitsBuffer_of_fitsNow h.1 h.2
  · simp [Passes, htime]
  · exact ((stepsMeet_of_forall hfed').and hfits).mono fun _ _ h => fitsBuffer_of_fitsNow h.1 h.2

/-- A buffer full of bytes not posted, and no empty packets. -/
structure Full (s : Session T) : Prop where
  /-- The invariant of the send path. -/
  inv : Inv s
  /-- Every cell holds a byte not posted. -/
  unsent_eq : unsent s = bufferSize
  /-- The packets queued are not empty. -/
  queued : ∀ packet ∈ s.sendBufQueue, 0 < packet.length
  /-- Nor are those about to be queued. -/
  held : ∀ t packet, s.senders t = some packet → 0 < packet.length

section Wedge

variable {s s' : Session T}

omit [DecidableEq T] in
/-- A full buffer reports nothing to send. -/
theorem Full.getSendDataSize_eq_zero (full : Full s) : s.sendBuffer.getSendDataSize = 0 := by
  rw [getSendDataSize_eq full.inv, if_pos full.unsent_eq]

omit [DecidableEq T] in
/-- Fullness does not mention the flags and the position. -/
theorem Full.frame (full : Full s) (inv : Inv s') (hqueue : s'.sendBufQueue = s.sendBufQueue)
    (hsenders : s'.senders = s.senders) (hunsent : unsent s' = unsent s) : Full s' := by
  refine ⟨inv, hunsent.trans full.unsent_eq, ?_, ?_⟩
  · rw [hqueue]
    exact full.queued
  · rw [hsenders]
    exact full.held

/-- A full buffer stays full and nothing is posted. -/
theorem full_step (full : Full s) {a : Action T} (hfed : Fed s a) (h : step s a = some s') :
    Full s' ∧ s'.posted = s.posted := by
  have hzero := full.getSendDataSize_eq_zero
  obtain ⟨hqueued, hheld⟩ := packets_step ⟨full.queued, full.held⟩ full.inv
    (fun t packet ha => by
      subst ha
      obtain ⟨payload, pktId, rfl⟩ := hfed
      rw [createNetBuffer_length]
      omega) h
  have hkept : s'.posted = s.posted → s'.written = s.written →
      Full s' ∧ s'.posted = s.posted := fun hp hw =>
    ⟨⟨inv_step full.inv h, (unsent_congr hp hw).trans full.unsent_eq, hqueued, hheld⟩, hp⟩
  cases step_moves h with
  | wrote n packet rest ring hpc hq hw =>
    -- there is no room for a packet that is not empty
    have hlen := full.queued packet (by rw [hq]; exact List.mem_cons_self)
    have hle := le_free_of_accepted hw
    have hb := unsent_bounds full.inv
    have hcap := full.inv.capacity_eq
    have hfull := full.unsent_eq
    rw [RingBuffer.getFreeSize] at hle
    omega
  | posted outcome s₁ pc hpc hsize hr => omega
  | notPosted outcome s₁ pc hpc hsize hr => omega
  | committed n accepted hpc =>
    obtain ⟨-, -, hw, hp⟩ := commitPosted_frame s n accepted
    exact hkept hp hw
  | completed chunk rest hpc hout =>
    exact hkept (posted_complete hout) (processSend_frame _ _).2.2.1
  | _ => exact hkept rfl rfl

/-- Once the buffer is full of bytes not posted, the session never posts again. -/
theorem full_never_posts (full : Full s) {as : List (Action T)} (hfed : StepsMeet step Fed s as)
    (hr : run step s as = some s') : Full s' ∧ s'.posted = s.posted := by
  induction as generalizing s with
  | nil =>
    cases hr
    exact ⟨full, rfl⟩
  | cons a as ih =>
    obtain ⟨m, hm, hrest⟩ := run_cons_eq_some.mp hr
    obtain ⟨full', hp⟩ := full_step full hfed.1 hm
    obtain ⟨full'', hp'⟩ := ih full' (hfed.2 m hm) hrest
    exact ⟨full'', hp'.trans hp⟩

end Wedge

section Overlong

variable {s s' : Session T}

/-- A packet longer than the buffer is at the head of the queue, behind the bytes written. -/
structure Blocked (packet : List UInt8) (written : List UInt8) (s : Session T) : Prop where
  /-- The invariant of the send path. -/
  inv : Inv s
  /-- The packet is longer than the buffer. -/
  overlong : bufferSize < packet.length
  /-- It is at the head. -/
  head : ∃ rest, s.sendBufQueue = packet :: rest
  /-- The bytes written are those before it. -/
  written_eq : s.written = written

/-- It stays there, and nothing is written. -/
theorem blocked_step {packet written : List UInt8} (blocked : Blocked packet written s)
    {a : Action T} (h : step s a = some s') : Blocked packet written s' := by
  obtain ⟨rest, hq⟩ := blocked.head
  have hkept : s'.sendBufQueue = s.sendBufQueue → s'.written = s.written →
      Blocked packet written s' := fun hqueue hw =>
    ⟨inv_step blocked.inv h, blocked.overlong, ⟨rest, hqueue.trans hq⟩,
      hw.trans blocked.written_eq⟩
  cases step_moves h with
  | pushed t packet' ht =>
    refine ⟨inv_step blocked.inv h, blocked.overlong, ⟨rest ++ [packet'], ?_⟩, blocked.written_eq⟩
    show s.sendBufQueue ++ [packet'] = _
    rw [hq, List.cons_append]
  | wrote n packet' rest' ring hpc hq' hw =>
    obtain ⟨rfl, rfl⟩ := List.cons.inj (hq.symm.trans hq')
    have hle := le_free_of_accepted hw
    have hb := unsent_bounds blocked.inv
    have hcap := blocked.inv.capacity_eq
    have hlong := blocked.overlong
    rw [RingBuffer.getFreeSize] at hle
    omega
  | posted outcome s₁ pc hpc hsize hr | notPosted outcome s₁ pc hpc hsize hr =>
    obtain ⟨hqueue, -, hw, -⟩ := registered_frame blocked.inv hsize hr
    exact hkept hqueue hw
  | committed n accepted hpc =>
    obtain ⟨hqueue, -, hw, -⟩ := commitPosted_frame s n accepted
    exact hkept hqueue hw
  | completed chunk rest' hpc hout =>
    obtain ⟨hqueue, -, hw, -⟩ := processSend_frame ({ s with
      outstanding := rest'
      completed := s.completed ++ [chunk] } : Session T) chunk.length
    exact hkept hqueue hw
  | _ => exact hkept rfl rfl

/-- A packet longer than the buffer blocks the queue for good. -/
theorem overlong_blocks {packet written : List UInt8} (blocked : Blocked packet written s)
    {as : List (Action T)} (hr : run step s as = some s') : Blocked packet written s' :=
  run_preserves (fun _ _ _ blocked (_ : True) hs => blocked_step blocked hs) blocked stepsMeet_true
    hr

end Overlong

/-- A packet of 100 bytes. -/
def smallPacket : List UInt8 := createNetBuffer (List.replicate 96 0) 1

/-- A packet that takes the room the small one leaves. -/
def fillingPacket : List UInt8 := createNetBuffer (List.replicate 65432 0) 1

/-- Two packets are queued and a call of `SendDeferred` writes the first. -/
def firstWrite (packet next : List UInt8) : List (Action Unit) :=
  [.initSession, .sendCheck () packet, .sendPush (), .sendCheck () next, .sendPush (),
    .sendDeferred 0, .dequeue]

/-- The call goes on to the second packet. -/
def secondWrite : List (Action Unit) := [.testLimit, .dequeue]

/-- The rest of the call. -/
def callRest : List (Action Unit) := [.testLimit, .dequeue, .post .ok, .stamp 1, .commit true]

/-- The small packet is below `SEND_LIMIT`. -/
theorem smallPacket_length : smallPacket.length = 100 := by
  rw [smallPacket, createNetBuffer_length, List.length_replicate]

/-- Both packets together fill the send buffer. -/
theorem fillingPacket_length : fillingPacket.length = 65436 := by
  rw [fillingPacket, createNetBuffer_length, List.length_replicate]

/-- The first packet of a session is written when it fits the buffer. -/
theorem firstWrite_run {packet : List UInt8} {ring : RingBuffer UInt8} (next : List UInt8)
    (hw : (RioBuffer.new (fun _ => 0) bufferSize).writeBuffer packet = some (true, ring)) :
    ∃ s, run step (init fun _ => 0) (firstWrite packet next) = some s ∧
      s.connected = true ∧ s.allocated = true ∧ s.sendBufQueue = [next] ∧ s.senders () = none ∧
      s.pc = .testLimit 0 ∧ s.posted = [] ∧ s.written = packet := by
  simp [firstWrite, run_cons, step, init, hw, Session.posted]

/-- While less than `SEND_LIMIT` is to be sent, a second packet that fits is
written before anything is posted. -/
theorem secondWrite_run {s : Session Unit} {packet : List UInt8} {ring : RingBuffer UInt8}
    (hpc : s.pc = .testLimit 0) (hq : s.sendBufQueue = [packet])
    (hlimit : s.sendBuffer.getSendDataSize < sendLimit)
    (hw : s.sendBuffer.writeBuffer packet = some (true, ring)) :
    run step s secondWrite = some { s with
      sendBuffer := { s.sendBuffer with toRingBuffer := ring }
      sendBufQueue := []
      written := s.written ++ packet
      pc := .testLimit 0 } := by
  simp [secondWrite, run_cons, step, hpc, hq, hlimit, hw]

/-- The buffer is full after both packets were written. -/
theorem fillingWrite_full : ∃ s,
    run step (init fun _ => 0) (firstWrite smallPacket fillingPacket ++ secondWrite) = some s ∧
    Full s ∧ s.pc = .testLimit 0 ∧ s.sendBufQueue = [] ∧ s.connected = true ∧
    s.allocated = true ∧ s.outstanding = [] := by
  have hsmall : (smallPacket.length : ℤ) ≤
      (RioBuffer.new (fun _ => 0) bufferSize : RioBuffer UInt8).getFreeSize := by
    rw [smallPacket_length]
    decide
  obtain ⟨ring, hw, -, -⟩ := (new_cursors (fun _ => 0) (by decide)).write hsmall
  obtain ⟨m, hm, hc, ha, hq, hs, hpc, hp, hwr⟩ := firstWrite_run fillingPacket hw
  have inv : Inv m := inv_reachable ⟨_, hm⟩
  have hout : m.outstanding = [] := (List.append_eq_nil_iff.mp hp).2
  have hunsent : unsent m = 100 := by
    rw [unsent, hp, hwr, smallPacket_length, chunkBytes_nil]
    rfl
  have hlimit : m.sendBuffer.getSendDataSize < sendLimit := by
    rw [getSendDataSize_eq inv, hunsent]
    decide
  have hfree : (fillingPacket.length : ℤ) ≤ m.sendBuffer.getFreeSize := by
    rw [RingBuffer.getFreeSize, inv.capacity_eq, size_eq_unsent inv hout, hunsent,
      fillingPacket_length]
    decide
  obtain ⟨ring', hw'⟩ := writeBuffer_accepts inv hfree
  have hr := run_append_eq_some.mpr ⟨m, hm, secondWrite_run hpc hq hlimit hw'⟩
  refine ⟨_, hr, ⟨inv_reachable ⟨_, hr⟩, ?_, ?_, ?_⟩, rfl, rfl, hc, ha, hout⟩
  · have hposted : ({ m with
        sendBuffer := { m.sendBuffer with toRingBuffer := ring' }
        sendBufQueue := []
        written := m.written ++ fillingPacket
        pc := .testLimit 0 } : Session Unit).posted = [] := hp
    rw [unsent, hposted, hwr, List.length_append, smallPacket_length, fillingPacket_length,
      chunkBytes_nil]
    rfl
  · exact fun _ hp => (List.not_mem_nil hp).elim
  · intro t packet ht
    cases hs.symm.trans ht

/-- A call in a full buffer ends without a post. -/
theorem callRest_run {s : Session Unit} (full : Full s) (hpc : s.pc = .testLimit 0)
    (hq : s.sendBufQueue = []) :
    run step s callRest = some { s with lastSendTime := 1, pc := .idle } := by
  have hzero := full.getSendDataSize_eq_zero
  simp [callRest, run_cons, step, hpc, hq, hzero, sendLimit, Session.afterLoop, maxPostCnt,
    Session.commitPosted]

/-- After two packets of `BUFFER_SIZE` bytes together were sent the session is
connected, nothing is outstanding and both are still to be transmitted, and a
call of `SendDeferred` whose sends succeed posts nothing. -/
theorem sendPath_wedges : ∃ s, ReachableVia step Fed (init fun _ => 0 : Session Unit) s ∧
    Pending s ∧ ¬ CallsPost Fed s := by
  obtain ⟨w, hr, full, hpc, hq, hc, ha, hout⟩ := fillingWrite_full
  have hrun : run step (init fun _ => 0)
      (firstWrite smallPacket fillingPacket ++ secondWrite ++ callRest) =
      some { w with lastSendTime := 1, pc := .idle } :=
    run_append_eq_some.mpr ⟨w, hr, callRest_run full hpc hq⟩
  have full' : Full { w with lastSendTime := 1, pc := .idle } :=
    full.frame (inv_reachable ⟨_, hrun⟩) rfl rfl rfl
  refine ⟨_, ⟨_, hrun, stepsMeet_of_forall ?_⟩,
    ⟨rfl, hc, ha, hout, .inr (by rw [full'.unsent_eq]; decide)⟩, ?_⟩
  · simp only [firstWrite, secondWrite, callRest, List.cons_append, List.nil_append, List.mem_cons,
      List.not_mem_nil, or_false, forall_eq_or_imp, forall_eq]
    simp only [Fed, implies_true, and_true, true_and]
    exact ⟨fun _ => ⟨_, _, rfl⟩, fun _ => ⟨_, _, rfl⟩⟩
  · intro hcalls
    have hpass : Passes { w with lastSendTime := 1, pc := .idle } 30 := by
      simp [Passes, commitTime]
    have hentry : step { w with lastSendTime := 1, pc := .idle } (.sendDeferred 30) =
        some { w with lastSendTime := 1, pc := .dequeue 0 } := by
      simp [step, hc, ha, commitTime]
    obtain ⟨call, s', hcall, hcallrun, hidle⟩ := call_completes (inv_step full'.inv hentry)
    have hwhole := run_cons_eq_some.mpr ⟨_, hentry, hcallrun⟩
    have hfed : ∀ a ∈ .sendDeferred 30 :: call, ∀ s : Session Unit, Fed s a := by
      intro a ha' s
      rcases List.mem_cons.mp ha' with rfl | hmem
      · trivial
      · exact (hcall a hmem).fed s
    have hlt := hcalls 30 call s' hpass (fun a hmem => (hcall a hmem).succeeds)
      (stepsMeet_of_forall hfed) hwhole hidle
    rw [(full_never_posts full' (stepsMeet_of_forall hfed) hwhole).2] at hlt
    exact lt_irrefl _ hlt

end RioIocpServer.RioSend
