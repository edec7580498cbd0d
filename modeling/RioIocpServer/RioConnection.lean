import RioIocpServer.Connection
import RioIocpServer.RioSend

/-!
# Connections with a sending RIO session

A send posted by a RIO session names a part of the registered buffer and no
bytes; the transport reads the buffer itself, one byte at a time and at any
moment until the send completes, while other threads go on queueing packets and
the core thread goes on writing to the buffer. The bytes on the wire are those
of the packets only because no cell of a posted send is written to before the
send is completed.
-/

namespace RioIocpServer.RioConnection

open TransitionSystem CyclicMemory RioBuffer RioSend FifoChannel Relation

variable {T : Type*} [DecidableEq T]

/-- A RIO session and the transport that reads its registered buffer. -/
structure Sender (T : Type*) where
  /-- The send side of the session. -/
  session : Session T
  /-- Bytes taken from the sends not completed. -/
  taken : ℕ
  /-- History: the bytes taken. -/
  emitted : List UInt8

/-- The steps of the session and of the transport. -/
inductive Action (T : Type*) where
  /-- A step of the session, of its users or of the service. -/
  | session (a : RioSend.Action T)
  /-- The transport takes the next byte. -/
  | transmit

/-- The value in the buffer behind the first `n` values of the chunks. -/
def nextByte (buffer : ℤ → UInt8) : List (Chunk UInt8) → ℕ → Option UInt8
  | [], _ => none
  | c :: cs, n =>
    if (n : ℤ) < c.length then some (buffer (c.offset + n))
    else nextByte buffer cs (n - c.length.toNat)

/-- One step. A send completes when all its bytes have been taken. -/
def step (s : Sender T) : Action T → Option (Sender T)
  | .session .complete =>
    match s.session.outstanding with
    | [] => none
    | chunk :: _ =>
      if chunk.length ≤ s.taken then
        (RioSend.step s.session .complete).map fun session =>
          { s with session := session, taken := s.taken - chunk.length.toNat }
      else none
  | .session a => (RioSend.step s.session a).map fun session => { s with session := session }
  | .transmit =>
    (nextByte s.session.sendBuffer.buffer s.session.outstanding s.taken).map fun byte =>
      { s with taken := s.taken + 1, emitted := s.emitted ++ [byte] }

/-- The packets are those queued. -/
def source : Connection.Source (Sender T) (Action T) where
  step := step
  packets s := s.session.pushed
  emitted s := s.emitted

/-- A session about to be used. -/
def init (memory : ℤ → UInt8) : Sender T := ⟨RioSend.init memory, 0, []⟩

/-- Whoever calls `Send` hands over a frame. -/
def SendsFrames (_ : Sender T) : Action T → Prop
  | .session (.sendCheck _ packet) => Connection.IsFrame packet
  | _ => True

instance decidableSendsFrames (s : Sender T) : ∀ a, Decidable (SendsFrames s a)
  | .session (.sendCheck _ packet) => inferInstanceAs (Decidable (Connection.IsFrame packet))
  | .session (.sendPush _) | .session .initSession | .session .disconnect
  | .session (.sendDeferred _) | .session .dequeue | .session .testLimit | .session (.post _)
  | .session .testMax | .session (.stamp _) | .session (.commit _) | .session .complete
  | .transmit => isTrue trivial

/-- The invariant of the session and its transport. -/
structure Inv (s : Sender T) : Prop where
  /-- The invariant of the send path. -/
  session : RioSend.Inv s.session
  /-- Only posted bytes are taken. -/
  taken_le : s.taken ≤ (chunkBytes s.session.outstanding).length
  /-- The bytes taken are those the chunks were posted with. -/
  emitted_eq : s.emitted =
    chunkBytes s.session.completed ++ (chunkBytes s.session.outstanding).take s.taken
  /-- The packets queued are frames. -/
  pushed_framed : ∀ packet ∈ s.session.pushed, Connection.IsFrame packet
  /-- So are those about to be queued. -/
  senders_framed : ∀ t packet, s.session.senders t = some packet → Connection.IsFrame packet

omit [DecidableEq T] in
/-- Nothing is queued, posted or taken at first. -/
theorem inv_init (memory : ℤ → UInt8) : Inv (init memory : Sender T) where
  session := RioSend.inv_init memory
  taken_le := le_rfl
  emitted_eq := rfl
  pushed_framed _ h := (List.not_mem_nil h).elim
  senders_framed _ _ h := by cases h

/-- Chunks that still hold their bytes are read byte by byte. -/
theorem nextByte_eq {buffer : ℤ → UInt8} {chunks : List (Chunk UInt8)} {n : ℕ} {byte : UInt8}
    (hlen : ∀ c ∈ chunks, c.length = c.bytes.length)
    (hkept : ∀ c ∈ chunks, load buffer c.offset c.length.toNat = c.bytes)
    (h : nextByte buffer chunks n = some byte) : (chunkBytes chunks)[n]? = some byte := by
  induction chunks generalizing n with
  | nil => cases h
  | cons c cs ih =>
    have hc := hlen c List.mem_cons_self
    rw [nextByte] at h
    rw [chunkBytes_cons]
    split at h
    · have hn : n < c.bytes.length := by omega
      have hload := hkept c List.mem_cons_self
      rw [List.getElem?_append_left hn, ← hload, List.getElem?_eq_getElem (by
        rw [load_length]
        omega), getElem_load]
      exact h
    · rw [List.getElem?_append_right (by omega)]
      have hrest := ih (fun d hd => hlen d (List.mem_cons_of_mem c hd))
        (fun d hd => hkept d (List.mem_cons_of_mem c hd)) h
      rwa [hc, Int.toNat_natCast] at hrest

section Invariant

variable {s s' : Sender T}

/-- What a step of the session does to the histories and the threads. -/
structure Effect (s s' : Session T) (a : RioSend.Action T) : Prop where
  /-- Only a completion takes a chunk away, and it takes the oldest one. -/
  completed : a ≠ .complete → s'.completed = s.completed ∧ s.outstanding <+: s'.outstanding
  /-- Packets are queued behind the others, by a thread that passed the test of `Send`. -/
  pushed : s'.pushed = s.pushed ∨
    ∃ t packet, s.senders t = some packet ∧ s'.pushed = s.pushed ++ [packet]
  /-- A thread is about to queue the packet it was about to queue or has just been given. -/
  senders : ∀ t packet, s'.senders t = some packet →
    s.senders t = some packet ∨ a = .sendCheck t packet

omit [DecidableEq T] in
/-- A step that only touches the flags, the counters, the buffer and the queue. -/
theorem Effect.frame {s s' : Session T} {a : RioSend.Action T}
    (hcompleted : s'.completed = s.completed) (hout : s'.outstanding = s.outstanding)
    (hpushed : s'.pushed = s.pushed) (hsenders : s'.senders = s.senders) : Effect s s' a where
  completed _ := ⟨hcompleted, by rw [hout]⟩
  pushed := .inl hpushed
  senders t packet h := .inl (by rwa [hsenders] at h)

omit [DecidableEq T] in
/-- `RegisterSend` posts one more chunk or none. -/
theorem registerSend_effect (s : Session T) (dataLength dataOffset : ℤ) (outcome : Outcome)
    (a : RioSend.Action T) (pc : Pc) :
    Effect s { (s.registerSend dataLength dataOffset outcome).2 with pc := pc } a := by
  unfold Session.registerSend
  split
  · exact .frame rfl rfl rfl rfl
  · cases outcome with
    | noBufs => exact .frame rfl rfl rfl rfl
    | failed => exact .frame rfl rfl rfl rfl
    | ok =>
      dsimp only
      split <;> exact ⟨fun _ => ⟨rfl, List.prefix_append _ _⟩, .inl rfl, fun _ _ h => .inl h⟩

omit [DecidableEq T] in
/-- `ProcessSend` does not touch the histories and the threads. -/
theorem processSend_effect (s : Session T) (bytesTransferred : ℤ) :
    (s.processSend bytesTransferred).outstanding = s.outstanding ∧
      (s.processSend bytesTransferred).completed = s.completed ∧
      (s.processSend bytesTransferred).pushed = s.pushed ∧
      (s.processSend bytesTransferred).senders = s.senders := by
  unfold Session.processSend
  split
  · exact ⟨rfl, rfl, rfl, rfl⟩
  · split <;> exact ⟨rfl, rfl, rfl, rfl⟩

/-- Every step of the session has this effect. -/
theorem step_effect {s s' : Session T} {a : RioSend.Action T} (h : RioSend.step s a = some s') :
    Effect s s' a := by
  cases step_moves h with
  | allocated => exact .frame rfl rfl rfl rfl
  | ignored t packet hc => exact .frame rfl rfl rfl rfl
  | checked t packet hc =>
    refine ⟨fun _ => ⟨rfl, List.prefix_rfl⟩, .inl rfl, fun u p hu => ?_⟩
    by_cases hut : u = t
    · subst hut
      have hp := (Function.update_self u (some packet) s.senders).symm.trans hu
      exact .inr (by rw [Option.some.inj hp])
    · exact .inl ((Function.update_of_ne hut _ _).symm.trans hu)
  | pushed t packet ht =>
    refine ⟨fun _ => ⟨rfl, List.prefix_rfl⟩, .inr ⟨t, packet, ht, rfl⟩, fun u p hu => .inl ?_⟩
    by_cases hut : u = t
    · subst hut
      cases (Function.update_self u none s.senders).symm.trans hu
    · exact (Function.update_of_ne hut _ _).symm.trans hu
  | disconnected => exact .frame rfl rfl rfl rfl
  | skipped currentTime hpc hskip => exact .frame rfl rfl rfl rfl
  | entered currentTime hpc => exact .frame rfl rfl rfl rfl
  | emptied n hpc hq => exact .frame rfl rfl rfl rfl
  | full n packet rest ring hpc hq hw => exact .frame rfl rfl rfl rfl
  | wrote n packet rest ring hpc hq hw => exact .frame rfl rfl rfl rfl
  | limit n hpc => exact .frame rfl rfl rfl rfl
  | posted outcome s₁ pc hpc hsize hr =>
    have heffect := registerSend_effect s s.sendBuffer.getChunkSendSize
      s.sendBuffer.getSendOffset outcome (.post outcome) pc
    rwa [hr] at heffect
  | notPosted outcome s₁ pc hpc hsize hr =>
    have heffect := registerSend_effect s s.sendBuffer.getChunkSendSize
      s.sendBuffer.getSendOffset outcome (.post outcome) pc
    rwa [hr] at heffect
  | nothing outcome pc hpc hsize => exact .frame rfl rfl rfl rfl
  | max n hpc => exact .frame rfl rfl rfl rfl
  | stamped n now hpc => exact .frame rfl rfl rfl rfl
  | committed n accepted hpc =>
    have hcommit : ∀ m : Session T, (m.sendCommit accepted).completed = m.completed ∧
        (m.sendCommit accepted).outstanding = m.outstanding ∧
        (m.sendCommit accepted).pushed = m.pushed ∧
        (m.sendCommit accepted).senders = m.senders := by
      intro m
      unfold Session.sendCommit
      split
      · exact ⟨rfl, rfl, rfl, rfl⟩
      · cases accepted <;> exact ⟨rfl, rfl, rfl, rfl⟩
    unfold Session.commitPosted
    split
    · exact .frame (hcommit s).1 (hcommit s).2.1 (hcommit s).2.2.1 (hcommit s).2.2.2
    · exact .frame rfl rfl rfl rfl
  | completed chunk rest hpc hout =>
    obtain ⟨-, -, hpushed, hsenders⟩ := processSend_effect ({ s with
      outstanding := rest
      completed := s.completed ++ [chunk] } : Session T) chunk.length
    exact ⟨fun h => (h rfl).elim, .inl hpushed, fun _ _ h => .inl (by rwa [hsenders] at h)⟩

omit [DecidableEq T] in
/-- A send not completed has its length, and the buffer still holds its bytes. -/
theorem outstanding_kept (inv : RioSend.Inv s.session) {c : Chunk UInt8}
    (hc : c ∈ s.session.outstanding) : c.length = c.bytes.length ∧
      load s.session.sendBuffer.buffer c.offset c.length.toNat = c.bytes := by
  have hlaid := inv.laid
  rw [Session.posted, laid_append, zero_add] at hlaid
  obtain ⟨pos, hpos, hat⟩ := hlaid.2.mem hc
  refine ⟨hat.length_eq, ?_⟩
  rw [← inv.capacity_eq] at hat
  rw [hat.length_eq, Int.toNat_natCast]
  exact inv.cursors.chunk_kept hat hpos

omit [DecidableEq T] in
/-- The transport takes the byte the packet had when it was queued. -/
theorem inv_transmit (inv : Inv s) {byte : UInt8}
    (h : nextByte s.session.sendBuffer.buffer s.session.outstanding s.taken = some byte) :
    Inv { s with taken := s.taken + 1, emitted := s.emitted ++ [byte] } := by
  have hbyte := nextByte_eq (fun c hc => (outstanding_kept inv.session hc).1)
    (fun c hc => (outstanding_kept inv.session hc).2) h
  obtain ⟨hlt, -⟩ := List.getElem?_eq_some_iff.mp hbyte
  refine ⟨inv.session, hlt, ?_, inv.pushed_framed, inv.senders_framed⟩
  dsimp only
  rw [List.take_add_one, hbyte, inv.emitted_eq, List.append_assoc, Option.toList_some]

omit [DecidableEq T] in
/-- What holds of the packets queued or about to be, and of every packet handed over,
stays true of them. -/
theorem packets_step {P : List UInt8 → Prop} {a : RioSend.Action T} {session session' : Session T}
    (hpushed : ∀ packet ∈ session.pushed, P packet)
    (hsenders : ∀ t packet, session.senders t = some packet → P packet)
    (hok : ∀ t packet, a = .sendCheck t packet → P packet) (h : Effect session session' a) :
    (∀ packet ∈ session'.pushed, P packet) ∧
      ∀ t packet, session'.senders t = some packet → P packet := by
  constructor
  · intro packet hp
    rcases h.pushed with hpushed' | ⟨t, p, ht, hpushed'⟩ <;> rw [hpushed'] at hp
    · exact hpushed packet hp
    · rcases List.mem_append.mp hp with hp | hp
      · exact hpushed packet hp
      · rw [List.mem_singleton.mp hp]
        exact hsenders t p ht
  · intro t packet ht
    rcases h.senders t packet ht with hold | ha
    · exact hsenders t packet hold
    · exact hok t packet ha

omit [DecidableEq T] in
/-- The packets stay frames when only frames are handed over. -/
theorem framed_step (inv : Inv s) {a : RioSend.Action T} {session : Session T}
    (hok : SendsFrames s (.session a)) (h : Effect s.session session a) :
    (∀ packet ∈ session.pushed, Connection.IsFrame packet) ∧
      ∀ t packet, session.senders t = some packet → Connection.IsFrame packet := by
  refine packets_step inv.pushed_framed inv.senders_framed (fun t packet ha => ?_) h
  rwa [ha] at hok

/-- A step of the session that completes no send leaves the bytes taken. -/
theorem inv_session (inv : Inv s) {a : RioSend.Action T} {session : Session T}
    (hok : SendsFrames s (.session a)) (ha : a ≠ .complete)
    (h : RioSend.step s.session a = some session) : Inv { s with session := session } := by
  have heffect := step_effect h
  obtain ⟨hcompleted, more, hmore⟩ := heffect.completed ha
  obtain ⟨hpushed, hsenders⟩ := framed_step inv hok heffect
  refine ⟨RioSend.inv_step inv.session h, ?_, ?_, hpushed, hsenders⟩
  · dsimp only
    rw [← hmore, chunkBytes_append, List.length_append]
    exact inv.taken_le.trans (Nat.le_add_right _ _)
  · dsimp only
    rw [← hmore, chunkBytes_append, hcompleted, List.take_append_of_le_length inv.taken_le]
    exact inv.emitted_eq

/-- The oldest send completes when all its bytes are taken. -/
theorem inv_complete (inv : Inv s) {chunk : Chunk UInt8} {rest : List (Chunk UInt8)}
    {session : Session T} (hout : s.session.outstanding = chunk :: rest)
    (htaken : chunk.length ≤ s.taken) (h : RioSend.step s.session .complete = some session) :
    Inv { s with session := session, taken := s.taken - chunk.length.toNat } := by
  have hlen : chunk.length = chunk.bytes.length :=
    (outstanding_kept inv.session (by rw [hout]; exact List.mem_cons_self)).1
  obtain ⟨hpushed, hsenders⟩ := framed_step (a := .complete) inv trivial (step_effect h)
  have hafter : session.outstanding = rest ∧
      session.completed = s.session.completed ++ [chunk] := by
    cases step_moves h with
    | completed chunk' rest' hpc hout' =>
      cases hout.symm.trans hout'
      obtain ⟨hrest, hdone, -, -⟩ := processSend_effect ({ s.session with
        outstanding := rest
        completed := s.session.completed ++ [chunk] } : Session T) chunk.length
      exact ⟨hrest, hdone⟩
  have htaken_le := inv.taken_le
  have hemitted := inv.emitted_eq
  rw [hout, chunkBytes_cons] at htaken_le hemitted
  rw [List.length_append] at htaken_le
  have hcut : chunk.length.toNat = chunk.bytes.length := by omega
  refine ⟨RioSend.inv_step inv.session h, ?_, ?_, hpushed, hsenders⟩
  · dsimp only
    rw [hafter.1]
    omega
  · dsimp only
    rw [hafter.1, hafter.2, hcut, chunkBytes_append, chunkBytes_cons, chunkBytes_nil,
      List.append_nil, List.append_assoc, hemitted, List.take_append,
      List.take_of_length_le (by omega)]

/-- A step of the session is one of its own steps and takes no byte. -/
theorem session_of_step {a : RioSend.Action T} (h : step s (.session a) = some s') :
    ∃ session taken, RioSend.step s.session a = some session ∧
      s' = { s with session := session, taken := taken } ∧
      (a = .complete → ∃ chunk rest, s.session.outstanding = chunk :: rest ∧
        chunk.length ≤ s.taken ∧ taken = s.taken - chunk.length.toNat) ∧
      (a ≠ .complete → taken = s.taken) := by
  by_cases ha : a = .complete
  · subst ha
    simp only [step] at h
    split at h
    · cases h
    · split at h
      · obtain ⟨session, hsession, rfl⟩ := Option.map_eq_some_iff.mp h
        exact ⟨session, _, hsession, rfl, fun _ => ⟨_, _, ‹_›, ‹_›, rfl⟩, fun h => (h rfl).elim⟩
      · cases h
  · have hstep : step s (.session a) =
        (RioSend.step s.session a).map fun session => { s with session := session } := by
      cases a <;> first | rfl | exact (ha rfl).elim
    rw [hstep] at h
    obtain ⟨session, hsession, rfl⟩ := Option.map_eq_some_iff.mp h
    exact ⟨session, s.taken, hsession, rfl, fun h => (ha h).elim, fun _ => rfl⟩

/-- Every step keeps the invariant. -/
theorem inv_step (inv : Inv s) {a : Action T} (hok : SendsFrames s a)
    (h : step s a = some s') : Inv s' := by
  cases a with
  | transmit =>
    obtain ⟨byte, hbyte, rfl⟩ := Option.map_eq_some_iff.mp h
    exact inv_transmit inv hbyte
  | session a =>
    obtain ⟨session, taken, hsession, rfl, hcomplete, hother⟩ := session_of_step h
    by_cases ha : a = .complete
    · obtain ⟨chunk, rest, hout, htaken, rfl⟩ := hcomplete ha
      subst ha
      exact inv_complete inv hout htaken hsession
    · rw [hother ha]
      exact inv_session inv hok ha hsession

omit [DecidableEq T] in
/-- What the queued packets are cut into: taken, posted, written and queued bytes. -/
theorem emitted_prefix (inv : Inv s) : s.emitted <+: s.session.pushed.flatten := by
  have hwritten := inv.session.laid.bytes_written
  rw [List.drop_zero, Session.posted, chunkBytes_append] at hwritten
  rw [inv.emitted_eq, ← inv.session.queue_eq]
  exact ((List.prefix_append_right_inj _).mpr (List.take_prefix _ _)).trans
    (hwritten.trans (List.prefix_append _ _))

/-- A RIO session sends frames. -/
theorem source_framed : (source : Connection.Source (Sender T) (Action T)).Framed Inv
    SendsFrames where
  kept _ _ _ inv hok h := inv_step inv hok h
  packets_grow s a s' _ _ h := by
    cases a with
    | transmit =>
      obtain ⟨byte, -, rfl⟩ := Option.map_eq_some_iff.mp h
      exact List.prefix_rfl
    | session a =>
      obtain ⟨session, taken, hsession, rfl, -, -⟩ := session_of_step h
      show s.session.pushed <+: session.pushed
      rcases (step_effect hsession).pushed with hp | ⟨t, packet, -, hp⟩ <;> rw [hp]
      exact List.prefix_append _ _
  emitted_grows s a s' _ _ h := by
    cases a with
    | transmit =>
      obtain ⟨byte, -, rfl⟩ := Option.map_eq_some_iff.mp h
      exact List.prefix_append _ _
    | session a =>
      obtain ⟨session, taken, -, rfl, -, -⟩ := session_of_step h
      exact List.prefix_rfl
  emitted_prefix _ inv := emitted_prefix inv
  framed _ inv := inv.pushed_framed

end Invariant

/-- The invariant holds wherever a connection with a sending RIO session gets. -/
theorem inv_reachable {c : SessionClass} {memory memory' : ℤ → UInt8} {accepted : Bool}
    {s : Connection.State (Sender T)} (h : ReachableVia (Connection.step source c)
      (Connection.SendsMeet SendsFrames) (Connection.init c memory' accepted (init memory)) s) :
    Connection.Inv source c Inv s :=
  h.invariant (Connection.inv_init source_framed c memory' accepted (inv_init memory))
    fun _ _ _ I hok hs => Connection.inv_step source_framed I hok hs

/-- Nothing is left on the way: no packet queued, no byte unposted, untaken or in flight. -/
structure Drained (s : Connection.State (Sender T)) : Prop where
  /-- The queue is empty. -/
  queue_eq : s.sender.session.sendBufQueue = []
  /-- All bytes in the buffer are posted. -/
  size_eq : s.sender.session.sendBuffer.size = (chunkBytes s.sender.session.outstanding).length
  /-- All bytes posted are taken. -/
  taken_eq : s.sender.taken = (chunkBytes s.sender.session.outstanding).length
  /-- All bytes taken are received. -/
  inFlight_eq : source.inFlight s = []

/-- Where nothing is left on the way, all bytes have been received. -/
theorem Drained.received {s : Connection.State (Sender T)} (h : Drained s) (inv : Inv s.sender)
    (hreceived : s.received <+: s.sender.emitted) :
    s.received.length = s.sender.session.pushed.flatten.length := by
  have hsize := inv.session.cursors.size_eq
  have hcompleted := inv.session.cursors.completed_le
  have hposted := inv.session.cursors.posted_le
  rw [Session.posted, chunkBytes_append, List.length_append] at hposted
  have hqueue := congrArg List.length inv.session.queue_eq
  rw [h.queue_eq, List.flatten_nil, List.append_nil] at hqueue
  have hemitted := congrArg List.length inv.emitted_eq
  rw [List.length_append, List.length_take, h.taken_eq, min_self] at hemitted
  have hleft : s.sender.emitted.length ≤ s.received.length := List.drop_eq_nil_iff.mp h.inFlight_eq
  have hle := hreceived.length_le
  rw [h.size_eq] at hsize
  omega

/-- Two packets are queued and posted at once, taken byte by byte before the send completes,
and received in two pieces, the first of which ends inside the second packet. -/
def sendTwo : List (Connection.Action (Action Unit)) :=
  [.send (.session .initSession), .send (.session (.sendCheck () [5, 0, 7, 0, 9])),
    .send (.session (.sendPush ())), .send (.session (.sendCheck () [4, 0, 8, 0])),
    .send (.session (.sendPush ())), .send (.session (.sendDeferred 0)),
    .send (.session .dequeue), .send (.session .testLimit), .send (.session .dequeue),
    .send (.session .testLimit), .send (.session .dequeue), .send (.session (.post .ok)),
    .send .transmit, .send .transmit, .send .transmit, .send .transmit, .send .transmit,
    .send .transmit, .receive 6 true, .send .transmit, .send .transmit, .send .transmit,
    .receive 3 true]

end RioIocpServer.RioConnection
