import RioIocpServer.FifoChannel
import RioIocpServer.TransitionSystem
import RioIocpServer.FrameRoundTrip

/-!
# A connection between a sending and a receiving session

The transport takes bytes from the sends posted by one end, carries them, and
puts any number of them into the window posted by the other end; a receive of no
bytes ends the stream. What a sending session class has to show is collected in
`Framed`; the connection then delivers its packets in order, whichever class
receives and however the bytes are cut, and is a channel of packets.
-/

namespace RioIocpServer.Connection

open FrameStream TransitionSystem FifoChannel

variable {σ α : Type*}

/-- A sending session as the other end sees it. -/
structure Source (σ α : Type*) where
  /-- The steps of the session and of the transport that reads from it. -/
  step : σ → α → Option σ
  /-- The packets whose bytes are sent. -/
  packets : σ → List (List UInt8)
  /-- The bytes the transport has taken so far. -/
  emitted : σ → List UInt8

/-- The packet is one whose header announces its own length. -/
def IsFrame (packet : List UInt8) : Prop := ∃ frame : Frame, frame.bytes = packet

/-- A packet is a frame exactly if its header is complete and announces its length. -/
theorem isFrame_iff {packet : List UInt8} : IsFrame packet ↔ PacketHeader.sizeOf ≤ packet.length ∧
    (PacketHeader.ofBytes packet).size.toNat = packet.length := by
  constructor
  · rintro ⟨frame, rfl⟩
    exact ⟨frame.sizeOf_le, frame.size_eq⟩
  · rintro ⟨hlen, hsize⟩
    exact ⟨⟨packet, hlen, hsize⟩, rfl⟩

instance (packet : List UInt8) : Decidable (IsFrame packet) := decidable_of_iff _ isFrame_iff.symm

/-- What a sending session guarantees while its steps meet `ok`. -/
structure Source.Framed (S : Source σ α) (inv : σ → Prop) (ok : σ → α → Prop) : Prop where
  /-- The invariant is kept. -/
  kept : ∀ s a s', inv s → ok s a → S.step s a = some s' → inv s'
  /-- The packets already sent stay the first ones. -/
  packets_grow : ∀ s a s', inv s → ok s a → S.step s a = some s' → S.packets s <+: S.packets s'
  /-- A byte taken is not taken back. -/
  emitted_grows : ∀ s a s', inv s → ok s a → S.step s a = some s' → S.emitted s <+: S.emitted s'
  /-- The bytes taken are the first bytes of the packets. -/
  emitted_prefix : ∀ s, inv s → S.emitted s <+: (S.packets s).flatten
  /-- Every packet is a frame. -/
  framed : ∀ s, inv s → ∀ packet ∈ S.packets s, IsFrame packet

/-- Both ends of the connection. -/
structure State (σ : Type*) where
  /-- The sending session with the transport reading from it. -/
  sender : σ
  /-- History: the bytes received. -/
  received : List UInt8
  /-- The receiving session. -/
  receiver : RecvSession

/-- The steps of both ends. -/
inductive Action (α : Type*) where
  /-- A step of the sending session or of the transport reading from it. -/
  | send (a : α)
  /-- A receive of `n` bytes completes; the next one is accepted or not. -/
  | receive (n : ℕ) (accepted : Bool)

/-- The bytes taken and not received. -/
def Source.inFlight (S : Source σ α) (s : State σ) : List UInt8 :=
  (S.emitted s.sender).drop s.received.length

/-- One step of the connection. -/
def step (S : Source σ α) (c : SessionClass) (s : State σ) : Action α → Option (State σ)
  | .send a => (S.step s.sender a).map fun sender => { s with sender := sender }
  | .receive n accepted =>
    if n ≤ (S.inFlight s).length then
      (ReceivePath.step c s.receiver ⟨(S.inFlight s).take n, accepted⟩).map fun receiver =>
        { s with received := s.received ++ (S.inFlight s).take n, receiver := receiver }
    else none

/-- A connection whose receiver has just posted its first receive. -/
def init (c : SessionClass) (memory : ℤ → UInt8) (accepted : Bool) (sender : σ) : State σ :=
  ⟨sender, [], ReceivePath.start c memory accepted⟩

/-- The condition on the steps of the sending session, as one on all steps. -/
def SendsMeet (ok : σ → α → Prop) (s : State σ) : Action α → Prop
  | .send a => ok s.sender a
  | .receive _ _ => True

instance decidableSendsMeet {ok : σ → α → Prop} [∀ s a, Decidable (ok s a)] (s : State σ) :
    ∀ a, Decidable (SendsMeet ok s a)
  | .send a => inferInstanceAs (Decidable (ok s.sender a))
  | .receive _ _ => isTrue trivial

/-- The text that reports the end of the stream. -/
def zeroBytesText : SessionClass → String
  | .rio => "bytesTransferred == 0"
  | .iocp => "ProcessRecv::ByteTransferred Error"

/-- The invariant of the connection. -/
structure Inv (S : Source σ α) (c : SessionClass) (inv : σ → Prop) (s : State σ) : Prop where
  /-- The invariant of the sending session. -/
  sender : inv s.sender
  /-- The bytes received are the first ones taken. -/
  received_prefix : s.received <+: S.emitted s.sender
  /-- The packets received completely were handed out. -/
  handled_eq : s.receiver.handled = completeFrames (S.packets s.sender) s.received.length
  /-- Nothing failed but the posting of a receive, and the stream may have ended. -/
  errors_eq : ∀ text ∈ s.receiver.errors, text = c.refusedText ∨ text = zeroBytesText c
  /-- While a receive is posted the receiver follows the stream. -/
  follows : s.receiver.posted.isSome = true → ∃ frames : List Frame,
    frameBytes frames = S.packets s.sender ∧ ReceivePath.Inv c frames s.received s.receiver

/-- Packets that are frames are the bytes of a list of frames. -/
theorem exists_frames {packets : List (List UInt8)} (h : ∀ packet ∈ packets, IsFrame packet) :
    ∃ frames : List Frame, frameBytes frames = packets := by
  induction packets with
  | nil => exact ⟨[], rfl⟩
  | cons packet packets ih =>
    obtain ⟨frame, hframe⟩ := h packet List.mem_cons_self
    obtain ⟨frames, hframes⟩ := ih fun p hp => h p (List.mem_cons_of_mem packet hp)
    refine ⟨frame :: frames, ?_⟩
    rw [← hframe, ← hframes]
    rfl

/-- A frame is not empty. -/
theorem IsFrame.ne_nil {packet : List UInt8} (h : IsFrame packet) : packet ≠ [] := by
  obtain ⟨frame, rfl⟩ := h
  have hlen := frame.sizeOf_le
  rw [PacketHeader.sizeOf] at hlen
  exact List.ne_nil_of_length_pos (by omega)

section Invariant

variable {S : Source σ α} {c : SessionClass} {inv : σ → Prop} {ok : σ → α → Prop}
  {s s' : State σ}

/-- The receiver follows the stream when its first receive is posted. -/
theorem inv_init (hS : S.Framed inv ok) (c : SessionClass) (memory : ℤ → UInt8) (accepted : Bool)
    {sender : σ} (h : inv sender) : Inv S c inv (init c memory accepted sender) := by
  obtain ⟨frames, hframes⟩ := exists_frames (hS.framed sender h)
  have hstart := ReceivePath.inv_start c frames memory accepted
  have hhandled := hstart.handled_eq
  rw [hframes] at hhandled
  exact ⟨h, List.nil_prefix, hhandled, fun text ht => .inl (hstart.errors_eq text ht),
    fun _ => ⟨frames, hframes, hstart⟩⟩

/-- Packets sent later do not change what is complete. -/
theorem completeFrames_later (hS : S.Framed inv ok) (I : Inv S c inv s) {sender : σ}
    (h : inv sender) (hgrow : S.packets s.sender <+: S.packets sender) :
    completeFrames (S.packets sender) s.received.length =
      completeFrames (S.packets s.sender) s.received.length := by
  have hlen := (I.received_prefix.trans (hS.emitted_prefix s.sender I.sender)).length_le
  obtain ⟨more, hmore⟩ := hgrow
  rw [← hmore]
  refine completeFrames_extend hlen fun packet hp => (hS.framed sender h packet ?_).ne_nil
  rw [← hmore]
  exact List.mem_append_right _ hp

/-- A step of the sending session keeps the invariant. -/
theorem inv_send (hS : S.Framed inv ok) (I : Inv S c inv s) {a : α} {sender : σ}
    (hok : ok s.sender a) (h : S.step s.sender a = some sender) :
    Inv S c inv { s with sender := sender } := by
  have hsender := hS.kept _ _ _ I.sender hok h
  have hlater := completeFrames_later hS I hsender (hS.packets_grow _ _ _ I.sender hok h)
  refine ⟨hsender, I.received_prefix.trans (hS.emitted_grows _ _ _ I.sender hok h),
    I.handled_eq.trans hlater.symm, I.errors_eq, fun hposted => ?_⟩
  obtain ⟨frames, -, hrecv⟩ := I.follows hposted
  obtain ⟨later, hframes⟩ := exists_frames (hS.framed sender hsender)
  have hhandled : s.receiver.handled = completeFrames (frameBytes later) s.received.length := by
    rw [hframes]
    exact I.handled_eq.trans hlater.symm
  exact ⟨later, hframes, { hrecv with handled_eq := hhandled }⟩

/-- A receive of no bytes ends the stream for the receiver. -/
theorem receive_nothing {r r' : RecvSession} {accepted : Bool}
    (h : ReceivePath.step c r ⟨[], accepted⟩ = some r') :
    r'.posted = none ∧ r'.handled = r.handled ∧ r'.errors = r.errors ++ [zeroBytesText c] := by
  simp only [ReceivePath.step] at h
  split at h
  · cases h
  · split at h
    · cases h
    · cases c <;> cases h <;> exact ⟨rfl, rfl, rfl⟩

/-- A receive that completes was posted and is not longer than its window. -/
theorem posted_of_step {r r' : RecvSession} {x : ReceivePath.Receive}
    (h : ReceivePath.step c r x = some r') :
    ∃ window, r.posted = some window ∧ x.segment.length ≤ window.length := by
  simp only [ReceivePath.step] at h
  split at h
  · cases h
  · split at h
    · cases h
    · exact ⟨_, ‹_›, not_lt.mp ‹_›⟩

/-- A receive of the next bytes in flight keeps the invariant. -/
theorem inv_receive (hS : S.Framed inv ok) (I : Inv S c inv s) {n : ℕ} {accepted : Bool}
    {receiver : RecvSession} (hn : n ≤ (S.inFlight s).length)
    (h : ReceivePath.step c s.receiver ⟨(S.inFlight s).take n, accepted⟩ = some receiver) :
    Inv S c inv { s with
      received := s.received ++ (S.inFlight s).take n
      receiver := receiver } := by
  have hall : s.received ++ S.inFlight s = S.emitted s.sender :=
    List.prefix_iff_eq_append.mp I.received_prefix
  have hprefix : s.received ++ (S.inFlight s).take n <+: S.emitted s.sender := by
    rw [← hall]
    exact (List.prefix_append_right_inj _).mpr (List.take_prefix _ _)
  obtain ⟨window, hw, hle⟩ := posted_of_step h
  obtain ⟨frames, hframes, hrecv⟩ := I.follows (by rw [hw]; rfl)
  obtain rfl | hpos := Nat.eq_zero_or_pos n
  · rw [List.take_zero] at h ⊢
    obtain ⟨hposted, hhandled, herrors⟩ := receive_nothing h
    rw [List.append_nil]
    refine ⟨I.sender, I.received_prefix, hhandled.trans I.handled_eq, fun text ht => ?_,
      fun hp => ?_⟩
    · rw [herrors] at ht
      rcases List.mem_append.mp ht with ht | ht
      · exact I.errors_eq text ht
      · exact .inr (List.mem_singleton.mp ht)
    · rw [hposted] at hp
      cases hp
  · have hlen : ((S.inFlight s).take n).length = n := List.length_take_of_le hn
    have hfit : ReceivePath.Fits s.receiver ⟨(S.inFlight s).take n, accepted⟩ :=
      ⟨window, hw, by rw [hlen]; exact hpos, hle⟩
    have hstream : s.received ++ (S.inFlight s).take n <+: (frameBytes frames).flatten := by
      rw [hframes]
      exact hprefix.trans (hS.emitted_prefix s.sender I.sender)
    obtain ⟨r, hr, hrecv'⟩ := ReceivePath.inv_step hrecv hfit hstream
    cases h.symm.trans hr
    have hhandled := hrecv'.handled_eq
    rw [hframes] at hhandled
    exact ⟨I.sender, hprefix, hhandled, fun text ht => .inl (hrecv'.errors_eq text ht),
      fun _ => ⟨frames, hframes, hrecv'⟩⟩

/-- Every step of the connection keeps the invariant. -/
theorem inv_step (hS : S.Framed inv ok) (I : Inv S c inv s) {a : Action α}
    (hok : SendsMeet ok s a) (h : step S c s a = some s') : Inv S c inv s' := by
  cases a with
  | send a =>
    obtain ⟨sender, hsender, rfl⟩ := Option.map_eq_some_iff.mp h
    exact inv_send hS I hok hsender
  | receive n accepted =>
    simp only [step] at h
    split at h
    · obtain ⟨receiver, hreceiver, rfl⟩ := Option.map_eq_some_iff.mp h
      exact inv_receive hS I ‹_› hreceiver
    · cases h

/-- The connection is a channel of packets. -/
theorem implements (hS : S.Framed inv ok) (c : SessionClass) :
    Implements (step S c) (Inv S c inv) (SendsMeet ok) (fun s => S.packets s.sender)
      (fun s => s.receiver.handled) where
  kept _ _ _ I hok h := inv_step hS I hok h
  inOrder _ I := by
    rw [I.handled_eq]
    exact completeFrames_initial _ _
  sent_grows s a s' I hok h := by
    cases a with
    | send a =>
      obtain ⟨sender, hsender, rfl⟩ := Option.map_eq_some_iff.mp h
      exact hS.packets_grow _ _ _ I.sender hok hsender
    | receive n accepted =>
      simp only [step] at h
      split at h
      · obtain ⟨receiver, -, rfl⟩ := Option.map_eq_some_iff.mp h
        exact List.prefix_rfl
      · cases h
  delivered_grows s a s' I hok h := by
    have I' := inv_step hS I hok h
    cases a with
    | send a =>
      obtain ⟨sender, hsender, rfl⟩ := Option.map_eq_some_iff.mp h
      exact List.prefix_rfl
    | receive n accepted =>
      simp only [step] at h
      split at h
      · obtain ⟨receiver, -, rfl⟩ := Option.map_eq_some_iff.mp h
        rw [I.handled_eq, I'.handled_eq]
        refine completeFrames_mono _ ?_
        rw [List.length_append]
        exact Nat.le_add_right _ _
      · cases h

end Invariant

/-- What a connection guarantees in every state. -/
structure Delivers (S : Source σ α) (c : SessionClass) (s : State σ) : Prop where
  /-- The packets handed out are the first packets sent, unchanged, in order, each once. -/
  inOrder : s.receiver.handled <+: S.packets s.sender
  /-- They are those whose bytes have all been received. -/
  complete : s.receiver.handled = completeFrames (S.packets s.sender) s.received.length
  /-- Once all bytes of all packets are received, all packets are handed out. -/
  all : s.received.length = (S.packets s.sender).flatten.length →
    s.receiver.handled = S.packets s.sender
  /-- The receiver reports no overflow and no read error. -/
  errors_eq : ∀ text ∈ s.receiver.errors, text = c.refusedText ∨ text = zeroBytesText c

end RioIocpServer.Connection
