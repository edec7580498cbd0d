import RioIocpServer.TransitionSystem
import RioIocpServer.RingBuffer
import RioIocpServer.PacketExtraction

/-!
# The receive path of both session classes

The transport stores a segment in the posted window and completes the receive;
`ProcessRecv` accounts for it, extracts the packets, compacts the buffer and
posts the next window. The classes run the same steps with their own texts and
their own reaction to a refused receive, which is part of the action. The
packets handed to `OnRecvPacket` are kept as the log `handled`.
-/

namespace RioIocpServer

open CyclicMemory FrameStream TransitionSystem

/-- The part of the buffer a receive may write to. -/
structure Window where
  /-- First offset. -/
  offset : ℤ
  /-- Number of bytes. -/
  length : ℤ
  deriving DecidableEq

/-- The receive side of a session. -/
structure RecvSession where
  /-- `m_bConnected`. -/
  connected : Bool
  /-- The buffer received into. -/
  recvBuffer : RingBuffer UInt8
  /-- The receive in flight. -/
  posted : Option Window
  /-- History: packets handed to `OnRecvPacket`. -/
  handled : List (List UInt8)
  /-- History: texts given to `HandleError`. -/
  errors : List String

namespace RecvSession

/-- `HandleError`. -/
def handleError (s : RecvSession) (text : String) : RecvSession :=
  { s with errors := s.errors ++ [text] }

/-- `Disconnect`, as far as receiving is concerned. -/
def disconnect (s : RecvSession) : RecvSession := { s with connected := false }

/-- Post the window behind the stored bytes. -/
def post (s : RecvSession) : RecvSession :=
  { s with posted := some ⟨s.recvBuffer.getWriteOffset, s.recvBuffer.getChunkWriteSize⟩ }

/-- The common body of `ProcessRecv`. -/
def processRecv (zeroBytes overflow readError : String)
    (onRecv : (ℤ → UInt8) → ℤ → Option (ℤ × List (List UInt8)))
    (registerRecv : RecvSession → Bool → RecvSession)
    (s : RecvSession) (bytesTransferred : ℤ) (accepted : Bool) : Option RecvSession :=
  let s := { s with posted := none }
  if bytesTransferred = 0 then some (s.handleError zeroBytes).disconnect
  else
    match s.recvBuffer.onWriteBuffer bytesTransferred with
    | (false, _) => some (s.handleError overflow).disconnect
    | (true, written) =>
      let dataSize := written.getDataSize
      match onRecv (fun i => written.buffer (written.getReadOffset + i)) dataSize with
      | none => none
      | some (processLen, packets) =>
        let s := { s with recvBuffer := written, handled := s.handled ++ packets }
        if processLen < 0 ∨ dataSize < processLen then some (s.handleError readError).disconnect
        else
          match written.onReadBuffer processLen with
          | (false, _) => some (s.handleError readError).disconnect
          | (true, consumed) =>
            some (registerRecv { s with recvBuffer := consumed.adjustPos } accepted)

end RecvSession

/-- `RioSession::RegisterRecv` with the answer of `RIOReceive`. -/
def RioSession.registerRecv (s : RecvSession) (accepted : Bool) : RecvSession :=
  if s.connected = false then s
  else if accepted = true then s.post
  else (s.handleError "RioReceive").disconnect

/-- `IocpSession::RegisterRecv` with the answer of `WSARecv`. -/
def IocpSession.registerRecv (s : RecvSession) (accepted : Bool) : RecvSession :=
  if s.connected = false then s
  else if accepted = true then s.post
  else s.handleError "WSARecv"

/-- `RioSession::ProcessRecv`. -/
def RioSession.processRecv : RecvSession → ℤ → Bool → Option RecvSession :=
  RecvSession.processRecv "bytesTransferred == 0" "Buffer Overflow" "RecvBuffer Read Error"
    RioSession.onRecv RioSession.registerRecv

/-- `IocpSession::ProcessRecv`. -/
def IocpSession.processRecv : RecvSession → ℤ → Bool → Option RecvSession :=
  RecvSession.processRecv "ProcessRecv::ByteTransferred Error" "ProcessRecv::OnWrite Error"
    "ProcessRecv::OnRecv Error" IocpSession.onRecv IocpSession.registerRecv

/-- The two session classes. -/
inductive SessionClass where
  /-- `RioSession`. -/
  | rio
  /-- `IocpSession`. -/
  | iocp
  deriving DecidableEq

namespace SessionClass

/-- `OnRecv` of the class. -/
def onRecv : SessionClass → (ℤ → UInt8) → ℤ → Option (ℤ × List (List UInt8))
  | rio => RioSession.onRecv
  | iocp => IocpSession.onRecv

/-- `RegisterRecv` of the class. -/
def registerRecv : SessionClass → RecvSession → Bool → RecvSession
  | rio => RioSession.registerRecv
  | iocp => IocpSession.registerRecv

/-- `ProcessRecv` of the class. -/
def processRecv : SessionClass → RecvSession → ℤ → Bool → Option RecvSession
  | rio => RioSession.processRecv
  | iocp => IocpSession.processRecv

/-- The text of a refused receive. -/
def refusedText : SessionClass → String
  | rio => "RioReceive"
  | iocp => "WSARecv"

end SessionClass

namespace ReceivePath

/-- `BUFFER_SIZE` of the RIO sessions and `BUFSIZE` of the IOCP sessions. -/
def bufferSize : ℤ := 65536

/-- A completed receive and whether the next one is accepted. -/
structure Receive where
  /-- The bytes transferred. -/
  segment : List UInt8
  /-- Answer of the service to the receive posted next. -/
  accepted : Bool

/-- The transport fills the posted window and the session processes the
completion. -/
def step (c : SessionClass) (s : RecvSession) (r : Receive) : Option RecvSession :=
  match s.posted with
  | none => none
  | some window =>
    if window.length < r.segment.length then none
    else
      let buffer := store s.recvBuffer.buffer window.offset r.segment
      c.processRecv { s with recvBuffer := s.recvBuffer.withMemory buffer } r.segment.length
        r.accepted

/-- A connected session with a fresh buffer posts its first receive. -/
def start (c : SessionClass) (memory : ℤ → UInt8) (accepted : Bool) : RecvSession :=
  c.registerRecv ⟨true, RingBuffer.new memory bufferSize, none, [], []⟩ accepted

/-- The segment is nonempty and fits the posted window. -/
def Fits (s : RecvSession) (r : Receive) : Prop :=
  ∃ window, s.posted = some window ∧ 0 < r.segment.length ∧ r.segment.length ≤ window.length

/-- The bytes received in a schedule. -/
def received (rs : List Receive) : List UInt8 := (rs.map Receive.segment).flatten

/-- What holds between two receives once the bytes `xs` of the frames arrived. -/
structure Inv (c : SessionClass) (frames : List Frame) (xs : List UInt8) (s : RecvSession) :
    Prop where
  /-- The buffer is well-formed. -/
  wellFormed : s.recvBuffer.WellFormed
  /-- The capacity never changes. -/
  capacity_eq : s.recvBuffer.capacity = bufferSize
  /-- The free room starts right behind the data. -/
  head_eq : s.recvBuffer.headPos = s.recvBuffer.tailPos + s.recvBuffer.size
  /-- The complete frames were handed out. -/
  handled_eq : s.handled = completeFrames (frameBytes frames) xs.length
  /-- The rest is stored. -/
  contents_eq : s.handled.flatten ++ s.recvBuffer.contents = xs
  /-- Nothing failed but the posting of a receive. -/
  errors_eq : ∀ text ∈ s.errors, text = c.refusedText
  /-- The posted window is the one behind the data, and nothing failed. -/
  posted_eq : ∀ window, s.posted = some window → s.connected = true ∧ s.errors = [] ∧
    window = ⟨s.recvBuffer.headPos, s.recvBuffer.getChunkWriteSize⟩
  /-- Without a failure a window is posted. -/
  posted_isSome : s.errors = [] → s.posted.isSome = true

section Invariant

variable {c : SessionClass} {frames : List Frame} {xs : List UInt8} {s : RecvSession}

/-- A connected session without failure posts the window behind its data or
reports the refusal. -/
theorem registerRecv_cases (c : SessionClass) (hc : s.connected = true) (accepted : Bool) :
    c.registerRecv s accepted = s.post ∨
      ∃ connected, c.registerRecv s accepted =
        { s with errors := s.errors ++ [c.refusedText], connected := connected } := by
  obtain ⟨connected, recvBuffer, posted, handled, errors⟩ := s
  cases hc
  cases c <;> cases accepted
  · exact .inr ⟨false, rfl⟩
  · exact .inl rfl
  · exact .inr ⟨true, rfl⟩
  · exact .inl rfl

/-- Posting the next receive, accepted or refused, completes the invariant. -/
theorem inv_registerRecv (hc : s.connected = true) (hposted : s.posted = none)
    (herrors : s.errors = []) (wf : s.recvBuffer.WellFormed)
    (hcap : s.recvBuffer.capacity = bufferSize)
    (hhead : s.recvBuffer.headPos = s.recvBuffer.tailPos + s.recvBuffer.size)
    (hhandled : s.handled = completeFrames (frameBytes frames) xs.length)
    (hcontents : s.handled.flatten ++ s.recvBuffer.contents = xs) (accepted : Bool) :
    Inv c frames xs (c.registerRecv s accepted) := by
  rcases registerRecv_cases c hc accepted with h | ⟨connected, h⟩ <;> rw [h]
  · refine ⟨wf, hcap, hhead, hhandled, hcontents, ?_, ?_, fun _ => rfl⟩
    · simp [RecvSession.post, herrors]
    · rintro window hw
      cases hw
      exact ⟨hc, herrors, rfl⟩
  · refine ⟨wf, hcap, hhead, hhandled, hcontents, ?_, ?_, ?_⟩ <;> simp [herrors, hposted]

/-- `ProcessRecv` on a receive that fits and an extraction that ends. -/
theorem processRecv_done (zeroBytes overflow readError : String)
    {onRecv : (ℤ → UInt8) → ℤ → Option (ℤ × List (List UInt8))}
    (registerRecv : RecvSession → Bool → RecvSession) {n k : ℤ} {packets : List (List UInt8)}
    (hn : n ≠ 0) (hfree : n ≤ s.recvBuffer.getFreeSize)
    (hrecv : onRecv (fun i => s.recvBuffer.buffer (s.recvBuffer.tailPos + i))
      (s.recvBuffer.size + n) = some (k, packets))
    (h0 : 0 ≤ k) (h1 : k ≤ s.recvBuffer.size + n) (accepted : Bool) :
    RecvSession.processRecv zeroBytes overflow readError onRecv registerRecv s n accepted =
      some (registerRecv { s with
        recvBuffer := ((s.recvBuffer.advanceHead n).advanceTail k).adjustPos
        posted := none
        handled := s.handled ++ packets } accepted) := by
  simp only [RecvSession.processRecv, if_neg hn, RingBuffer.onWriteBuffer_eq hfree]
  have hrecv' : onRecv (fun i => (s.recvBuffer.advanceHead n).buffer
      ((s.recvBuffer.advanceHead n).getReadOffset + i))
      (s.recvBuffer.advanceHead n).getDataSize = some (k, packets) := hrecv
  have hdata : (s.recvBuffer.advanceHead n).getDataSize = s.recvBuffer.size + n := rfl
  simp only [hrecv']
  rw [if_neg (by omega), RingBuffer.onReadBuffer_eq h1]

/-- Either class extracts the complete frames. -/
theorem onRecv_extracts (c : SessionClass) : Extracts c.onRecv := by
  cases c
  · exact RioSession.onRecv_extracts
  · exact IocpSession.onRecv_extracts

/-- `ProcessRecv` of either class on such a receive. -/
theorem class_processRecv_done (c : SessionClass) {n k : ℤ} {packets : List (List UInt8)}
    (hn : n ≠ 0) (hfree : n ≤ s.recvBuffer.getFreeSize)
    (hrecv : c.onRecv (fun i => s.recvBuffer.buffer (s.recvBuffer.tailPos + i))
      (s.recvBuffer.size + n) = some (k, packets))
    (h0 : 0 ≤ k) (h1 : k ≤ s.recvBuffer.size + n) (accepted : Bool) :
    c.processRecv s n accepted = some (c.registerRecv { s with
      recvBuffer := ((s.recvBuffer.advanceHead n).advanceTail k).adjustPos
      posted := none
      handled := s.handled ++ packets } accepted) := by
  cases c <;> exact processRecv_done _ _ _ _ hn hfree hrecv h0 h1 accepted

/-- A frame stream cut behind the frames handed out is one of the frames left. -/
theorem frames_left (hhandled : s.handled = completeFrames (frameBytes frames) xs.length) :
    ∃ rest : List Frame, frameBytes frames = s.handled ++ frameBytes rest := by
  obtain ⟨left, hleft⟩ := completeFrames_initial (frameBytes frames) xs.length
  obtain ⟨done, rest, -, -, hrest⟩ := List.map_eq_append_iff.mp hleft.symm
  exact ⟨rest, by rw [← hleft, ← hrest, hhandled]; rfl⟩

/-- A session between two receives is ready for any window inside the buffer:
every cell of it is free. -/
theorem window_free (inv : Inv c frames xs s) {window : Window} (hw : s.posted = some window) :
    0 < window.length ∧ 0 ≤ window.offset ∧ window.offset + window.length ≤ bufferSize ∧
      ∀ i : ℕ, i < s.recvBuffer.size →
        s.recvBuffer.tailPos + i < window.offset := by
  obtain ⟨-, -, rfl⟩ := inv.posted_eq window hw
  have hb := inv.wellFormed.head_bounds
  have hpos := inv.wellFormed.chunkWriteSize_pos
  have hs := inv.wellFormed.size_nonneg
  have hhead := inv.head_eq
  have hcap := inv.capacity_eq
  have hchunk : s.recvBuffer.getChunkWriteSize = s.recvBuffer.capacity - s.recvBuffer.headPos := by
    rw [RingBuffer.getChunkWriteSize, if_pos (by omega)]
  exact ⟨hpos, hb.1, by dsimp only; omega, fun i hi => by dsimp only; omega⟩

/-- `OnRecv` on the bytes kept and the segment behind them hands out the complete frames
and leaves less than a buffer. -/
theorem onRecv_stored (c : SessionClass) (s : RecvSession) {kept segment : List UInt8}
    {rest : List Frame} (hcap : s.recvBuffer.capacity = bufferSize)
    (wf : (s.recvBuffer.advanceHead segment.length).WellFormed)
    (hend : s.recvBuffer.tailPos + (s.recvBuffer.size + segment.length) ≤ s.recvBuffer.capacity)
    (hcont : (s.recvBuffer.advanceHead segment.length).contents = kept ++ segment)
    (hpre : kept ++ segment <+: (frameBytes rest).flatten) {done : List (List UInt8)}
    (hdone : completeFrames (frameBytes rest) (kept ++ segment).length = done) :
    c.onRecv (fun i => s.recvBuffer.buffer (s.recvBuffer.tailPos + i))
        (s.recvBuffer.size + segment.length) = some ((done.flatten.length : ℤ), done) ∧
      s.recvBuffer.size + segment.length = ((kept ++ segment).length : ℤ) ∧
      done.flatten.length ≤ (kept ++ segment).length ∧
      (kept ++ segment).length < done.flatten.length + 65536 := by
  have hs : 0 ≤ s.recvBuffer.size + segment.length := wf.size_nonneg
  have ht : 0 ≤ s.recvBuffer.tailPos := wf.tail_nonneg
  have hfull : s.recvBuffer.size + segment.length ≤ s.recvBuffer.capacity := wf.size_le
  have hcap' : s.recvBuffer.capacity = 65536 := hcap
  have hlen : s.recvBuffer.size + segment.length = ((kept ++ segment).length : ℤ) := by
    rw [← hcont, RingBuffer.contents_length]
    exact (Int.toNat_of_nonneg hs).symm
  have hload : load (fun i => s.recvBuffer.buffer (s.recvBuffer.tailPos + i)) 0
      (kept ++ segment).length = kept ++ segment := by
    rw [load_shift, ← hcont, RingBuffer.contents_length]
    exact (RingBuffer.contents_of_le wf.size_nonneg ht hend).symm
  have hx := (onRecv_extracts c).result (by omega) (hload.symm ▸ hpre)
  have hk := completeFrames_length_le (frameBytes rest) (kept ++ segment).length
  have hkept : (kept ++ segment).length <
      (completeFrames (frameBytes rest) (kept ++ segment).length).flatten.length + 65536 := by
    refine remainder_lt (by omega) ?_ hpre.length_le
    intro f hf
    obtain ⟨frame, -, rfl⟩ := List.mem_map.mp hf
    exact frame.length_lt.le
  rw [hdone] at hx hk hkept
  exact ⟨hlen ▸ hx, hlen, hk, hkept⟩

/-- `ProcessRecv` completes the invariant once the segment is stored behind the
bytes kept so far. -/
theorem inv_processRecv (s : RecvSession) {kept segment : List UInt8} {rest : List Frame}
    (hpos : 0 < segment.length) (hc : s.connected = true) (herr : s.errors = [])
    (hcap : s.recvBuffer.capacity = bufferSize)
    (wf : (s.recvBuffer.advanceHead segment.length).WellFormed)
    (hend : s.recvBuffer.tailPos + (s.recvBuffer.size + segment.length) ≤ s.recvBuffer.capacity)
    (hcont : (s.recvBuffer.advanceHead segment.length).contents = kept ++ segment)
    (hrest : frameBytes frames = s.handled ++ frameBytes rest)
    (hpre : kept ++ segment <+: (frameBytes rest).flatten) (accepted : Bool) :
    ∃ s', c.processRecv s segment.length accepted = some s' ∧
      Inv c frames (s.handled.flatten ++ kept ++ segment) s' := by
  have hfull : s.recvBuffer.size + segment.length ≤ s.recvBuffer.capacity := wf.size_le
  have hcap' : s.recvBuffer.capacity = 65536 := hcap
  -- the bytes consumed are those of the complete frames
  obtain ⟨hhandled, hcontents⟩ := completeFrames_step s.handled hpre
  generalize hdone : completeFrames (frameBytes rest) (kept ++ segment).length = done at *
  obtain ⟨hx, hlen, hk, hkept⟩ := onRecv_stored c s hcap wf hend hcont hpre hdone
  have hk' : (done.flatten.length : ℤ) ≤ s.recvBuffer.size + segment.length := by omega
  have hfits : (segment.length : ℤ) ≤ s.recvBuffer.getFreeSize := by
    rw [RingBuffer.getFreeSize]
    omega
  have hadv := RingBuffer.contents_advanceTail wf hend (Int.natCast_nonneg _) hk'
  have hcomp := RingBuffer.adjustPos_compacted (wf.advanceTail (Int.natCast_nonneg _) hk') hadv.2 (by
    show s.recvBuffer.size + segment.length - done.flatten.length < s.recvBuffer.capacity
    omega)
  refine ⟨_, class_processRecv_done c (by omega) hfits hx (Int.natCast_nonneg _) hk'
    accepted, ?_⟩
  apply inv_registerRecv
  · exact hc
  · rfl
  · exact herr
  · exact hcomp.wellFormed
  · exact hcomp.capacity_eq.trans hcap
  · exact hcomp.head_eq
  · rw [hrest]
    exact hhandled
  · rw [hcomp.contents_eq, hadv.1, hcont]
    exact hcontents

/-- The session whose posted window was filled with a segment. -/
def filled (s : RecvSession) (segment : List UInt8) : RecvSession :=
  { s with
    recvBuffer :=
      s.recvBuffer.withMemory (store s.recvBuffer.buffer s.recvBuffer.headPos segment) }

/-- A segment that fits the window is stored behind the bytes kept. -/
theorem filled_buffer (inv : Inv c frames xs s) {segment : List UInt8}
    (hle : segment.length ≤ s.recvBuffer.getChunkWriteSize) :
    ((filled s segment).recvBuffer.advanceHead segment.length).WellFormed ∧
    s.recvBuffer.tailPos + (s.recvBuffer.size + segment.length) ≤ s.recvBuffer.capacity ∧
    ((filled s segment).recvBuffer.advanceHead segment.length).contents =
      s.recvBuffer.contents ++ segment := by
  have wf := inv.wellFormed
  have hs := wf.size_nonneg
  have ht := wf.tail_nonneg
  have hhead := inv.head_eq
  rw [RingBuffer.getChunkWriteSize, if_pos (by omega)] at hle
  refine ⟨(wf.withMemory _).advanceHead (Int.natCast_nonneg segment.length) ?_, by omega,
    RingBuffer.contents_received wf hhead segment (by omega)⟩
  show (segment.length : ℤ) ≤ s.recvBuffer.capacity - s.recvBuffer.size
  omega

/-- The receive step keeps the invariant, whatever the segment. -/
theorem inv_step (inv : Inv c frames xs s) {r : Receive} (hfit : Fits s r)
    (hstream : xs ++ r.segment <+: (frameBytes frames).flatten) :
    ∃ s', step c s r = some s' ∧ Inv c frames (xs ++ r.segment) s' := by
  obtain ⟨window, hw, hpos, hle⟩ := hfit
  obtain ⟨hc, herr, rfl⟩ := inv.posted_eq window hw
  obtain ⟨rest, hrest⟩ := frames_left inv.handled_eq
  obtain ⟨wf, hend, hcont⟩ := filled_buffer inv hle
  have hstep : step c s r = c.processRecv (filled s r.segment) r.segment.length r.accepted := by
    simp only [step, filled, hw]
    exact if_neg (not_lt.mpr hle)
  rw [← inv.contents_eq, hrest, List.flatten_append, List.append_assoc] at hstream
  obtain ⟨s', hproc, inv'⟩ := inv_processRecv (filled s r.segment) hpos hc herr inv.capacity_eq wf
    hend hcont hrest (tail_of_append hstream) r.accepted
  rw [← inv.contents_eq]
  exact ⟨s', hstep.trans hproc, inv'⟩

/-- The first posting establishes the invariant. -/
theorem inv_start (c : SessionClass) (frames : List Frame) (memory : ℤ → UInt8) (accepted : Bool) :
    Inv c frames [] (start c memory accepted) := by
  apply inv_registerRecv
  · rfl
  · rfl
  · rfl
  · exact RingBuffer.new_wellFormed memory (by decide)
  · rfl
  · rfl
  · cases frames with
    | nil => rfl
    | cons f fs =>
      have hf := f.sizeOf_le
      have hpos : 0 < PacketHeader.sizeOf := by decide
      exact (completeFrames_cons_of_lt (frameBytes fs) (by rw [List.length_nil]; omega)).symm
  · rfl

/-- Every schedule of receives that fit is performed to its end and keeps the
invariant. -/
theorem inv_run (rs : List Receive) (inv : Inv c frames xs s)
    (hfit : StepsMeet (step c) Fits s rs)
    (hstream : xs ++ received rs <+: (frameBytes frames).flatten) :
    ∃ s', run (step c) s rs = some s' ∧ Inv c frames (xs ++ received rs) s' := by
  induction rs generalizing s xs with
  | nil => exact ⟨s, rfl, by simpa [received] using inv⟩
  | cons r rs ih =>
    have hsplit : xs ++ received (r :: rs) = xs ++ r.segment ++ received rs := by
      rw [received, List.map_cons, List.flatten_cons, List.append_assoc, received]
    rw [hsplit] at hstream ⊢
    obtain ⟨m, hm, inv'⟩ := inv_step inv hfit.1 ((List.prefix_append _ _).trans hstream)
    obtain ⟨s', hs', inv''⟩ := ih inv' (hfit.2 m hm) hstream
    exact ⟨s', run_cons_eq_some.mpr ⟨m, hm, hs'⟩, inv''⟩

end Invariant

/-- The session after a schedule of receives, whatever the segmentation was. -/
structure Reassembled (c : SessionClass) (frames : List Frame) (rs : List Receive)
    (s : RecvSession) : Prop where
  /-- Nothing was reported but a refused receive: no overflow, no read error. -/
  errors_eq : ∀ text ∈ s.errors, text = c.refusedText
  /-- The frames received completely were handed out, in order, each once. -/
  handled_eq : s.handled = completeFrames (frameBytes frames) (received rs).length
  /-- The unfinished rest is what the buffer holds. -/
  contents_eq : s.handled.flatten ++ s.recvBuffer.contents = received rs
  /-- Without a refusal the next receive is posted. -/
  posted_isSome : s.errors = [] → s.posted.isSome = true
  /-- A posted window is not empty. -/
  window_pos : ∀ window, s.posted = some window → 0 < window.length
  /-- A posted window is inside the buffer. -/
  window_inside : ∀ window, s.posted = some window →
    0 ≤ window.offset ∧ window.offset + window.length ≤ bufferSize
  /-- A posted window covers no cell of an unconsumed byte. -/
  window_free : ∀ window, s.posted = some window → ∀ i : ℕ, i < s.recvBuffer.size →
    ¬ (window.offset ≤ (s.recvBuffer.tailPos + i) % s.recvBuffer.capacity ∧
      (s.recvBuffer.tailPos + i) % s.recvBuffer.capacity < window.offset + window.length)

/-- Reassembly does not depend on the segmentation: for every stream of frames
and every way its bytes arrive in receives that fit the posted windows, either
session class processes every receive and has handed out exactly the frames
received completely. -/
theorem reassembly_segmentation_independent (c : SessionClass) (memory : ℤ → UInt8)
    (accepted : Bool) (frames : List Frame) (rs : List Receive)
    (hfit : StepsMeet (step c) Fits (start c memory accepted) rs)
    (hstream : received rs <+: (frameBytes frames).flatten) :
    ∃ s, run (step c) (start c memory accepted) rs = some s ∧ Reassembled c frames rs s := by
  obtain ⟨s, hs, inv⟩ := inv_run rs (inv_start c frames memory accepted) hfit
    (by rwa [List.nil_append])
  rw [List.nil_append] at inv
  refine ⟨s, hs, inv.errors_eq, inv.handled_eq, inv.contents_eq, inv.posted_isSome,
    fun _ hw => (window_free inv hw).1,
    fun _ hw => ⟨(window_free inv hw).2.1, (window_free inv hw).2.2.1⟩, ?_⟩
  rintro window hw i hi ⟨hlo, hhi⟩
  have hcell := (window_free inv hw).2.2.2 i hi
  have hwin := (window_free inv hw).2.2.1
  have ht := inv.wellFormed.tail_nonneg
  have hpos := (window_free inv hw).1
  have hcap := inv.capacity_eq
  rw [Int.emod_eq_of_lt (by omega) (by omega)] at hlo
  omega

/-- A packet of five bytes. -/
def helloFrame : Frame := .ofMessage [7] 1 (by decide)

/-- The packet cut inside its header. -/
def cutReceives : List Receive := [⟨[5, 0, 1], true⟩, ⟨[0, 7], true⟩]

/-- Both pieces fit the windows posted. -/
theorem cutReceives_fit :
    StepsMeet (step .iocp) Fits (start .iocp (fun _ => 0) true) cutReceives := by
  refine ⟨⟨⟨0, 65536⟩, rfl, by decide, by decide⟩, fun s hs => ⟨⟨⟨3, 65533⟩, ?_⟩, ?_⟩⟩
  · have hp : (step .iocp (start .iocp (fun _ => 0) true) ⟨[5, 0, 1], true⟩).map
        RecvSession.posted = some (some ⟨3, 65533⟩) := by decide
    rw [hs] at hp
    exact ⟨Option.some.inj hp, by decide, by decide⟩
  · exact fun _ _ => trivial

/-- The cut packet is reassembled. -/
theorem reassembly_of_cut : ∃ s, run (step .iocp) (start .iocp (fun _ => 0) true) cutReceives =
    some s ∧ Reassembled .iocp [helloFrame] cutReceives s :=
  reassembly_segmentation_independent .iocp (fun _ => 0) true [helloFrame] cutReceives
    cutReceives_fit (by decide)

end ReceivePath

end RioIocpServer
