import RioIocpServer.FrameStream
import RioIocpServer.CyclicMemory

/-!
# Packet extraction from received bytes

`OnRecv` of both session classes walks over the received bytes, reads the
header in front and hands a packet out when all of it has arrived. The walk is
a loop with fuel of one more than the number of bytes; `none` is a loop that is
still running then, which a header of size 0 causes. On a prefix of a stream of
frames the walk ends and hands out the complete frames.
-/

namespace RioIocpServer

open CyclicMemory FrameStream

/-- The packed header in front of every packet. -/
structure PacketHeader where
  /-- Size of the packet, the header included. -/
  size : UInt16
  /-- Protocol id. -/
  id : UInt16
  deriving DecidableEq

namespace PacketHeader

/-- A 16-bit value stored with its low byte first. -/
def unsignedShort (lo hi : UInt8) : UInt16 := lo.toUInt16 ||| (hi.toUInt16 <<< 8)

/-- The header in the first bytes; missing bytes never occur. -/
def ofBytes : List UInt8 → PacketHeader
  | a :: b :: c :: d :: _ => ⟨unsignedShort a b, unsignedShort c d⟩
  | _ => ⟨0, 0⟩

/-- `sizeof(PacketHeader)`. -/
def sizeOf : ℕ := 4

/-- The header at an offset. -/
def read (buffer : ℤ → UInt8) (pos : ℤ) : PacketHeader := ofBytes (load buffer pos sizeOf)

/-- Only the first four bytes are read. -/
theorem ofBytes_take {xs : List UInt8} (h : sizeOf ≤ xs.length) :
    ofBytes (xs.take sizeOf) = ofBytes xs := by
  rw [sizeOf] at *
  match xs with
  | _ :: _ :: _ :: _ :: _ => rfl
  | [] | [_] | [_, _] | [_, _, _] => simp at h

/-- The header as it is stored. -/
def toBytes (h : PacketHeader) : List UInt8 :=
  [h.size.toUInt8, (h.size >>> 8).toUInt8, h.id.toUInt8, (h.id >>> 8).toUInt8]

/-- A 16-bit value is put together from its bytes. -/
theorem unsignedShort_bytes (x : UInt16) : unsignedShort x.toUInt8 (x >>> 8).toUInt8 = x := by
  have hx : x.toNat < 65536 := x.toNat_lt
  have hshift : (x >>> 8).toNat = x.toNat / 256 := by
    rw [UInt16.toNat_shiftRight]
    exact Nat.shiftRight_eq_div_pow _ 8
  have hlo : x.toNat % 256 < 2 ^ 8 := Nat.mod_lt _ (by decide)
  have hhi : x.toNat / 256 % 256 = x.toNat / 256 := Nat.mod_eq_of_lt (by omega)
  have hmod : (x.toNat / 256) <<< 8 % 65536 = (x.toNat / 256) <<< 8 :=
    Nat.mod_eq_of_lt (by rw [Nat.shiftLeft_eq]; omega)
  apply UInt16.toNat_inj.mp
  calc
    _ = x.toNat % 256 ||| (x.toNat / 256 % 256) <<< 8 % 65536 := by
      simp [unsignedShort, hshift]
    _ = (x.toNat / 256) <<< 8 ||| x.toNat % 256 := by rw [hhi, hmod, Nat.or_comm]
    _ = x.toNat := by
      rw [← Nat.shiftLeft_add_eq_or_of_lt hlo, Nat.shiftLeft_eq]
      omega

/-- A stored header is read back. -/
theorem ofBytes_toBytes (h : PacketHeader) (rest : List UInt8) :
    ofBytes (h.toBytes ++ rest) = h := by
  simp only [toBytes, List.cons_append, ofBytes, unsignedShort_bytes]

end PacketHeader

/-- `_CreateNetBuffer`: the serialized message behind its header, whose size
field is the packet size cut to 16 bits. -/
def createNetBuffer (payload : List UInt8) (pktId : UInt16) : List UInt8 :=
  let packetSize := payload.length + PacketHeader.sizeOf
  PacketHeader.toBytes ⟨UInt16.ofNat packetSize, pktId⟩ ++ payload

/-- A packet is its message and four bytes longer. -/
@[simp] theorem createNetBuffer_length (payload : List UInt8) (pktId : UInt16) :
    (createNetBuffer payload pktId).length = payload.length + 4 := by
  simp [createNetBuffer, PacketHeader.toBytes]

/-- A packet whose header announces its own length. -/
structure Frame where
  /-- The bytes, the header included. -/
  bytes : List UInt8
  /-- The header is complete. -/
  sizeOf_le : PacketHeader.sizeOf ≤ bytes.length
  /-- The announced size is the length. -/
  size_eq : (PacketHeader.ofBytes bytes).size.toNat = bytes.length

/-- No frame is longer than a 16-bit size can announce. -/
theorem Frame.length_lt (f : Frame) : f.bytes.length < 65536 := by
  rw [← f.size_eq]
  exact UInt16.toNat_lt _

/-- A packet that a 16-bit size can announce is a frame. -/
def Frame.ofMessage (payload : List UInt8) (pktId : UInt16) (h : payload.length < 65532) :
    Frame where
  bytes := createNetBuffer payload pktId
  sizeOf_le := by
    rw [createNetBuffer_length, PacketHeader.sizeOf]
    omega
  size_eq := by
    rw [createNetBuffer_length, createNetBuffer, PacketHeader.ofBytes_toBytes]
    exact UInt16.toNat_ofNat_of_lt' (by rw [PacketHeader.sizeOf, UInt16.size]; omega)

/-- One pass of the loop of `RioSession::OnRecv`: the size of the packet at
`processLen`, or a break. -/
def RioSession.nextPacket (buffer : ℤ → UInt8) (len processLen : ℤ) : Option ℕ :=
  if processLen ≥ len then none
  else if len - processLen < PacketHeader.sizeOf then none
  else
    let header := PacketHeader.read buffer processLen
    if len - processLen < header.size.toNat then none else some header.size.toNat

/-- One pass of the loop of `IocpSession::OnRecv`; the comparison with `sizeof`
is one of 64-bit unsigned values. -/
def IocpSession.nextPacket (buffer : ℤ → UInt8) (len processLen : ℤ) : Option ℕ :=
  let dataSize := len - processLen
  if dataSize % 2 ^ 64 < PacketHeader.sizeOf then none
  else
    let header := PacketHeader.read buffer processLen
    if dataSize < header.size.toNat then none else some header.size.toNat

/-- The loop of `OnRecv`: the final `processLen` and the bytes of the packets
handed to `OnRecvPacket`. -/
def onRecvLoop (nextPacket : ℤ → Option ℕ) (buffer : ℤ → UInt8) :
    ℕ → ℤ → Option (ℤ × List (List UInt8))
  | 0, _ => none
  | fuel + 1, processLen =>
    match nextPacket processLen with
    | none => some (processLen, [])
    | some size => (onRecvLoop nextPacket buffer fuel (processLen + size)).map fun result =>
        (result.1, load buffer processLen size :: result.2)

/-- `RioSession::OnRecv`. -/
def RioSession.onRecv (buffer : ℤ → UInt8) (len : ℤ) : Option (ℤ × List (List UInt8)) :=
  onRecvLoop (RioSession.nextPacket buffer len) buffer (len.toNat + 1) 0

/-- `IocpSession::OnRecv`. -/
def IocpSession.onRecv (buffer : ℤ → UInt8) (len : ℤ) : Option (ℤ × List (List UInt8)) :=
  onRecvLoop (IocpSession.nextPacket buffer len) buffer (len.toNat + 1) 0

section Passes

variable {buffer : ℤ → UInt8} {len : ℤ} {processLen n : ℕ}

/-- What a pass of either loop does while `n` bytes remain. -/
structure PassesAt (nextPacket : ℤ → Option ℕ) (buffer : ℤ → UInt8) (processLen n : ℕ) :
    Prop where
  /-- An incomplete header ends the loop. -/
  break_header : n < PacketHeader.sizeOf → nextPacket processLen = none
  /-- An incomplete packet ends the loop. -/
  break_packet : PacketHeader.sizeOf ≤ n → n < (PacketHeader.read buffer processLen).size.toNat →
    nextPacket processLen = none
  /-- A complete packet is handed out. -/
  packet : PacketHeader.sizeOf ≤ n → (PacketHeader.read buffer processLen).size.toNat ≤ n →
    nextPacket processLen = some (PacketHeader.read buffer processLen).size.toNat

/-- The test `processLen >= len` of the RIO session only ends loops that the
header test ends as well. -/
theorem RioSession.nextPacket_passes (h : len = processLen + n) :
    PassesAt (RioSession.nextPacket buffer len) buffer processLen n := by
  have hpos : 0 < PacketHeader.sizeOf := by decide
  constructor <;> intros <;> simp only [RioSession.nextPacket] <;> split
  · rfl
  · rw [if_pos (by omega)]
  · rfl
  · rw [if_neg (by omega), if_pos (by omega)]
  · omega
  · rw [if_neg (by omega), if_neg (by omega)]

/-- The unsigned comparison of the IOCP session is the plain one, because
`processLen` never passes the received length. -/
theorem IocpSession.nextPacket_passes (h : len = processLen + n) (hlen : len < 2 ^ 31) :
    PassesAt (IocpSession.nextPacket buffer len) buffer processLen n := by
  have hmod : (len - processLen) % 2 ^ 64 = n := by
    rw [h, add_sub_cancel_left]
    exact Int.emod_eq_of_lt (by omega) (by omega)
  constructor <;> intros <;> simp only [IocpSession.nextPacket, hmod]
  · rw [if_pos (by omega)]
  · rw [if_neg (by omega), if_pos (by omega)]
  · rw [if_neg (by omega), if_neg (by omega)]

end Passes

section Extraction

variable {buffer : ℤ → UInt8} {nextPacket : ℤ → Option ℕ}

/-- The bytes a list of frames is sent as. -/
def frameBytes (frames : List Frame) : List (List UInt8) := frames.map Frame.bytes

/-- A frame received completely at an offset is read back from there. -/
theorem load_of_stream {f : Frame} {fs : List Frame} {pos : ℤ} {n k : ℕ} (hk : k ≤ f.bytes.length)
    (hn : k ≤ n) (h : load buffer pos n <+: (frameBytes (f :: fs)).flatten) :
    load buffer pos k = f.bytes.take k := by
  have hp : load buffer pos k <+: (frameBytes (f :: fs)).flatten := by
    rw [← take_load buffer pos hn]
    exact (List.take_prefix _ _).trans h
  rw [List.prefix_iff_eq_take, load_length, frameBytes, List.map_cons, List.flatten_cons,
    List.take_append_of_le_length hk] at hp
  exact hp

/-- The header in front of a stream prefix announces the first frame. -/
theorem read_of_stream {f : Frame} {fs : List Frame} {pos : ℤ} {n : ℕ}
    (hn : PacketHeader.sizeOf ≤ n) (h : load buffer pos n <+: (frameBytes (f :: fs)).flatten) :
    (PacketHeader.read buffer pos).size.toNat = f.bytes.length := by
  rw [PacketHeader.read, load_of_stream f.sizeOf_le hn h, PacketHeader.ofBytes_take f.sizeOf_le]
  exact f.size_eq

/-- On a prefix of a stream of frames the loop ends behind the complete frames
and has handed out exactly these. -/
theorem onRecvLoop_eq (fs : List Frame) {total processLen n fuel : ℕ}
    (hpass : ∀ processLen n, processLen + n = total → PassesAt nextPacket buffer processLen n)
    (htotal : processLen + n = total) (hfuel : n < fuel)
    (h : load buffer processLen n <+: (frameBytes fs).flatten) :
    onRecvLoop nextPacket buffer fuel processLen =
      some ((processLen + (completeFrames (frameBytes fs) n).flatten.length : ℤ),
        completeFrames (frameBytes fs) n) := by
  have hat := hpass processLen n htotal
  obtain ⟨fuel, rfl⟩ := Nat.exists_eq_succ_of_ne_zero (by omega : fuel ≠ 0)
  induction fs generalizing processLen n fuel with
  | nil =>
    have hz : n = 0 := by simpa [frameBytes] using h.length_le
    rw [onRecvLoop, hat.break_header (by rw [hz]; decide)]
    simp [frameBytes]
  | cons f fs ih =>
    have hlen := f.sizeOf_le
    have hcons : frameBytes (f :: fs) = f.bytes :: frameBytes fs := rfl
    by_cases hheader : n < PacketHeader.sizeOf
    · rw [onRecvLoop, hat.break_header hheader, hcons, completeFrames_cons_of_lt _ (by omega)]
      simp
    · have hsize := read_of_stream (not_lt.mp hheader) h
      by_cases hpacket : n < f.bytes.length
      · rw [onRecvLoop, hat.break_packet (not_lt.mp hheader) (by omega), hcons,
          completeFrames_cons_of_lt _ hpacket]
        simp
      · -- the first frame is complete: the induction is on the frames behind it
        have hload : load buffer processLen f.bytes.length = f.bytes := by
          rw [load_of_stream le_rfl (not_lt.mp hpacket) h, List.take_length]
        have hsplit : load buffer processLen n = f.bytes ++
            load buffer (processLen + f.bytes.length : ℕ) (n - f.bytes.length) := by
          rw [← hload, load_length, Nat.cast_add, ← load_add, Nat.add_sub_cancel' (by omega)]
        have hrest : load buffer (processLen + f.bytes.length : ℕ) (n - f.bytes.length) <+:
            (frameBytes fs).flatten := by
          rw [hsplit, hcons, List.flatten_cons] at h
          exact tail_of_append h
        have hpos : 0 < PacketHeader.sizeOf := by decide
        obtain ⟨fuel, rfl⟩ := Nat.exists_eq_succ_of_ne_zero (by omega : fuel ≠ 0)
        have hnext := ih (by omega) hrest (hpass _ _ (by omega)) fuel (by omega)
        rw [Nat.cast_add] at hnext
        rw [onRecvLoop, hat.packet (not_lt.mp hheader) (by omega), hsize, hcons,
          completeFrames_cons_of_le _ (by omega)]
        dsimp only
        rw [hnext, Option.map_some, hload, List.flatten_cons, List.length_append, Nat.cast_add,
          add_assoc]

/-- Packet extraction of either session class: on a prefix of a stream of
frames it ends, consumes the complete frames and hands out exactly these. -/
structure Extracts (onRecv : (ℤ → UInt8) → ℤ → Option (ℤ × List (List UInt8))) : Prop where
  /-- The result on a prefix of `n` bytes. -/
  result : ∀ {buffer : ℤ → UInt8} {fs : List Frame} {n : ℕ}, n < 2 ^ 31 →
    load buffer 0 n <+: (frameBytes fs).flatten →
    onRecv buffer n = some (((completeFrames (frameBytes fs) n).flatten.length : ℤ),
      completeFrames (frameBytes fs) n)

/-- `OnRecv` of the RIO session extracts the complete frames. -/
theorem RioSession.onRecv_extracts : Extracts RioSession.onRecv := by
  constructor
  intro buffer fs n _ h
  have hpass : ∀ processLen m : ℕ, processLen + m = n →
      PassesAt (RioSession.nextPacket buffer n) buffer processLen m :=
    fun _ _ ht => RioSession.nextPacket_passes (by omega)
  have hloop := onRecvLoop_eq fs hpass (zero_add n) (Nat.lt_succ_self n) h
  rw [Nat.cast_zero, zero_add] at hloop
  rw [RioSession.onRecv, Int.toNat_natCast]
  exact hloop

/-- `OnRecv` of the IOCP session extracts the complete frames. -/
theorem IocpSession.onRecv_extracts : Extracts IocpSession.onRecv := by
  constructor
  intro buffer fs n hn h
  have hpass : ∀ processLen m : ℕ, processLen + m = n →
      PassesAt (IocpSession.nextPacket buffer n) buffer processLen m :=
    fun _ _ ht => IocpSession.nextPacket_passes (by omega) (by omega)
  have hloop := onRecvLoop_eq fs hpass (zero_add n) (Nat.lt_succ_self n) h
  rw [Nat.cast_zero, zero_add] at hloop
  rw [IocpSession.onRecv, Int.toNat_natCast]
  exact hloop

end Extraction

end RioIocpServer
