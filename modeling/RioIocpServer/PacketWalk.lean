import Mathlib.Logic.Relation
import RioIocpServer.PacketHandler

/-!
# The walk of `OnRecv` over arbitrary bytes

Nothing is assumed of the received bytes. The size fields found on the way lead
from offset 0 to the offsets the loop of `OnRecv` stands at; a pass hands a packet
out exactly where a complete header announces a packet that has arrived. No size
field is checked from below. The loop ends unless a size of 0 is announced, and the
packets are longer than their headers unless a size below four is.
-/

namespace RioIocpServer

open CyclicMemory PacketHandler ReceivePath

/-- One pass of the loop of `OnRecv` of the class. -/
def SessionClass.nextPacket : SessionClass → (ℤ → UInt8) → ℤ → ℤ → Option ℕ
  | .rio => RioSession.nextPacket
  | .iocp => IocpSession.nextPacket

namespace PacketWalk

/-- The size field of the header at an offset. -/
def sizeAt (buffer : ℤ → UInt8) (pos : ℤ) : ℕ := (PacketHeader.read buffer pos).size.toNat

/-- A complete header whose packet has arrived completely. -/
structure Announced (buffer : ℤ → UInt8) (len pos : ℤ) : Prop where
  /-- The header is inside the data. -/
  header_le : pos + PacketHeader.sizeOf ≤ len
  /-- The packet is inside the data. -/
  packet_le : pos + sizeAt buffer pos ≤ len

instance (buffer : ℤ → UInt8) (len pos : ℤ) : Decidable (Announced buffer len pos) :=
  decidable_of_iff (pos + PacketHeader.sizeOf ≤ len ∧ pos + sizeAt buffer pos ≤ len)
    ⟨fun h => ⟨h.1, h.2⟩, fun h => ⟨h.1, h.2⟩⟩

/-- The second offset is right behind a packet announced at the first. -/
def Follows (buffer : ℤ → UInt8) (len pos pos' : ℤ) : Prop :=
  Announced buffer len pos ∧ pos' = pos + sizeAt buffer pos

/-- The size fields lead from the first offset to the second. -/
def Leads (buffer : ℤ → UInt8) (len : ℤ) : ℤ → ℤ → Prop :=
  Relation.ReflTransGen (Follows buffer len)

/-- Every packet announced on the way from an offset has at least the given size. -/
def SizesAtLeast (bound : ℕ) (buffer : ℤ → UInt8) (len start : ℤ) : Prop :=
  ∀ pos, Leads buffer len start pos → Announced buffer len pos → bound ≤ sizeAt buffer pos

/-- A call of `OnRecvPacket`. -/
structure RecvPacket where
  /-- Offset of the packet in the received bytes. -/
  pos : ℤ
  /-- Its length. -/
  len : ℕ
  deriving DecidableEq

/-- The calls of `OnRecvPacket` in the first passes of the loop. -/
def recvPackets (nextPacket : ℤ → Option ℕ) : ℕ → ℤ → List RecvPacket
  | 0, _ => []
  | passes + 1, processLen =>
    match nextPacket processLen with
    | none => []
    | some size => ⟨processLen, size⟩ :: recvPackets nextPacket passes (processLen + size)

section Walk

variable {c : SessionClass} {buffer : ℤ → UInt8} {len start pos pos' : ℤ} {bound : ℕ}

/-- The walk only goes forward. -/
theorem Leads.le (h : Leads buffer len start pos) : start ≤ pos := by
  induction h with
  | refl => exact le_rfl
  | tail _ hlast ih =>
    obtain ⟨-, rfl⟩ := hlast
    omega

/-- What holds of the packets ahead holds of those behind the next one. -/
theorem SizesAtLeast.next (h : SizesAtLeast bound buffer len start)
    (ha : Announced buffer len start) :
    SizesAtLeast bound buffer len (start + sizeAt buffer start) :=
  fun pos hpos => h pos (.head ⟨ha, rfl⟩ hpos)

/-- A smaller bound holds as well. -/
theorem SizesAtLeast.mono (h : SizesAtLeast bound buffer len start) {bound' : ℕ}
    (hle : bound' ≤ bound) : SizesAtLeast bound' buffer len start :=
  fun pos hlead ha => hle.trans (h pos hlead ha)

/-- The walk never leaves the data. -/
theorem Leads.bounds (h : Leads buffer len start pos) (h0 : 0 ≤ start) (h1 : start ≤ len) :
    0 ≤ pos ∧ pos ≤ len := by
  induction h with
  | refl => exact ⟨h0, h1⟩
  | tail _ hlast ih =>
    obtain ⟨ha, rfl⟩ := hlast
    exact ⟨by omega, ha.packet_le⟩

/-- A pass inside the data hands out the packet announced, in both classes: the
unsigned comparison of the one and the additional test of the other change
nothing. -/
theorem nextPacket_eq (c : SessionClass) (h0 : 0 ≤ pos) (h1 : pos ≤ len) (hlen : len < 2 ^ 31) :
    c.nextPacket buffer len pos =
      if Announced buffer len pos then some (sizeAt buffer pos) else none := by
  obtain ⟨start, rfl⟩ := Int.eq_ofNat_of_zero_le h0
  obtain ⟨n, hn⟩ := Int.eq_ofNat_of_zero_le (by omega : 0 ≤ len - start)
  have hpass : PassesAt (c.nextPacket buffer len) buffer start n := by
    cases c
    · exact RioSession.nextPacket_passes (by omega)
    · exact IocpSession.nextPacket_passes (by omega) hlen
  by_cases ha : Announced buffer len start
  · have hheader := ha.header_le
    have hpacket := ha.packet_le
    rw [if_pos ha]
    exact hpass.packet (by omega) (by rw [sizeAt] at hpacket; omega)
  · rw [if_neg ha]
    by_cases hheader : n < PacketHeader.sizeOf
    · exact hpass.break_header hheader
    · refine hpass.break_packet (by omega) (lt_of_not_ge fun hge => ha ⟨by omega, ?_⟩)
      rw [sizeAt]
      omega

/-- The packets handed out of a loop that has ended are the calls it made. -/
theorem onRecvLoop_packets {nextPacket : ℤ → Option ℕ} {fuel : ℕ} {k : ℤ}
    {packets : List (List UInt8)}
    (h : onRecvLoop nextPacket buffer fuel start = some (k, packets)) : packets =
      (recvPackets nextPacket fuel start).map fun call => load buffer call.pos call.len := by
  induction fuel generalizing start packets with
  | zero => cases h
  | succ fuel ih =>
    rw [onRecvLoop] at h
    rw [recvPackets]
    cases hn : nextPacket start with
    | none =>
      simp only [hn] at h
      cases h
      rfl
    | some size =>
      simp only [hn, Option.map_eq_some_iff] at h
      obtain ⟨⟨k', rest⟩, hrest, heq⟩ := h
      cases heq
      simp only [List.map_cons, ← ih hrest]

/-- Where no size on the way is 0 the loop ends inside the data, after at most one
pass for every byte left. -/
theorem onRecvLoop_ends (c : SessionClass) (fuel : ℕ) (h0 : 0 ≤ start) (h1 : start ≤ len)
    (hlen : len < 2 ^ 31) (hsizes : SizesAtLeast 1 buffer len start) (hfuel : len - start < fuel) :
    ∃ k packets, onRecvLoop (c.nextPacket buffer len) buffer fuel start = some (k, packets) ∧
      0 ≤ k ∧ k ≤ len := by
  induction fuel generalizing start with
  | zero => omega
  | succ fuel ih =>
    rw [onRecvLoop, nextPacket_eq c h0 h1 hlen]
    by_cases ha : Announced buffer len start
    · have hsize := hsizes start .refl ha
      have hpacket := ha.packet_le
      obtain ⟨k, packets, hloop, hk⟩ := ih (by omega) hpacket (hsizes.next ha) (by omega)
      refine ⟨k, load buffer start (sizeAt buffer start) :: packets, ?_, hk⟩
      rw [if_pos ha]
      simp only [hloop, Option.map_some]
    · rw [if_neg ha]
      exact ⟨start, [], rfl, h0, h1⟩

/-- A loop whose walk comes to a size of 0 is still running after any number of
passes. -/
theorem onRecvLoop_hangs (hlead : Leads buffer len start pos) (h0 : 0 ≤ start)
    (h1 : start ≤ len) (hlen : len < 2 ^ 31) (ha : Announced buffer len pos)
    (hz : sizeAt buffer pos = 0) (fuel : ℕ) :
    onRecvLoop (c.nextPacket buffer len) buffer fuel start = none := by
  induction hlead using Relation.ReflTransGen.head_induction_on generalizing fuel with
  | refl =>
    -- the pass hands out an empty packet and stays where it is
    induction fuel with
    | zero => rfl
    | succ fuel ih =>
      rw [onRecvLoop, nextPacket_eq c h0 h1 hlen, if_pos ha, hz]
      dsimp only
      rw [Nat.cast_zero, add_zero, ih, Option.map_none]
  | head hstep _ ih =>
    obtain ⟨hstart, rfl⟩ := hstep
    cases fuel with
    | zero => rfl
    | succ fuel =>
      rw [onRecvLoop, nextPacket_eq c h0 h1 hlen, if_pos hstart]
      dsimp only
      rw [ih (by omega) hstart.packet_le, Option.map_none]

end Walk

/-- The loop of `OnRecv` ends with a result inside the data. -/
def Terminates (c : SessionClass) (buffer : ℤ → UInt8) (len : ℤ) : Prop :=
  ∃ fuel k packets, onRecvLoop (c.nextPacket buffer len) buffer fuel 0 = some (k, packets) ∧
    0 ≤ k ∧ k ≤ len

/-- For every content of the buffer and every length, `OnRecv` of either class ends
with a result inside the data exactly if no header it comes to announces a size of
0. Sizes of one to three, which are shorter than the header, do not keep it from
ending. -/
theorem onRecv_terminates_iff (c : SessionClass) (buffer : ℤ → UInt8) {len : ℤ} (h0 : 0 ≤ len)
    (hlen : len < 2 ^ 31) : Terminates c buffer len ↔ SizesAtLeast 1 buffer len 0 := by
  constructor
  · rintro ⟨fuel, k, packets, hloop, -⟩ pos hlead ha
    by_contra hz
    rw [onRecvLoop_hangs hlead le_rfl h0 hlen ha (by omega) fuel] at hloop
    cases hloop
  · intro hsizes
    exact ⟨len.toNat + 1, onRecvLoop_ends c _ le_rfl h0 hlen hsizes (by omega)⟩

/-- The bytes of one complete packet. -/
def onePacket : ℤ → UInt8 := store (fun _ => 0) 0 helloFrame.bytes

/-- The only packet announced in them is the packet. -/
theorem onePacket_sizes : SizesAtLeast 5 onePacket 5 0 := by
  intro pos hlead ha
  have hpos : pos = 0 ∨ pos = 5 := by
    clear ha
    induction hlead with
    | refl => exact .inl rfl
    | tail _ hlast ih =>
      obtain ⟨ha, rfl⟩ := hlast
      rcases ih with rfl | rfl
      · exact .inr (by decide)
      · exact absurd ha (by decide)
  rcases hpos with rfl | rfl
  · decide
  · exact absurd ha (by decide)

/-- `OnRecv` ends on it. -/
theorem onePacket_terminates : Terminates .rio onePacket 5 :=
  (onRecv_terminates_iff .rio onePacket (by decide) (by decide)).mpr
    (onePacket_sizes.mono (by decide))

/-- Four bytes of 0 keep the loop of either class running: the packet they announce
ends where it starts. -/
theorem zero_header_hangs :
    ¬ Terminates .rio (fun _ => 0) 4 ∧ ¬ Terminates .iocp (fun _ => 0) 4 := by
  have hhang : ∀ c : SessionClass, ¬ Terminates c (fun _ => 0) 4 := by
    rintro c ⟨fuel, k, packets, hloop, -⟩
    have hnone := onRecvLoop_hangs (c := c) .refl le_rfl (by decide : (0 : ℤ) ≤ 4) (by decide)
      (by decide : Announced (fun _ => 0) 4 0) (by decide) fuel
    rw [hnone] at hloop
    cases hloop
  exact ⟨hhang .rio, hhang .iocp⟩

/-- The fuel of `OnRecv` is enough for every loop that ends. -/
theorem onRecv_isSome_iff (c : SessionClass) (buffer : ℤ → UInt8) {len : ℤ} (h0 : 0 ≤ len)
    (hlen : len < 2 ^ 31) : (c.onRecv buffer len).isSome = true ↔ Terminates c buffer len := by
  have heq : c.onRecv buffer len =
      onRecvLoop (c.nextPacket buffer len) buffer (len.toNat + 1) 0 := by
    cases c <;> rfl
  rw [heq]
  by_cases hsizes : SizesAtLeast 1 buffer len 0
  · obtain ⟨k, packets, hloop, hk⟩ := onRecvLoop_ends c (len.toNat + 1) le_rfl h0 hlen
      hsizes (by omega)
    exact ⟨fun _ => ⟨_, k, packets, hloop, hk⟩, fun _ => by rw [hloop, Option.isSome_some]⟩
  · have hnot := mt (onRecv_terminates_iff c buffer h0 hlen).mp hsizes
    simp only [SizesAtLeast, not_forall] at hsizes
    obtain ⟨pos, hlead, ha, hz⟩ := hsizes
    rw [onRecvLoop_hangs hlead le_rfl h0 hlen ha (by omega), Option.isSome_none]
    simp [hnot]

section Calls

variable {c : SessionClass} {buffer : ℤ → UInt8} {len start pos : ℤ} {call : RecvPacket}
  {passes : ℕ}

/-- Only packets announced on the way are handed out. -/
theorem of_mem_recvPackets (h0 : 0 ≤ start) (h1 : start ≤ len) (hlen : len < 2 ^ 31)
    (h : call ∈ recvPackets (c.nextPacket buffer len) passes start) :
    Leads buffer len start call.pos ∧ Announced buffer len call.pos ∧
      call.len = sizeAt buffer call.pos := by
  induction passes generalizing start with
  | zero => cases h
  | succ passes ih =>
    rw [recvPackets, nextPacket_eq c h0 h1 hlen] at h
    by_cases ha : Announced buffer len start
    · rw [if_pos ha] at h
      rcases List.mem_cons.mp h with rfl | hrest
      · exact ⟨.refl, ha, rfl⟩
      · obtain ⟨hlead, hcall⟩ := ih (by omega) ha.packet_le hrest
        exact ⟨.head ⟨ha, rfl⟩ hlead, hcall⟩
    · rw [if_neg ha] at h
      cases h

/-- Every packet announced on the way is handed out. -/
theorem mem_recvPackets (c : SessionClass) (hlead : Leads buffer len start pos) (h0 : 0 ≤ start)
    (h1 : start ≤ len) (hlen : len < 2 ^ 31) (ha : Announced buffer len pos) :
    ∃ passes, ⟨pos, sizeAt buffer pos⟩ ∈ recvPackets (c.nextPacket buffer len) passes start := by
  induction hlead using Relation.ReflTransGen.head_induction_on with
  | refl =>
    refine ⟨1, ?_⟩
    rw [recvPackets, nextPacket_eq c h0 h1 hlen, if_pos ha]
    exact List.mem_cons_self
  | head hstep _ ih =>
    obtain ⟨hstart, rfl⟩ := hstep
    obtain ⟨passes, hmem⟩ := ih (by omega) hstart.packet_le
    refine ⟨passes + 1, ?_⟩
    rw [recvPackets, nextPacket_eq c h0 h1 hlen, if_pos hstart]
    exact List.mem_cons_of_mem _ hmem

/-- The packets handed out follow each other without overlap, whatever their sizes. -/
theorem recvPackets_ascending (h0 : 0 ≤ start) (h1 : start ≤ len) (hlen : len < 2 ^ 31) :
    (recvPackets (c.nextPacket buffer len) passes start).Pairwise
      fun call next : RecvPacket => call.pos + call.len ≤ next.pos := by
  induction passes generalizing start with
  | zero => exact List.Pairwise.nil
  | succ passes ih =>
    rw [recvPackets, nextPacket_eq c h0 h1 hlen]
    by_cases ha : Announced buffer len start
    · rw [if_pos ha]
      refine List.Pairwise.cons (fun next hnext => ?_) (ih (by omega) ha.packet_le)
      exact (of_mem_recvPackets (by omega) ha.packet_le hlen hnext).1.le
    · rw [if_neg ha]
      exact List.Pairwise.nil

end Calls

section Agreement

variable {nextPacket nextPacket' : ℤ → Option ℕ} {inside : ℤ → Prop} {pos : ℤ}

/-- Two loops whose passes agree at every offset of a set that the passes do not leave
make the same calls. -/
theorem recvPackets_congr (hagree : ∀ pos, inside pos → nextPacket pos = nextPacket' pos)
    (hkept : ∀ pos size, inside pos → nextPacket pos = some size → inside (pos + size))
    (hpos : inside pos) (passes : ℕ) :
    recvPackets nextPacket passes pos = recvPackets nextPacket' passes pos := by
  induction passes generalizing pos with
  | zero => rfl
  | succ passes ih =>
    rw [recvPackets, recvPackets, ← hagree pos hpos]
    cases hn : nextPacket pos with
    | none => rfl
    | some size =>
      dsimp only
      rw [ih (hkept pos size hpos hn)]

/-- They also end after the same number of passes, with the same result. -/
theorem onRecvLoop_congr (hagree : ∀ pos, inside pos → nextPacket pos = nextPacket' pos)
    (hkept : ∀ pos size, inside pos → nextPacket pos = some size → inside (pos + size))
    (buffer : ℤ → UInt8) (hpos : inside pos) (passes : ℕ) :
    onRecvLoop nextPacket buffer passes pos = onRecvLoop nextPacket' buffer passes pos := by
  induction passes generalizing pos with
  | zero => rfl
  | succ passes ih =>
    rw [onRecvLoop, onRecvLoop, ← hagree pos hpos]
    cases hn : nextPacket pos with
    | none => rfl
    | some size =>
      dsimp only
      rw [ih (hkept pos size hpos hn)]

/-- `OnRecv` of two classes does the same, pass by pass. -/
structure ExtractorsAgree (c c' : SessionClass) (buffer : ℤ → UInt8) (len : ℤ) : Prop where
  /-- The first passes make the same calls of `OnRecvPacket`, however many they are. -/
  calls_eq : ∀ passes, recvPackets (c.nextPacket buffer len) passes 0 =
    recvPackets (c'.nextPacket buffer len) passes 0
  /-- The loops are both still running after them, or have both ended with the same value
  and have handed out the same bytes. -/
  result_eq : ∀ passes, onRecvLoop (c.nextPacket buffer len) buffer passes 0 =
    onRecvLoop (c'.nextPacket buffer len) buffer passes 0

/-- For every content of the buffer and every length the extractors of the two classes
agree, also where their loops do not end. No pass leaves the data, and there the two make
the same tests. -/
theorem extractors_agree (buffer : ℤ → UInt8) {len : ℤ} (h0 : 0 ≤ len) (hlen : len < 2 ^ 31) :
    ExtractorsAgree .rio .iocp buffer len := by
  have hagree : ∀ pos, 0 ≤ pos ∧ pos ≤ len → SessionClass.nextPacket .rio buffer len pos =
      SessionClass.nextPacket .iocp buffer len pos := by
    rintro pos ⟨hle, hge⟩
    rw [nextPacket_eq .rio hle hge hlen, nextPacket_eq .iocp hle hge hlen]
  have hkept : ∀ (pos : ℤ) (size : ℕ), 0 ≤ pos ∧ pos ≤ len →
      SessionClass.nextPacket .rio buffer len pos = some size →
        0 ≤ pos + size ∧ pos + size ≤ len := by
    rintro pos size ⟨hle, hge⟩ hn
    rw [nextPacket_eq .rio hle hge hlen] at hn
    split at hn
    · rename_i ha
      cases hn
      exact ⟨by omega, ha.packet_le⟩
    · cases hn
  exact ⟨recvPackets_congr hagree hkept ⟨le_rfl, h0⟩,
    onRecvLoop_congr hagree hkept buffer ⟨le_rfl, h0⟩⟩

/-- They agree on four bytes of 0, which keep both loops running. -/
theorem extractors_agree_zero_header : ExtractorsAgree .rio .iocp (fun _ => 0) 4 :=
  extractors_agree (fun _ => 0) (by decide) (by decide)

end Agreement

/-- `len - sizeof(PacketHeader)` as an argument of type `int`; the subtraction is one
of 64-bit unsigned values. -/
def payloadSize (len : ℤ) : ℤ := toInt ((len - PacketHeader.sizeOf) % 2 ^ 64)

/-- The arguments of a call of `ParseFromArray`. -/
structure ParseCall where
  /-- Offset of the data. -/
  data : ℤ
  /-- The size. -/
  size : ℤ
  deriving DecidableEq

/-- What each of the four handlers parses of the packet it is given, behind the check
of the size field. -/
def handlerParse (buffer : ℤ → UInt8) (call : RecvPacket) : Option ParseCall :=
  if sizeAt buffer call.pos > call.len then none
  else some ⟨call.pos + PacketHeader.sizeOf, payloadSize call.len⟩

/-- The payload size of a packet that holds its header. -/
theorem payloadSize_of_le {n : ℤ} (h0 : PacketHeader.sizeOf ≤ n) (h1 : n < 2 ^ 31) :
    payloadSize n = n - PacketHeader.sizeOf := by
  rw [payloadSize, toInt, Int.emod_eq_of_lt (by omega) (by omega)]
  exact Int.bmod_eq_of_le (by omega) (by omega)

/-- The payload size of a packet that is shorter than its header is negative. -/
theorem payloadSize_of_lt {n : ℤ} (h0 : 0 ≤ n) (h1 : n < PacketHeader.sizeOf) :
    payloadSize n < 0 := by
  rw [PacketHeader.sizeOf] at h1
  obtain rfl | rfl | rfl | rfl : n = 0 ∨ n = 1 ∨ n = 2 ∨ n = 3 := by omega
  all_goals decide

/-- The bytes behind the header of a whole packet are those the handler parses. -/
theorem load_payload (buffer : ℤ → UInt8) {call : RecvPacket} (h0 : PacketHeader.sizeOf ≤ call.len)
    (h1 : call.len < 2 ^ 31) : (load buffer call.pos call.len).drop PacketHeader.sizeOf =
      load buffer (call.pos + PacketHeader.sizeOf) (payloadSize call.len).toNat := by
  rw [drop_load _ _ h0, payloadSize_of_le (by omega) (by omega)]
  congr 1
  omega

/-- Every packet handed out is a whole frame inside the data, behind the one before
it, and its handler parses a payload inside it. -/
structure WholeFrames (c : SessionClass) (buffer : ℤ → UInt8) (len : ℤ) : Prop where
  /-- No packet is shorter than its header. -/
  header_le : ∀ passes, ∀ call ∈ recvPackets (c.nextPacket buffer len) passes 0,
    PacketHeader.sizeOf ≤ call.len
  /-- Every packet is inside the data. -/
  inside : ∀ passes, ∀ call ∈ recvPackets (c.nextPacket buffer len) passes 0,
    0 ≤ call.pos ∧ call.pos + call.len ≤ len
  /-- The packets are disjoint and in order. -/
  ascending : ∀ passes, (recvPackets (c.nextPacket buffer len) passes 0).Pairwise
    fun call next : RecvPacket => call.pos + call.len ≤ next.pos
  /-- The payload has a size and is inside its packet. -/
  parsed : ∀ passes, ∀ call ∈ recvPackets (c.nextPacket buffer len) passes 0,
    ∀ parse, handlerParse buffer call = some parse →
      0 ≤ parse.size ∧ call.pos ≤ parse.data ∧ parse.data + parse.size ≤ call.pos + call.len

/-- For every content of the buffer and every length, the packets `OnRecv` of either
class hands out are whole frames exactly if no packet it comes to announces a size
below that of the header. -/
theorem wholeFrames_iff (c : SessionClass) (buffer : ℤ → UInt8) {len : ℤ} (h0 : 0 ≤ len)
    (hlen : len < 2 ^ 31) :
    WholeFrames c buffer len ↔ SizesAtLeast PacketHeader.sizeOf buffer len 0 := by
  constructor
  · intro h pos hlead ha
    obtain ⟨passes, hmem⟩ := mem_recvPackets c hlead le_rfl h0 hlen ha
    exact h.header_le passes _ hmem
  · intro hsizes
    have hcall := fun passes (call : RecvPacket)
        (hmem : call ∈ recvPackets (c.nextPacket buffer len) passes 0) =>
      of_mem_recvPackets le_rfl h0 hlen hmem
    have hsize : ∀ passes, ∀ call ∈ recvPackets (c.nextPacket buffer len) passes 0,
        PacketHeader.sizeOf ≤ call.len := by
      intro passes call hmem
      obtain ⟨hlead, ha, hn⟩ := hcall passes call hmem
      exact hn ▸ hsizes _ hlead ha
    have hinside : ∀ passes, ∀ call ∈ recvPackets (c.nextPacket buffer len) passes 0,
        0 ≤ call.pos ∧ call.pos + call.len ≤ len := by
      intro passes call hmem
      obtain ⟨hlead, ha, hn⟩ := hcall passes call hmem
      exact ⟨(hlead.bounds le_rfl h0).1, hn ▸ ha.packet_le⟩
    refine ⟨hsize, hinside, fun _ => recvPackets_ascending le_rfl h0 hlen, ?_⟩
    intro passes call hmem parse hparse
    obtain ⟨-, -, hn⟩ := hcall passes call hmem
    have hheader := hsize passes call hmem
    have hpacket := hinside passes call hmem
    rw [handlerParse, if_neg (by omega)] at hparse
    cases hparse
    dsimp only
    rw [payloadSize_of_le (by omega) (by omega)]
    omega

/-- The one packet is handed out as a whole frame. -/
theorem onePacket_whole : WholeFrames .iocp onePacket 5 :=
  (wholeFrames_iff .iocp onePacket (by decide) (by decide)).mpr
    (onePacket_sizes.mono (by decide))

/-- A packet handed out that is shorter than its header is parsed with a negative
size. -/
theorem handlerParse_short {c : SessionClass} {buffer : ℤ → UInt8} {len : ℤ} {passes : ℕ}
    {call : RecvPacket} (h0 : 0 ≤ len) (hlen : len < 2 ^ 31)
    (hmem : call ∈ recvPackets (c.nextPacket buffer len) passes 0)
    (hshort : call.len < PacketHeader.sizeOf) :
    ∃ parse, handlerParse buffer call = some parse ∧ parse.size < 0 := by
  obtain ⟨-, -, hn⟩ := of_mem_recvPackets le_rfl h0 hlen hmem
  refine ⟨⟨call.pos + PacketHeader.sizeOf, payloadSize call.len⟩, ?_, ?_⟩
  · rw [handlerParse, if_neg (by omega)]
  · exact payloadSize_of_lt (by omega) (by omega)

/-- A header alone that announces two bytes. -/
def shortPacket : ℤ → UInt8 := store (fun _ => 0) 0 [2, 0, 0, 0]

/-- Its first two bytes are handed out as a packet, and the handler of `C2S_LOGIN`
parses minus two bytes behind the data. -/
theorem shortPacket_not_whole : ¬ WholeFrames .rio shortPacket 4 ∧
    ¬ WholeFrames .iocp shortPacket 4 ∧ handlerParse shortPacket ⟨0, 2⟩ = some ⟨4, -2⟩ := by
  have hshort : ∀ c : SessionClass, ¬ WholeFrames c shortPacket 4 := by
    intro c h
    obtain ⟨passes, hmem⟩ := mem_recvPackets c (.refl : Leads shortPacket 4 0 0) le_rfl
      (by decide) (by decide) (by decide)
    exact absurd (h.header_le passes _ hmem) (by decide)
  exact ⟨hshort .rio, hshort .iocp, by decide⟩

end PacketWalk

end RioIocpServer
