import RioIocpServer.ReceivePath
import RioIocpServer.ServerRun

/-!
# Packets behind a disconnect

`ProcessRecv` and `OnRecv` of a RIO session in single steps, one for each pass of the
loop: a handler may call `Disconnect` in the middle of it, and another thread at any
time. The application, its handler and its `OnDisconnected` are parameters, and its
state may change between two steps. Only the first call of `Disconnect` does anything, so
a handler is cut at its first call.
-/

namespace RioIocpServer

open CyclicMemory FrameStream TransitionSystem

namespace RingBuffer

/-- A pass of the loop of `RioSession::OnRecv` over the stored bytes. -/
def nextPacket (rb : RingBuffer UInt8) (processLen : ℤ) : Option ℕ :=
  RioSession.nextPacket (fun i => rb.buffer (rb.getReadOffset + i)) rb.getDataSize processLen

/-- The bytes handed to `OnRecvPacket` in that pass. -/
def packet (rb : RingBuffer UInt8) (processLen : ℤ) (size : ℕ) : List UInt8 :=
  load (fun i => rb.buffer (rb.getReadOffset + i)) processLen size

end RingBuffer

namespace RecvTeardown

/-- What the application code redefines. -/
structure Application (A I : Type*) where
  /-- `OnRecvPacket` with what it gets from outside, up to its first call of `Disconnect`
  and with what follows that call, or up to its end; `none` gets to neither. -/
  onRecvPacket : I → A → List UInt8 → Option (A × Option (A → A))
  /-- `OnDisconnected`. -/
  onDisconnected : A → A

/-- Where the receiving thread stands. -/
inductive Phase (A : Type*) where
  /-- Outside of `ProcessRecv`. -/
  | idle
  /-- In front of a pass of the loop of `OnRecv`. -/
  | onRecv (processLen : ℤ)
  /-- In a handler that calls `Disconnect` next, and where the loop goes on. -/
  | handler (rest : A → A) (processLen : ℤ)
  /-- Behind an error, in front of `Disconnect`. -/
  | failed
  /-- The test `IsConnected` of `RegisterRecv`. -/
  | register
  /-- `RIOReceive`. -/
  | receive

/-- A session and the state of the application. -/
structure State (A : Type*) where
  /-- `m_bConnected`. -/
  connected : Bool
  /-- Another thread has exchanged `m_bConnected` and calls `SetLinger` next. -/
  closing : Bool
  /-- The buffer received into. -/
  recvBuffer : RingBuffer UInt8
  /-- The receive in flight. -/
  posted : Option Window
  /-- The receiving thread. -/
  phase : Phase A
  /-- The application. -/
  app : A
  /-- History: texts given to `HandleError`. -/
  errors : List String
  /-- History: `Disconnect` has run `OnDisconnected`. -/
  tornDown : Bool
  /-- History: the packets given to `OnRecvPacket` after that. -/
  late : List (List UInt8)

/-- The steps. -/
inductive Action (A I : Type*) where
  /-- A receive completes; `ProcessRecv` comes to `OnRecv`. -/
  | complete (segment : List UInt8)
  /-- A pass of the loop, and what follows the last one. -/
  | pass (inputs : I)
  /-- The receiving thread calls `Disconnect`; the answer of `SetLinger`. -/
  | leave (linger : Bool)
  /-- The test of `RegisterRecv`. -/
  | register
  /-- The answer of `RIOReceive`. -/
  | receive (accepted : Bool)
  /-- Another thread calls `Disconnect`: `m_bConnected.exchange(false)`. -/
  | disconnect
  /-- The rest of that call. -/
  | close (linger : Bool)
  /-- The rest of the application changes its state. -/
  | elsewhere (app : A)

section System

variable {A I : Type*}

/-- A session in front of `RegisterRecv` of its `ProcessConnect`. -/
def init (memory : ℤ → UInt8) (app : A) : State A where
  connected := true
  closing := false
  recvBuffer := RingBuffer.new memory ReceivePath.bufferSize
  posted := none
  phase := .register
  app := app
  errors := []
  tornDown := false
  late := []

/-- `HandleError`. -/
def State.handleError (s : State A) (text : String) : State A :=
  { s with errors := s.errors ++ [text] }

/-- `HandleError` in front of a `Disconnect`. -/
def State.fail (s : State A) (text : String) : State A :=
  { s.handleError text with phase := .failed }

/-- `Disconnect` behind the exchange. -/
def State.close (app : Application A I) (s : State A) (linger : Bool) : State A :=
  if linger = true then { s with app := app.onDisconnected s.app, tornDown := true }
  else s.handleError "SetLinger"

/-- `Disconnect`. -/
def State.disconnect (app : Application A I) (s : State A) (linger : Bool) : State A :=
  if s.connected = false then s
  else State.close app { s with connected := false } linger

/-- `ProcessRecv` up to `OnRecv`. -/
def State.processRecv (s : State A) (bytesTransferred : ℤ) : State A :=
  let s := { s with posted := none }
  if bytesTransferred = 0 then s.fail "bytesTransferred == 0"
  else
    match s.recvBuffer.onWriteBuffer bytesTransferred with
    | (false, _) => s.fail "Buffer Overflow"
    | (true, written) => { s with recvBuffer := written, phase := .onRecv 0 }

/-- The transport fills the posted window and `ProcessRecv` begins. -/
def State.complete (s : State A) (window : Window) (segment : List UInt8) : State A :=
  let buffer := store s.recvBuffer.buffer window.offset segment
  State.processRecv { s with recvBuffer := s.recvBuffer.withMemory buffer } segment.length

/-- `ProcessRecv` behind `OnRecv`, up to `RegisterRecv`. -/
def State.onRecvDone (s : State A) (processLen : ℤ) : State A :=
  if processLen < 0 ∨ s.recvBuffer.getDataSize < processLen then s.fail "RecvBuffer Read Error"
  else
    match s.recvBuffer.onReadBuffer processLen with
    | (false, _) => s.fail "RecvBuffer Read Error"
    | (true, consumed) => { s with recvBuffer := consumed.adjustPos, phase := .register }

/-- What a call of `OnRecvPacket` leads to. -/
def State.called (s : State A) (packet : List UInt8) (processLen : ℤ)
    (result : A × Option (A → A)) : State A :=
  { s with
    app := result.1
    phase :=
      match result.2 with
      | none => .onRecv processLen
      | some rest => .handler rest processLen
    late := if s.tornDown = true then s.late ++ [packet] else s.late }

/-- One step. -/
def step (app : Application A I) (s : State A) : Action A I → Option (State A)
  | .complete segment =>
    match s.phase, s.posted with
    | .idle, some window =>
      if window.length < segment.length then none else some (s.complete window segment)
    | _, _ => none
  | .pass inputs =>
    match s.phase with
    | .onRecv processLen =>
      match s.recvBuffer.nextPacket processLen with
      | none => some (s.onRecvDone processLen)
      | some size =>
        let packet := s.recvBuffer.packet processLen size
        (app.onRecvPacket inputs s.app packet).map (s.called packet (processLen + size))
    | _ => none
  | .leave linger =>
    match s.phase with
    | .handler rest processLen =>
      let left := s.disconnect app linger
      some { left with app := rest left.app, phase := .onRecv processLen }
    | .failed => some { s.disconnect app linger with phase := .idle }
    | _ => none
  | .register =>
    match s.phase with
    | .register => some { s with phase := if s.connected = true then .receive else .idle }
    | _ => none
  | .receive accepted =>
    match s.phase with
    | .receive =>
      if accepted = true then
        let window := ⟨s.recvBuffer.getWriteOffset, s.recvBuffer.getChunkWriteSize⟩
        some { s with posted := some window, phase := .idle }
      else some (s.fail "RioReceive")
    | _ => none
  | .disconnect =>
    some (if s.connected = true then { s with connected := false, closing := true } else s)
  | .close linger =>
    if s.closing = true then some (State.close app { s with closing := false } linger) else none
  | .elsewhere value => some { s with app := value }

/-- Where the running `OnRecv` goes on. -/
def Phase.next : Phase A → Option ℤ
  | .onRecv processLen => some processLen
  | .handler _ processLen => some processLen
  | _ => none

/-- A complete packet is left for the running `OnRecv`. -/
def State.followed (s : State A) : Bool :=
  s.phase.next.any fun processLen => (s.recvBuffer.nextPacket processLen).isSome

/-- A step that tears the session down leaves no complete packet to the running
`OnRecv`, and a receive that completes after that completes no packet. -/
def LeavesNothing (s : State A) : Action A I → Prop
  | .complete segment => s.tornDown = true → ∀ window ∈ s.posted,
      (s.complete window segment).followed = false
  | .leave linger => s.connected = true → linger = true → s.followed = false
  | .close linger => linger = true → s.followed = false
  | _ => True

instance (s : State A) : DecidablePred (LeavesNothing (I := I) s)
  | .complete segment => inferInstanceAs (Decidable (s.tornDown = true → ∀ window ∈ s.posted,
      (s.complete window segment).followed = false))
  | .leave linger =>
    inferInstanceAs (Decidable (s.connected = true → linger = true → s.followed = false))
  | .close linger => inferInstanceAs (Decidable (linger = true → s.followed = false))
  | .pass _ => isTrue trivial
  | .register => isTrue trivial
  | .receive _ => isTrue trivial
  | .disconnect => isTrue trivial
  | .elsewhere _ => isTrue trivial

/-- Nothing was or will be handed out behind the teardown. -/
structure Quiet (s : State A) : Prop where
  /-- Nothing was. -/
  late_eq : s.late = []
  /-- The running `OnRecv` is at its end. -/
  not_followed : s.tornDown = true → s.followed = false

section Steps

variable {app : Application A I} {s s' : State A} {a : Action A I}

/-- The property looks at the history and at the packet in front only. -/
theorem quiet_congr (hlate : s'.late = s.late) (htorn : s'.tornDown = s.tornDown)
    (hfollowed : s'.followed = s.followed) : Quiet s' ↔ Quiet s := by
  constructor
  · rintro ⟨h, hnot⟩
    rw [hlate] at h
    rw [htorn, hfollowed] at hnot
    exact ⟨h, hnot⟩
  · rintro ⟨h, hnot⟩
    rw [← hlate] at h
    rw [← htorn, ← hfollowed] at hnot
    exact ⟨h, hnot⟩

/-- On a stream of frames a packet is left exactly if a complete frame is. -/
theorem followed_iff {frames : List Frame} {processLen n : ℕ}
    (hnext : s.phase.next = some (processLen : ℤ))
    (hsize : s.recvBuffer.getDataSize = processLen + n)
    (h : load (fun i => s.recvBuffer.buffer (s.recvBuffer.getReadOffset + i)) processLen n <+:
      (frameBytes frames).flatten) :
    s.followed = true ↔ completeFrames (frameBytes frames) n ≠ [] := by
  have hpass : PassesAt (RioSession.nextPacket
      (fun i => s.recvBuffer.buffer (s.recvBuffer.getReadOffset + i)) s.recvBuffer.getDataSize)
      (fun i => s.recvBuffer.buffer (s.recvBuffer.getReadOffset + i)) processLen n :=
    RioSession.nextPacket_passes hsize
  have hpos : 0 < PacketHeader.sizeOf := by decide
  rw [State.followed, hnext, Option.any_some, RingBuffer.nextPacket]
  cases frames with
  | nil =>
    have hz : n = 0 := by simpa [frameBytes] using h.length_le
    rw [hpass.break_header (by omega)]
    simp [frameBytes]
  | cons f fs =>
    have hlen := f.sizeOf_le
    have hcons : frameBytes (f :: fs) = f.bytes :: frameBytes fs := rfl
    by_cases hheader : n < PacketHeader.sizeOf
    · rw [hpass.break_header hheader, hcons, completeFrames_cons_of_lt _ (by omega)]
      simp
    · have hsize := read_of_stream (not_lt.mp hheader) h
      by_cases hpacket : n < f.bytes.length
      · rw [hpass.break_packet (not_lt.mp hheader) (by omega), hcons,
          completeFrames_cons_of_lt _ hpacket]
        simp
      · rw [hpass.packet (not_lt.mp hheader) (by omega), hcons,
          completeFrames_cons_of_le _ (by omega)]
        simp

/-- A thread that is not inside `OnRecv` has no packet in front of it. -/
theorem followed_of_next (h : s.phase.next = none) : s.followed = false := by
  rw [State.followed, h]
  rfl

/-- Outside of `OnRecv` only the history counts. -/
theorem quiet_of_next (h : s.phase.next = none) : Quiet s ↔ s.late = [] :=
  ⟨Quiet.late_eq, fun hlate => ⟨hlate, fun _ => followed_of_next h⟩⟩

/-- A step outside of `OnRecv` that hands nothing out. -/
theorem quiet_outside (h : s.phase.next = none) (h' : s'.phase.next = none)
    (hlate : s'.late = s.late) : Quiet s' ↔ Quiet s := by
  rw [quiet_of_next h, quiet_of_next h', hlate]

/-- `ProcessRecv` up to `OnRecv` calls no application code. -/
theorem processRecv_history (s : State A) (n : ℤ) :
    (s.processRecv n).late = s.late ∧ (s.processRecv n).tornDown = s.tornDown := by
  unfold State.processRecv
  dsimp only
  split
  · exact ⟨rfl, rfl⟩
  · split <;> exact ⟨rfl, rfl⟩

/-- Neither does what follows `OnRecv`, and it leaves `OnRecv`. -/
theorem onRecvDone_history (s : State A) (processLen : ℤ) :
    (s.onRecvDone processLen).late = s.late ∧ (s.onRecvDone processLen).phase.next = none := by
  unfold State.onRecvDone
  split
  · exact ⟨rfl, rfl⟩
  · split <;> exact ⟨rfl, rfl⟩

/-- `Disconnect` does not move the receiving thread, nor the bytes it reads. -/
theorem disconnect_frame (app : Application A I) (s : State A) (linger : Bool) :
    (s.disconnect app linger).phase = s.phase ∧
      (s.disconnect app linger).recvBuffer = s.recvBuffer := by
  unfold State.disconnect State.close
  split
  · exact ⟨rfl, rfl⟩
  · split <;> exact ⟨rfl, rfl⟩

/-- `Disconnect` behind the exchange stays quiet exactly if no packet follows where
it tears the session down. -/
theorem quiet_close (app : Application A I) (s : State A) (linger : Bool) :
    Quiet (s.close app linger) ↔ Quiet s ∧ (linger = true → s.followed = false) := by
  cases linger with
  | false =>
    have hsame : Quiet (s.close app false) ↔ Quiet s := quiet_congr rfl rfl rfl
    exact hsame.trans (and_iff_left nofun).symm
  | true =>
    constructor
    · intro h
      have hnot : s.followed = false := h.not_followed rfl
      exact ⟨⟨h.late_eq, fun _ => hnot⟩, fun _ => hnot⟩
    · rintro ⟨h, hnot⟩
      exact ⟨h.late_eq, fun _ => hnot rfl⟩

/-- So does `Disconnect` of a connected session. -/
theorem quiet_disconnect (app : Application A I) (s : State A) (linger : Bool) :
    Quiet (s.disconnect app linger) ↔
      Quiet s ∧ (s.connected = true → linger = true → s.followed = false) := by
  rw [State.disconnect]
  split
  · rename_i hflag
    simp [hflag]
  · rename_i hflag
    have hconnected : s.connected = true := by simpa using hflag
    have hsame : Quiet { s with connected := false } ↔ Quiet s := quiet_congr rfl rfl rfl
    rw [quiet_close, hsame]
    exact and_congr_right fun _ => ⟨fun h _ => h, fun h => h hconnected⟩

/-- A receive that completes. -/
theorem quiet_complete {segment : List UInt8} (h : step app s (.complete segment) = some s') :
    Quiet s' ↔ Quiet s ∧ LeavesNothing (I := I) s (.complete segment) := by
  simp only [step] at h
  split at h
  · rename_i window hidle hposted
    split at h
    · cases h
    · cases h
      obtain ⟨hlate, htorn⟩ := processRecv_history { s with
        recvBuffer := s.recvBuffer.withMemory
          (store s.recvBuffer.buffer window.offset segment) } segment.length
      have hquiet : Quiet s ↔ s.late = [] := quiet_of_next (by rw [hidle]; rfl)
      rw [hquiet]
      constructor
      · intro h
        refine ⟨hlate.symm.trans h.late_eq, fun hs w hw => ?_⟩
        cases hposted.symm.trans hw
        exact h.not_followed (htorn.trans hs)
      · rintro ⟨hs, hleaves⟩
        exact ⟨hlate.trans hs, fun h => hleaves (htorn.symm.trans h) window hposted⟩
  · cases h

/-- A pass of the loop: a packet handed out behind the teardown is one that was left. -/
theorem quiet_pass {inputs : I} (h : step app s (.pass inputs) = some s') :
    Quiet s' ↔ Quiet s := by
  simp only [step] at h
  split at h
  · rename_i processLen hphase
    have hfollowed : s.followed = (s.recvBuffer.nextPacket processLen).isSome := by
      rw [State.followed, hphase]
      rfl
    split at h
    · rename_i hnone
      cases h
      obtain ⟨hlate, hnext⟩ := onRecvDone_history s processLen
      rw [quiet_of_next hnext, hlate]
      rw [hnone] at hfollowed
      exact ⟨fun h => ⟨h, fun _ => hfollowed⟩, Quiet.late_eq⟩
    · rename_i size hsize
      obtain ⟨result, -, rfl⟩ := Option.map_eq_some_iff.mp h
      rw [hsize] at hfollowed
      generalize s.recvBuffer.packet processLen size = packet
      by_cases htorn : s.tornDown = true
      · have hlate : (s.called packet (processLen + size) result).late = s.late ++ [packet] :=
          if_pos htorn
        constructor
        · intro h
          have hnil := h.late_eq
          rw [hlate] at hnil
          simp at hnil
        · intro h
          rw [h.not_followed htorn] at hfollowed
          cases hfollowed
      · have hlate : (s.called packet (processLen + size) result).late = s.late := if_neg htorn
        exact ⟨fun h => ⟨hlate.symm.trans h.late_eq, fun h => (htorn h).elim⟩,
          fun h => ⟨hlate.trans h.late_eq, fun h => (htorn h).elim⟩⟩
  · cases h

/-- The receiving thread calls `Disconnect`. -/
theorem quiet_leave {linger : Bool} (h : step app s (.leave linger) = some s') :
    Quiet s' ↔ Quiet s ∧ LeavesNothing (I := I) s (.leave linger) := by
  have hleave := quiet_disconnect app s linger
  obtain ⟨hphase', hbuffer⟩ := disconnect_frame app s linger
  simp only [step] at h
  split at h
  · rename_i rest processLen hphase
    cases h
    have hsame : ∀ value : A, Quiet { s.disconnect app linger with
        app := value, phase := .onRecv processLen } ↔ Quiet (s.disconnect app linger) := by
      refine fun value => quiet_congr rfl rfl ?_
      simp only [State.followed, hphase', hphase, Phase.next]
    exact (hsame _).trans hleave
  · rename_i hphase
    cases h
    have hsame : Quiet { s.disconnect app linger with phase := .idle } ↔
        Quiet (s.disconnect app linger) := by
      refine quiet_outside ?_ rfl rfl
      rw [hphase', hphase]
      rfl
    exact hsame.trans hleave
  · cases h

/-- The steps of `RegisterRecv`. -/
theorem quiet_register (ha : a = .register ∨ ∃ accepted, a = .receive accepted)
    (h : step app s a = some s') : Quiet s' ↔ Quiet s := by
  obtain rfl | ⟨accepted, rfl⟩ := ha
  · simp only [step] at h
    split at h
    · rename_i hphase
      cases h
      have hnext : s.phase.next = none := by
        rw [hphase]
        rfl
      refine quiet_outside hnext ?_ rfl
      show (if s.connected = true then Phase.receive else Phase.idle).next = none
      split <;> rfl
    · cases h
  · simp only [step] at h
    split at h
    · rename_i hphase
      have hnext : s.phase.next = none := by
        rw [hphase]
        rfl
      split at h <;> cases h
      · refine quiet_outside hnext ?_ rfl
        rfl
      · refine quiet_outside hnext ?_ rfl
        rfl
    · cases h

/-- A step leads to a quiet state exactly if it comes from one and leaves nothing. -/
theorem quiet_step (h : step app s a = some s') : Quiet s' ↔ Quiet s ∧ LeavesNothing s a := by
  have hfree : LeavesNothing s a → (Quiet s' ↔ Quiet s) →
      (Quiet s' ↔ Quiet s ∧ LeavesNothing s a) := fun hok hsame => by
    rw [hsame, and_iff_left hok]
  cases a with
  | complete segment => exact quiet_complete h
  | pass inputs => exact hfree trivial (quiet_pass h)
  | leave linger => exact quiet_leave h
  | register => exact hfree trivial (quiet_register (.inl rfl) h)
  | receive accepted => exact hfree trivial (quiet_register (.inr ⟨accepted, rfl⟩) h)
  | disconnect =>
    cases h
    apply hfree trivial
    split
    · exact quiet_congr rfl rfl rfl
    · exact Iff.rfl
  | close linger =>
    simp only [step] at h
    split at h
    · cases h
      have hsame : Quiet { s with closing := false } ↔ Quiet s := quiet_congr rfl rfl rfl
      rw [quiet_close, hsame]
      rfl
    · cases h
  | elsewhere value =>
    cases h
    apply hfree trivial
    exact quiet_congr rfl rfl rfl

end Steps

section Passes

variable {app : Application A I} {f : I → A → List UInt8 → A} {k : ℤ}
  {packets : List (List UInt8)}

/-- The session after a handler that never calls `Disconnect` got some packets. -/
def State.handed (f : I → A → List UInt8 → A) (s : State A) (k : ℤ)
    (packets : List (List UInt8)) (inputs : List I) : State A :=
  { s with
    phase := .onRecv k
    app := (packets.zip inputs).foldl (fun value call => f call.2 value call.1) s.app
    late := if s.tornDown = true then s.late ++ packets else s.late }

/-- The passes of the loop are those of `onRecvLoop`. -/
theorem run_onRecvLoop (happ : ∀ i value packet, app.onRecvPacket i value packet =
      some (f i value packet, none)) {fuel : ℕ} {processLen : ℤ} {s : State A}
    (hphase : s.phase = .onRecv processLen)
    (hloop : onRecvLoop s.recvBuffer.nextPacket
      (fun i => s.recvBuffer.buffer (s.recvBuffer.getReadOffset + i)) fuel processLen =
        some (k, packets)) (inputs : List I) (hlen : inputs.length = packets.length) (last : I) :
    run (step app) s ((inputs ++ [last]).map .pass) =
      some ((s.handed f k packets inputs).onRecvDone k) := by
  induction fuel generalizing s processLen packets inputs with
  | zero => cases hloop
  | succ fuel ih =>
    rw [onRecvLoop] at hloop
    cases hnext : s.recvBuffer.nextPacket processLen with
    | none =>
      rw [hnext] at hloop
      cases hloop
      obtain rfl := List.length_eq_zero_iff.mp hlen
      have hsame : s.handed f k [] [] = s := by
        simp [State.handed, ← hphase]
      rw [hsame]
      simp [run, step, hphase, hnext]
    | some size =>
      rw [hnext] at hloop
      obtain ⟨⟨j, rest⟩, hrest, heq⟩ := Option.map_eq_some_iff.mp hloop
      cases heq
      obtain ⟨input, inputs, rfl⟩ := List.exists_cons_of_length_eq_add_one hlen
      generalize hpacket : s.recvBuffer.packet processLen size = packet
      have hload : load (fun i => s.recvBuffer.buffer (s.recvBuffer.getReadOffset + i))
          processLen size = packet := hpacket
      have hstep : step app s (.pass input) =
          some (s.called packet (processLen + size) (f input s.app packet, none)) := by
        simp [step, hphase, hnext, happ, hpacket]
      have htail := ih (s := s.called packet (processLen + size) (f input s.app packet, none)) rfl
        hrest inputs (by simpa using hlen)
      have hsame : State.handed f (s.called packet (processLen + size)
          (f input s.app packet, none)) j rest inputs =
          s.handed f j (packet :: rest) (input :: inputs) := by
        cases htorn : s.tornDown <;> simp [State.handed, State.called, htorn]
      rw [List.cons_append, List.map_cons, run_cons, hstep, Option.bind_some, htail, hsame, hload]

/-- The single steps of `OnRecv` are `onRecv`: a handler that never calls `Disconnect` gets
the packets it extracts in order, and the loop ends at the length it returns. -/
theorem run_onRecv (happ : ∀ i value packet, app.onRecvPacket i value packet =
      some (f i value packet, none)) {s : State A} (hphase : s.phase = .onRecv 0)
    (h : RioSession.onRecv (fun i => s.recvBuffer.buffer (s.recvBuffer.getReadOffset + i))
      s.recvBuffer.getDataSize = some (k, packets))
    (inputs : List I) (hlen : inputs.length = packets.length) (last : I) :
    run (step app) s ((inputs ++ [last]).map .pass) =
      some ((s.handed f k packets inputs).onRecvDone k) :=
  run_onRecvLoop happ hphase h inputs hlen last

end Passes

end System

/-- In every run from `ProcessConnect` on, with any received bytes, handler, application and
disconnects, no packet is handed out after `OnDisconnected` has run if the steps that tear
the session down leave no complete packet to the running `OnRecv` and later receives
complete none; and only then, once no complete packet is left to the running `OnRecv`. -/
theorem late_eq_nil_iff {A I : Type*} {app : Application A I} {memory : ℤ → UInt8} {value : A}
    {actions : List (Action A I)} {s : State A}
    (hr : run (step app) (init memory value) actions = some s) :
    (StepsMeet (step app) LeavesNothing (init memory value) actions → s.late = []) ∧
      (s.followed = false → s.late = [] →
        StepsMeet (step app) LeavesNothing (init memory value) actions) := by
  have hinit : Quiet (init memory value) := ⟨rfl, nofun⟩
  have hstep : ∀ (s : State A) (a : Action A I) (s' : State A), step app s a = some s' →
      (Quiet s' ↔ Quiet s ∧ LeavesNothing s a) := fun _ _ _ => quiet_step
  have hiff := run_iff_stepsMeet hstep hr
  exact ⟨fun hok => (hiff.mpr ⟨hinit, hok⟩).late_eq,
    fun hnot hlate => (hiff.mp ⟨hlate, fun _ => hnot⟩).2⟩

open PacketHandler ServerRun

/-- The server code as the application of one of its sessions. -/
def serverApplication {S : Type*} [DecidableEq S] (parser : Parser) (s : S) :
    Application (Server S) Inputs where
  onRecvPacket inputs server packet :=
    match server.handlePacket parser inputs s packet with
    | .error _ => none
    | .ok handled => some (handled.server, if handled.disconnects = true then some id else none)
  onDisconnected server := server.onDisconnected s

/-- A session receives a `C2S_LOGIN`, a `C2S_LOGOUT` and the bytes behind them at once. -/
def loginLogout (rest : List UInt8) : List (Action (Server Unit) Inputs) :=
  [.register, .receive true,
    .complete ((emptyPacket .c2sLogin).bytes ++ (emptyPacket .c2sLogout).bytes ++ rest),
    .pass (inputsAt 0), .pass (inputsAt 0), .leave true, .pass (inputsAt 0)]

/-- Nothing follows: the session is torn down and quiet. -/
theorem quiet_loginLogout : ∃ s,
    run (step (serverApplication shortParser ()))
      (init (fun _ => 0) (ServerRun.init noPlayer).server) (loginLogout []) = some s ∧
    s.tornDown = true ∧ s.late = [] := by
  have h : ((run (step (serverApplication shortParser ()))
      (init (fun _ => 0) (ServerRun.init noPlayer).server) (loginLogout [])).any fun s =>
      s.tornDown) = true := by
    decide +kernel
  obtain ⟨s, hr, htorn⟩ := (Option.any_eq_true _ _).mp h
  exact ⟨s, hr, htorn, (late_eq_nil_iff hr).1 (by decide +kernel)⟩

/-- A second `C2S_LOGIN` follows: it is handled behind `OnDisconnected`, and a player of the
disconnected session is in the room. -/
theorem login_after_teardown : ∃ s,
    run (step (serverApplication shortParser ()))
      (init (fun _ => 0) (ServerRun.init noPlayer).server)
      (loginLogout (emptyPacket .c2sLogin).bytes) = some s ∧
    s.connected = false ∧ s.tornDown = true ∧ s.late = [(emptyPacket .c2sLogin).bytes] ∧
      (s.app.session ()).ownPlayer = some ((), 2) ∧ ((), 2) ∈ s.app.room.players := by
  have h : ((run (step (serverApplication shortParser ()))
      (init (fun _ => 0) (ServerRun.init noPlayer).server)
      (loginLogout (emptyPacket .c2sLogin).bytes)).any fun s =>
      s.connected = false ∧ s.tornDown = true ∧ s.late = [(emptyPacket .c2sLogin).bytes] ∧
        (s.app.session ()).ownPlayer = some ((), 2) ∧ ((), 2) ∈ s.app.room.players) = true := by
    decide +kernel
  obtain ⟨s, hr, hview⟩ := (Option.any_eq_true _ _).mp h
  exact ⟨s, hr, of_decide_eq_true hview⟩

end RecvTeardown

end RioIocpServer
