import RioIocpServer.TransitionSystem
import RioIocpServer.RioBuffer

/-!
# The send path of the RIO sessions

Any thread queues packets with `Send`; the core thread of the session moves them
to the send buffer and posts what is there in `SendDeferred`, and accounts for
completed sends in `ProcessSend`. Every locked access of the packet queue, every
pass of a loop of `SendDeferred` and every completion is one step. What the
environment decides is part of the action: the clock, the answers of `RIOSend`,
a disconnect by someone else. Completions arrive in posting order and report the
posted length. The fields `pushed`, `written`, `completed` and `errors` record
history and are read by no step.
-/

namespace RioIocpServer.RioSend

open TransitionSystem CyclicMemory RioBuffer

/-- `BUFFER_SIZE`. -/
def bufferSize : ℤ := 65536

/-- `SEND_LIMIT`. -/
def sendLimit : ℤ := 600

/-- `COMMIT_TIME`. -/
def commitTime : ℤ := 20

/-- `MAX_POST_CNT`. -/
def maxPostCnt : ℤ := 256

/-- Answer of a deferred `RIOSend`. -/
inductive Outcome where
  /-- The send is posted. -/
  | ok
  /-- `WSAENOBUFS`. -/
  | noBufs
  /-- Any other error. -/
  | failed
  deriving DecidableEq

/-- Where the core thread stands inside `SendDeferred`, with its `sendCount`. -/
inductive Pc where
  /-- Not inside. -/
  | idle
  /-- At the locked section of the outer loop. -/
  | dequeue (sendCount : ℤ)
  /-- At the test against `SEND_LIMIT`. -/
  | testLimit (sendCount : ℤ)
  /-- At the loop that posts inside the outer loop. -/
  | inner (sendCount : ℤ)
  /-- At the test against `MAX_POST_CNT`. -/
  | testMax (sendCount : ℤ)
  /-- At the loop that posts the rest. -/
  | flush (sendCount : ℤ)
  /-- At the assignment of `m_lastSendTime`. -/
  | stamp (sendCount : ℤ)
  /-- At the commit. -/
  | commit (sendCount : ℤ)
  deriving DecidableEq

/-- The send side of a session with the threads that call `Send`. -/
structure Session (T : Type*) where
  /-- `m_bConnected`. -/
  connected : Bool
  /-- `m_bAllocated`. -/
  allocated : Bool
  /-- Packets queued, the oldest one first. -/
  sendBufQueue : List (List UInt8)
  /-- Threads that passed the test of `Send` and are about to queue a packet. -/
  senders : T → Option (List UInt8)
  /-- The buffer posted from. -/
  sendBuffer : RioBuffer UInt8
  /-- Posted sends not committed. -/
  sendCnt : ℤ
  /-- Time of the last `SendDeferred`. -/
  lastSendTime : ℤ
  /-- Progress of the core thread. -/
  pc : Pc
  /-- Posted sends not completed, the oldest one first. -/
  outstanding : List (Chunk UInt8)
  /-- History: completed sends. -/
  completed : List (Chunk UInt8)
  /-- History: packets in the order they were queued. -/
  pushed : List (List UInt8)
  /-- History: bytes written to the send buffer. -/
  written : List UInt8
  /-- History: texts given to `HandleError`. -/
  errors : List String

/-- The steps of the senders, of the core thread and of the environment. -/
inductive Action (T : Type*) where
  /-- `InitSession` has allocated the buffers. -/
  | initSession
  /-- The test `IsConnected() == false` of `Send`. -/
  | sendCheck (t : T) (packet : List UInt8)
  /-- The locked `m_sendBufQueue.push` of `Send`. -/
  | sendPush (t : T)
  /-- A disconnect by someone else. -/
  | disconnect
  /-- The tests at the start of `SendDeferred`. -/
  | sendDeferred (currentTime : ℤ)
  /-- The locked section of `SendDeferred`. -/
  | dequeue
  /-- The test `GetSendDataSize() < SEND_LIMIT`. -/
  | testLimit
  /-- One pass of a loop that posts. -/
  | post (outcome : Outcome)
  /-- The test `sendCount >= MAX_POST_CNT` of the outer loop. -/
  | testMax
  /-- The assignment of `m_lastSendTime`. -/
  | stamp (now : ℤ)
  /-- The end of `SendDeferred` with the answer to the commit. -/
  | commit (accepted : Bool)
  /-- `ProcessSend` of the oldest outstanding send. -/
  | complete

namespace Session

variable {T : Type*}

/-- History: all chunks posted, in posting order. -/
def posted (s : Session T) : List (Chunk UInt8) := s.completed ++ s.outstanding

/-- `HandleError`. -/
def handleError (s : Session T) (text : String) : Session T :=
  { s with errors := s.errors ++ [text] }

/-- `Disconnect`, as far as sending is concerned. -/
def disconnect (s : Session T) : Session T := { s with connected := false }

/-- `RegisterSend` with the answer of `RIOSend`. -/
def registerSend (s : Session T) (dataLength dataOffset : ℤ) (outcome : Outcome) :
    Bool × Session T :=
  if s.connected = false then (false, s)
  else
    match outcome with
    | .ok =>
      let chunk : Chunk UInt8 := ⟨dataOffset, dataLength,
        load s.sendBuffer.buffer dataOffset dataLength.toNat⟩
      let s := { s with outstanding := s.outstanding ++ [chunk], sendCnt := s.sendCnt + 1 }
      match s.sendBuffer.onSendBuffer dataLength with
      | (true, sendBuffer) => (true, { s with sendBuffer := sendBuffer })
      | (false, _) => (false, (s.handleError "OnSendBufferError").disconnect)
    | .noBufs => (false, s)
    | .failed => (false, (s.handleError "RioSend").disconnect)

/-- `SendCommit` with the answer of `RIOSend`. -/
def sendCommit (s : Session T) (accepted : Bool) : Session T :=
  if s.sendCnt ≤ 0 then s
  else
    let s := if accepted = true then s else (s.handleError "SendCommit").disconnect
    { s with sendCnt := 0 }

/-- The end of `SendDeferred`: commit if anything was posted. -/
def commitPosted (s : Session T) (sendCount : ℤ) (accepted : Bool) : Session T :=
  if sendCount > 0 then s.sendCommit accepted else s

/-- `ProcessSend` of a completed chunk. -/
def processSend (s : Session T) (bytesTransferred : ℤ) : Session T :=
  if bytesTransferred = 0 then (s.handleError "bytesTransferred == 0").disconnect
  else
    match s.sendBuffer.onReadBuffer bytesTransferred with
    | (true, ring) => { s with sendBuffer := { s.sendBuffer with toRingBuffer := ring } }
    | (false, _) => (s.handleError "OnReadBuffer Error").disconnect

/-- What is left to do after the outer loop. -/
def afterLoop (sendCount : ℤ) : Pc :=
  if sendCount < maxPostCnt then .flush sendCount else .stamp sendCount

end Session

variable {T : Type*} [DecidableEq T]

/-- One step of the system. -/
def step (s : Session T) : Action T → Option (Session T)
  | .initSession => some { s with allocated := true }
  | .sendCheck t packet =>
    match s.senders t with
    | some _ => none
    | none =>
      if s.connected = false then some s
      else some { s with senders := Function.update s.senders t (some packet) }
  | .sendPush t =>
    match s.senders t with
    | none => none
    | some packet => some { s with
        senders := Function.update s.senders t none
        sendBufQueue := s.sendBufQueue ++ [packet]
        pushed := s.pushed ++ [packet] }
  | .disconnect => some s.disconnect
  | .sendDeferred currentTime =>
    match s.pc with
    | .idle =>
      if s.connected = false ∨ s.allocated = false then some s
      else if s.lastSendTime ≠ 0 ∧ currentTime - s.lastSendTime ≤ commitTime then some s
      else some { s with pc := .dequeue 0 }
    | _ => none
  | .dequeue =>
    match s.pc with
    | .dequeue sendCount =>
      match s.sendBufQueue with
      | [] => some { s with pc := Session.afterLoop sendCount }
      | packet :: rest =>
        match s.sendBuffer.writeBuffer packet with
        | none => none
        | some (false, _) => some { s with pc := Session.afterLoop sendCount }
        | some (true, ring) => some { s with
            sendBuffer := { s.sendBuffer with toRingBuffer := ring }
            sendBufQueue := rest
            written := s.written ++ packet
            pc := .testLimit sendCount }
    | _ => none
  | .testLimit =>
    match s.pc with
    | .testLimit sendCount => some { s with
        pc := if s.sendBuffer.getSendDataSize < sendLimit then .dequeue sendCount
          else .inner sendCount }
    | _ => none
  | .post outcome =>
    match s.pc with
    | .inner sendCount =>
      if s.sendBuffer.getSendDataSize > 0 then
        match s.registerSend s.sendBuffer.getChunkSendSize s.sendBuffer.getSendOffset outcome with
        | (true, s) => some { s with pc := .inner (sendCount + 1) }
        | (false, s) => some { s with pc := .testMax sendCount }
      else some { s with pc := .testMax sendCount }
    | .flush sendCount =>
      if s.sendBuffer.getSendDataSize > 0 then
        match s.registerSend s.sendBuffer.getChunkSendSize s.sendBuffer.getSendOffset outcome with
        | (true, s) => some { s with
            pc := if sendCount + 1 ≥ maxPostCnt then .stamp (sendCount + 1)
              else .flush (sendCount + 1) }
        | (false, s) => some { s with pc := .stamp sendCount }
      else some { s with pc := .stamp sendCount }
    | _ => none
  | .testMax =>
    match s.pc with
    | .testMax sendCount => some { s with
        pc := if sendCount ≥ maxPostCnt then Session.afterLoop sendCount
          else .dequeue sendCount }
    | _ => none
  | .stamp now =>
    match s.pc with
    | .stamp sendCount => some { s with lastSendTime := now, pc := .commit sendCount }
    | _ => none
  | .commit accepted =>
    match s.pc with
    | .commit sendCount => some { s.commitPosted sendCount accepted with pc := .idle }
    | _ => none
  | .complete =>
    match s.pc, s.outstanding with
    | .idle, chunk :: rest => some (({ s with
        outstanding := rest
        completed := s.completed ++ [chunk] } : Session T).processSend chunk.length)
    | _, _ => none

/-- A connected session whose buffers are about to be allocated. -/
def init (memory : ℤ → UInt8) : Session T where
  connected := true
  allocated := false
  sendBufQueue := []
  senders _ := none
  sendBuffer := RioBuffer.new memory bufferSize
  sendCnt := 0
  lastSendTime := 0
  pc := .idle
  outstanding := []
  completed := []
  pushed := []
  written := []
  errors := []

/-- The positions at which a pass posts. -/
def Pc.Posts : Pc → Prop
  | .inner _ => True
  | .flush _ => True
  | _ => False

/-- What one step can do, with what it has tested. -/
inductive Moves (s : Session T) : Action T → Session T → Prop
  | allocated : Moves s .initSession { s with allocated := true }
  | ignored (t : T) (packet : List UInt8) (hc : s.connected = false) :
      Moves s (.sendCheck t packet) s
  | checked (t : T) (packet : List UInt8) (hc : s.connected = true) :
      Moves s (.sendCheck t packet)
        { s with senders := Function.update s.senders t (some packet) }
  | pushed (t : T) (packet : List UInt8) (ht : s.senders t = some packet) :
      Moves s (.sendPush t) { s with
        senders := Function.update s.senders t none
        sendBufQueue := s.sendBufQueue ++ [packet]
        pushed := s.pushed ++ [packet] }
  | disconnected : Moves s .disconnect s.disconnect
  | skipped (currentTime : ℤ) (hpc : s.pc = .idle)
      (h : s.connected = false ∨ s.allocated = false ∨
        s.lastSendTime ≠ 0 ∧ currentTime - s.lastSendTime ≤ commitTime) :
      Moves s (.sendDeferred currentTime) s
  | entered (currentTime : ℤ) (hpc : s.pc = .idle) :
      Moves s (.sendDeferred currentTime) { s with pc := .dequeue 0 }
  | emptied (n : ℤ) (hpc : s.pc = .dequeue n) (hq : s.sendBufQueue = []) :
      Moves s .dequeue { s with pc := Session.afterLoop n }
  | full (n : ℤ) (packet : List UInt8) (rest : List (List UInt8)) (ring : RingBuffer UInt8)
      (hpc : s.pc = .dequeue n) (hq : s.sendBufQueue = packet :: rest)
      (hw : s.sendBuffer.writeBuffer packet = some (false, ring)) :
      Moves s .dequeue { s with pc := Session.afterLoop n }
  | wrote (n : ℤ) (packet : List UInt8) (rest : List (List UInt8)) (ring : RingBuffer UInt8)
      (hpc : s.pc = .dequeue n) (hq : s.sendBufQueue = packet :: rest)
      (hw : s.sendBuffer.writeBuffer packet = some (true, ring)) : Moves s .dequeue { s with
        sendBuffer := { s.sendBuffer with toRingBuffer := ring }
        sendBufQueue := rest
        written := s.written ++ packet
        pc := .testLimit n }
  | limit (n : ℤ) (hpc : s.pc = .testLimit n) : Moves s .testLimit { s with
      pc := if s.sendBuffer.getSendDataSize < sendLimit then .dequeue n else .inner n }
  | posted (outcome : Outcome) (s' : Session T) (pc : Pc) (hpc : s.pc.Posts)
      (hsize : 0 < s.sendBuffer.getSendDataSize)
      (hr : s.registerSend s.sendBuffer.getChunkSendSize s.sendBuffer.getSendOffset outcome =
        (true, s')) : Moves s (.post outcome) { s' with pc := pc }
  | notPosted (outcome : Outcome) (s' : Session T) (pc : Pc) (hpc : s.pc.Posts)
      (hsize : 0 < s.sendBuffer.getSendDataSize)
      (hr : s.registerSend s.sendBuffer.getChunkSendSize s.sendBuffer.getSendOffset outcome =
        (false, s')) : Moves s (.post outcome) { s' with pc := pc }
  | nothing (outcome : Outcome) (pc : Pc) (hpc : s.pc.Posts)
      (hsize : s.sendBuffer.getSendDataSize ≤ 0) : Moves s (.post outcome) { s with pc := pc }
  | max (n : ℤ) (hpc : s.pc = .testMax n) : Moves s .testMax { s with
      pc := if n ≥ maxPostCnt then Session.afterLoop n else .dequeue n }
  | stamped (n now : ℤ) (hpc : s.pc = .stamp n) :
      Moves s (.stamp now) { s with lastSendTime := now, pc := .commit n }
  | committed (n : ℤ) (accepted : Bool) (hpc : s.pc = .commit n) : Moves s (.commit accepted)
      { s.commitPosted n accepted with pc := .idle }
  | completed (chunk : Chunk UInt8) (rest : List (Chunk UInt8)) (hpc : s.pc = .idle)
      (hout : s.outstanding = chunk :: rest) : Moves s .complete (({ s with
        outstanding := rest
        completed := s.completed ++ [chunk] } : Session T).processSend chunk.length)

/-- Every enabled pass of a loop that posts is one of the moves. -/
theorem post_moves {s s' : Session T} {outcome : Outcome}
    (h : step s (.post outcome) = some s') : Moves s (.post outcome) s' := by
  simp only [step] at h
  split at h
  · have hpc : s.pc.Posts := by rw [‹s.pc = _›]; trivial
    split at h
    · split at h <;> cases h
      · exact .posted outcome _ _ hpc ‹_› ‹_›
      · exact .notPosted outcome _ _ hpc ‹_› ‹_›
    · cases h
      exact .nothing outcome _ hpc (not_lt.mp ‹_›)
  · have hpc : s.pc.Posts := by rw [‹s.pc = _›]; trivial
    split at h
    · split at h <;> cases h
      · exact .posted outcome _ _ hpc ‹_› ‹_›
      · exact .notPosted outcome _ _ hpc ‹_› ‹_›
    · cases h
      exact .nothing outcome _ hpc (not_lt.mp ‹_›)
  · cases h

/-- Every enabled step is one of the moves. -/
theorem step_moves {s s' : Session T} {a : Action T} (h : step s a = some s') : Moves s a s' := by
  cases a with
  | initSession =>
    cases h
    exact .allocated
  | sendCheck t packet =>
    simp only [step] at h
    split at h
    · cases h
    · split at h <;> cases h
      · exact .ignored t packet ‹_›
      · exact .checked t packet (by simpa using ‹¬ s.connected = false›)
  | sendPush t =>
    simp only [step] at h
    split at h <;> cases h
    exact .pushed t _ ‹_›
  | disconnect =>
    cases h
    exact .disconnected
  | sendDeferred currentTime =>
    simp only [step] at h
    split at h
    · split at h
      · cases h
        exact .skipped currentTime ‹_› (by tauto)
      · split at h <;> cases h
        · exact .skipped currentTime ‹_› (.inr (.inr ‹_›))
        · exact .entered currentTime ‹_›
    · cases h
  | dequeue =>
    simp only [step] at h
    split at h
    · split at h
      · cases h
        exact .emptied _ ‹_› ‹_›
      · split at h <;> cases h
        · exact .full _ _ _ _ ‹_› ‹_› ‹_›
        · exact .wrote _ _ _ _ ‹_› ‹_› ‹_›
    · cases h
  | testLimit =>
    simp only [step] at h
    split at h <;> cases h
    exact .limit _ ‹_›
  | post outcome => exact post_moves h
  | testMax =>
    simp only [step] at h
    split at h <;> cases h
    exact .max _ ‹_›
  | stamp now =>
    simp only [step] at h
    split at h <;> cases h
    exact .stamped _ now ‹_›
  | commit accepted =>
    simp only [step] at h
    split at h <;> cases h
    exact .committed _ accepted ‹_›
  | complete =>
    simp only [step] at h
    split at h <;> cases h
    exact .completed _ _ ‹_› ‹_›

/-- The invariant of the send path. -/
structure Inv (s : Session T) : Prop where
  /-- The capacity never changes. -/
  capacity_eq : s.sendBuffer.capacity = bufferSize
  /-- The cursors count written, posted and completed bytes. -/
  cursors : Cursors s.sendBuffer s.written (chunkBytes s.posted).length
    (chunkBytes s.completed).length
  /-- The posted chunks hold the bytes written, in order. -/
  laid : Laid bufferSize s.written 0 s.posted
  /-- The bytes queued are written in order. -/
  queue_eq : s.written ++ s.sendBufQueue.flatten = s.pushed.flatten
  /-- Only the socket reports errors. -/
  errors_eq : ∀ text ∈ s.errors, text = "RioSend" ∨ text = "SendCommit"

section Invariant

variable {s s' : Session T}

omit [DecidableEq T] in
/-- The invariant does not mention the flags, the counters and the threads. -/
theorem Inv.frame (inv : Inv s) (hbuffer : s'.sendBuffer = s.sendBuffer)
    (hwritten : s'.written = s.written) (hout : s'.outstanding = s.outstanding)
    (hdone : s'.completed = s.completed) (hqueue : s'.sendBufQueue = s.sendBufQueue)
    (hpushed : s'.pushed = s.pushed)
    (herr : ∀ text ∈ s'.errors, text ∈ s.errors ∨ text = "RioSend" ∨ text = "SendCommit") :
    Inv s' := by
  have hposted : s'.posted = s.posted := by rw [Session.posted, Session.posted, hdone, hout]
  constructor
  · rw [hbuffer]
    exact inv.capacity_eq
  · rw [hbuffer, hwritten, hposted, hdone]
    exact inv.cursors
  · rw [hwritten, hposted]
    exact inv.laid
  · rw [hwritten, hqueue, hpushed]
    exact inv.queue_eq
  · intro text ht
    rcases herr text ht with h | h
    · exact inv.errors_eq text h
    · exact h

omit [DecidableEq T] in
/-- The initial session satisfies the invariant. -/
theorem inv_init (memory : ℤ → UInt8) : Inv (init memory : Session T) :=
  ⟨rfl, new_cursors memory (by decide), trivial, rfl, fun _ h => by cases h⟩

omit [DecidableEq T] in
/-- A packet moved to the send buffer stays in order. -/
theorem inv_write (inv : Inv s) {packet : List UInt8} {rest : List (List UInt8)}
    {ring : RingBuffer UInt8} (hq : s.sendBufQueue = packet :: rest)
    (hw : s.sendBuffer.writeBuffer packet = some (true, ring)) (pc : Pc) : Inv { s with
      sendBuffer := { s.sendBuffer with toRingBuffer := ring }
      sendBufQueue := rest
      written := s.written ++ packet
      pc := pc } := by
  have hfree : (packet.length : ℤ) ≤ s.sendBuffer.getFreeSize := by
    by_contra hlt
    rw [RingBuffer.writeBuffer_refused (by omega)] at hw
    cases hw
  obtain ⟨ring', hw', cur, hcap⟩ := inv.cursors.write hfree
  cases hw.symm.trans hw'
  have hqueue := inv.queue_eq
  rw [hq, List.flatten_cons, ← List.append_assoc] at hqueue
  exact ⟨hcap.trans inv.capacity_eq, cur, inv.laid.extend packet, hqueue, inv.errors_eq⟩

/-- The chunk `SendDeferred` posts next. -/
def nextChunk (s : Session T) : Chunk UInt8 :=
  ⟨s.sendBuffer.getSendOffset, s.sendBuffer.getChunkSendSize,
    load s.sendBuffer.buffer s.sendBuffer.getSendOffset s.sendBuffer.getChunkSendSize.toNat⟩

omit [DecidableEq T] in
/-- The chunk posted next follows the chunks posted before. -/
theorem chunkAt_next (inv : Inv s) (h : 0 < s.sendBuffer.getSendDataSize) :
    ChunkAt bufferSize s.written (chunkBytes s.posted).length (nextChunk s) := by
  obtain ⟨hpos, hend, -, hunsent⟩ := inv.cursors.chunk_bounds h
  have hcap := inv.capacity_eq
  have hsend := inv.cursors.send_eq
  refine ⟨?_, hpos, ?_, ?_, ?_⟩
  · rw [← hcap]
    exact hsend
  · rw [← hcap]
    exact hend
  · dsimp only [nextChunk]
    rw [load_length]
    omega
  · dsimp only [nextChunk, RioBuffer.getSendOffset]
    rw [inv.cursors.load_eq hsend inv.cursors.completed_le (by omega) (by omega)]
    exact List.take_prefix _ _

/-- What `RegisterSend` of the next chunk does: it posts and accounts for the
chunk, or leaves everything, or reports the error of the socket. -/
inductive Registers (s : Session T) : Outcome → Bool × Session T → Prop
  | posted (sendBuffer : RioBuffer UInt8) (hc : s.connected = true)
      (inv : Inv { s with
        outstanding := s.outstanding ++ [nextChunk s]
        sendCnt := s.sendCnt + 1
        sendBuffer := sendBuffer }) : Registers s .ok (true, { s with
          outstanding := s.outstanding ++ [nextChunk s]
          sendCnt := s.sendCnt + 1
          sendBuffer := sendBuffer })
  | refused (outcome : Outcome) (h : s.connected = false ∨ outcome = .noBufs) :
      Registers s outcome (false, s)
  | failed : Registers s .failed (false, (s.handleError "RioSend").disconnect)

omit [DecidableEq T] in
/-- `OnSendBuffer` never refuses the chunk: `RegisterSend` does one of these. -/
theorem registerSend_registers (inv : Inv s) (h : 0 < s.sendBuffer.getSendDataSize)
    (outcome : Outcome) : Registers s outcome (s.registerSend s.sendBuffer.getChunkSendSize
      s.sendBuffer.getSendOffset outcome) := by
  unfold Session.registerSend
  by_cases hc : s.connected = false
  · rw [if_pos hc]
    exact .refused outcome (.inl hc)
  · rw [if_neg hc]
    cases outcome with
    | noBufs => exact .refused .noBufs (.inr rfl)
    | failed => exact .failed
    | ok =>
      obtain ⟨hpos, hend, hsize, hunsent⟩ := inv.cursors.chunk_bounds h
      obtain ⟨n, hn⟩ := Int.eq_ofNat_of_zero_le hpos.le
      have hat := chunkAt_next inv h
      have hbytes : (nextChunk s).bytes.length = n := by
        dsimp only [nextChunk]
        rw [load_length, hn, Int.toNat_natCast]
      rw [hn] at hsize hunsent
      obtain ⟨sendBuffer, hon, hring, cur⟩ := inv.cursors.send hsize hunsent
      dsimp only
      rw [hn, hon]
      have hposted : (({ s with
          outstanding := s.outstanding ++ [nextChunk s]
          sendCnt := s.sendCnt + 1
          sendBuffer := sendBuffer } : Session T)).posted = s.posted ++ [nextChunk s] := by
        simp only [Session.posted, List.append_assoc]
      have hnext : nextChunk s = ⟨s.sendBuffer.getSendOffset, n,
          load s.sendBuffer.buffer s.sendBuffer.getSendOffset (n : ℤ).toNat⟩ := by
        rw [nextChunk, hn]
      rw [← hnext]
      refine .posted sendBuffer (by simpa using hc) ⟨?_, ?_, ?_, inv.queue_eq, inv.errors_eq⟩
      · show sendBuffer.toRingBuffer.capacity = bufferSize
        rw [hring]
        exact inv.capacity_eq
      · rw [hposted, chunkBytes_append, List.length_append, chunkBytes_cons, chunkBytes_nil,
          List.append_nil, hbytes]
        exact cur
      · rw [hposted]
        refine laid_append.mpr ⟨inv.laid, ?_, trivial⟩
        rw [zero_add]
        exact hat

omit [DecidableEq T] in
/-- `RegisterSend` of the next chunk keeps the invariant, whatever is answered. -/
theorem Registers.inv {outcome : Outcome} {r : Bool × Session T} (h : Registers s outcome r)
    (inv : Inv s) : Inv r.2 := by
  cases h with
  | posted sendBuffer hc inv' => exact inv'
  | refused outcome h => exact inv
  | failed =>
    refine inv.frame rfl rfl rfl rfl rfl rfl fun text ht => ?_
    rcases List.mem_append.mp ht with h | h
    · exact .inl h
    · exact .inr (.inl (List.mem_singleton.mp h))

omit [DecidableEq T] in
/-- `OnReadBuffer` never refuses a completed chunk: `ProcessSend` moves the tail
over it and keeps the invariant. -/
theorem inv_complete (inv : Inv s) {chunk : Chunk UInt8} {rest : List (Chunk UInt8)}
    (hout : s.outstanding = chunk :: rest) : Inv (({ s with
      outstanding := rest
      completed := s.completed ++ [chunk] } : Session T).processSend chunk.length) := by
  have hposted : s.completed ++ [chunk] ++ rest = s.posted := by
    rw [Session.posted, hout, List.append_assoc, List.singleton_append]
  have hlaid := inv.laid
  rw [Session.posted, hout, laid_append] at hlaid
  have hat := hlaid.2.1
  have hlen : chunk.length = (chunk.bytes.length : ℤ) := hat.length_eq
  have hpos := hat.length_pos
  have hdone : (chunkBytes (s.completed ++ [chunk])).length =
      (chunkBytes s.completed).length + chunk.bytes.length := by
    rw [chunkBytes_append, List.length_append, chunkBytes_cons, chunkBytes_nil, List.append_nil]
  have hle : (chunkBytes s.completed).length + chunk.bytes.length ≤
      (chunkBytes s.posted).length := by
    rw [← hdone, ← hposted, chunkBytes_append (s.completed ++ [chunk]), List.length_append]
    exact Nat.le_add_right _ _
  obtain ⟨ring, hon, cur, hcap⟩ := inv.cursors.read hle
  rw [hlen, Session.processSend, if_neg (by omega)]
  simp only [hon]
  refine ⟨hcap.trans inv.capacity_eq, ?_, ?_, inv.queue_eq, inv.errors_eq⟩
  · dsimp only [Session.posted]
    rw [hposted, hdone]
    exact cur
  · dsimp only [Session.posted]
    rw [hposted]
    exact inv.laid

omit [DecidableEq T] in
/-- A step of the core thread that only moves its position. -/
theorem inv_pc (inv : Inv s) (pc : Pc) : Inv { s with pc := pc } :=
  inv.frame rfl rfl rfl rfl rfl rfl fun _ ht => .inl ht

omit [DecidableEq T] in
/-- A commit, accepted or not, keeps the invariant. -/
theorem inv_sendCommit (inv : Inv s) (accepted : Bool) : Inv (s.sendCommit accepted) := by
  unfold Session.sendCommit
  split
  · exact inv
  · cases accepted
    · refine inv.frame rfl rfl rfl rfl rfl rfl fun text ht => ?_
      rcases List.mem_append.mp ht with h | h
      · exact .inl h
      · exact .inr (.inr (List.mem_singleton.mp h))
    · exact inv.frame rfl rfl rfl rfl rfl rfl fun _ ht => .inl ht

omit [DecidableEq T] in
/-- The session `RegisterSend` returns keeps the invariant. -/
theorem inv_registerSend (inv : Inv s) (h : 0 < s.sendBuffer.getSendDataSize) {outcome : Outcome}
    {b : Bool} (hr : s.registerSend s.sendBuffer.getChunkSendSize s.sendBuffer.getSendOffset
      outcome = (b, s')) : Inv s' := by
  have hreg := registerSend_registers inv h outcome
  rw [hr] at hreg
  exact hreg.inv inv

/-- Every step keeps the invariant. -/
theorem inv_step (inv : Inv s) {a : Action T} (h : step s a = some s') : Inv s' := by
  cases step_moves h with
  | allocated => exact inv.frame rfl rfl rfl rfl rfl rfl fun _ ht => .inl ht
  | ignored t packet hc => exact inv
  | checked t packet hc => exact inv.frame rfl rfl rfl rfl rfl rfl fun _ ht => .inl ht
  | pushed t packet ht =>
    refine ⟨inv.capacity_eq, inv.cursors, inv.laid, ?_, inv.errors_eq⟩
    rw [List.flatten_append, List.flatten_append, ← List.append_assoc, inv.queue_eq]
  | disconnected => exact inv.frame rfl rfl rfl rfl rfl rfl fun _ ht => .inl ht
  | skipped currentTime hpc hskip => exact inv
  | entered currentTime hpc => exact inv_pc inv _
  | emptied n hpc hq => exact inv_pc inv _
  | full n packet rest ring hpc hq hw => exact inv_pc inv _
  | wrote n packet rest ring hpc hq hw => exact inv_write inv hq hw _
  | limit n hpc => exact inv_pc inv _
  | posted outcome s₁ pc hpc hsize hr => exact inv_pc (inv_registerSend inv hsize hr) pc
  | notPosted outcome s₁ pc hpc hsize hr => exact inv_pc (inv_registerSend inv hsize hr) pc
  | nothing outcome pc hpc hsize => exact inv_pc inv pc
  | max n hpc => exact inv_pc inv _
  | stamped n now hpc => exact inv.frame rfl rfl rfl rfl rfl rfl fun _ ht => .inl ht
  | committed n accepted hpc =>
    refine inv_pc ?_ _
    unfold Session.commitPosted
    split
    · exact inv_sendCommit inv accepted
    · exact inv
  | completed chunk rest hpc hout => exact inv_complete inv hout

/-- The invariant holds in every reachable state. -/
theorem inv_reachable {memory : ℤ → UInt8} (h : Reachable step (init memory) s) : Inv s :=
  h.invariant (inv_init memory) fun _ _ _ inv hs => inv_step inv hs

end Invariant

/-- What the send path guarantees in every state. -/
structure Integrity (s : Session T) : Prop where
  /-- The bytes posted are a prefix of the bytes queued. -/
  posted_inOrder : chunkBytes s.posted <+: s.pushed.flatten
  /-- A posted chunk is not empty. -/
  chunk_pos : ∀ c ∈ s.posted, 0 < c.length
  /-- A posted chunk is inside the buffer. -/
  chunk_inside : ∀ c ∈ s.posted, 0 ≤ c.offset ∧ c.offset + c.length ≤ bufferSize
  /-- A chunk not completed still holds the bytes it was posted with. -/
  chunk_kept : ∀ c ∈ s.outstanding,
    load s.sendBuffer.buffer c.offset c.length.toNat = c.bytes
  /-- Whatever `WriteBuffer` accepts next goes to cells outside such a chunk. -/
  chunk_free : ∀ c ∈ s.outstanding, ∀ k : ℕ, k < s.sendBuffer.getFreeSize →
    (s.sendBuffer.headPos + k) % s.sendBuffer.capacity < c.offset ∨
      c.offset + c.length ≤ (s.sendBuffer.headPos + k) % s.sendBuffer.capacity
  /-- `OnSendBuffer` never returned false. -/
  no_onSendBuffer_error : "OnSendBufferError" ∉ s.errors
  /-- `OnReadBuffer` never returned false. -/
  no_onReadBuffer_error : "OnReadBuffer Error" ∉ s.errors

/-- In every interleaving of senders, core thread and environment the bytes
posted are a prefix of the bytes queued, every posted chunk is a nonempty part
of the buffer that keeps its bytes until it is completed, and neither
`OnSendBuffer` nor `OnReadBuffer` ever refuses. -/
theorem sendPath_integrity {memory : ℤ → UInt8} {s : Session T}
    (h : Reachable step (init memory) s) : Integrity s := by
  have inv := inv_reachable h
  have hcap := inv.capacity_eq
  have hout := inv.laid
  rw [Session.posted, laid_append, zero_add] at hout
  constructor
  · rw [← inv.queue_eq]
    exact inv.laid.bytes_written.trans (List.prefix_append _ _)
  · intro c hc
    obtain ⟨pos, -, hat⟩ := inv.laid.mem hc
    exact hat.length_pos
  · intro c hc
    obtain ⟨pos, -, hat⟩ := inv.laid.mem hc
    refine ⟨?_, hat.end_le⟩
    rw [hat.offset_eq]
    exact Int.emod_nonneg _ (by decide)
  · intro c hc
    obtain ⟨pos, hpos, hat⟩ := hout.2.mem hc
    rw [← hcap] at hat
    rw [hat.length_eq, Int.toNat_natCast]
    exact inv.cursors.chunk_kept hat hpos
  · intro c hc k hk
    obtain ⟨pos, hpos, hat⟩ := hout.2.mem hc
    rw [← hcap] at hat
    rw [hat.length_eq]
    exact inv.cursors.free_cells hat.offset_eq hpos hat.end_le_length hk
  · intro ht
    rcases inv.errors_eq _ ht with h | h <;> simp at h
  · intro ht
    rcases inv.errors_eq _ ht with h | h <;> simp at h

/-- Two threads queue packets. The first `RIOSend` is refused, the second one posts the bytes
of both, and it is completed. -/
def sendTwo : List (Action Bool) :=
  [.initSession, .sendCheck true [4, 0, 7, 0], .sendCheck false [6, 0, 7, 0, 1, 2],
    .sendPush false, .sendPush true, .sendDeferred 0, .dequeue, .testLimit, .dequeue, .testLimit,
    .dequeue, .post .noBufs, .stamp 30, .commit true, .sendDeferred 60, .dequeue, .post .ok,
    .post .ok, .stamp 70, .commit true, .complete]

/-- The guarantees after the packets were sent, and their bytes in the order queued. -/
theorem sendPath_integrity_two : ∃ s, run step (init fun _ => 0) sendTwo = some s ∧
    Integrity s ∧ chunkBytes s.posted = [6, 0, 7, 0, 1, 2, 4, 0, 7, 0] := by
  have h : ((run step (init fun _ => 0) sendTwo).any fun s =>
      chunkBytes s.posted = [6, 0, 7, 0, 1, 2, 4, 0, 7, 0]) = true := by decide +kernel
  obtain ⟨s, hs, hbytes⟩ := (Option.any_eq_true _ _).mp h
  exact ⟨s, hs, sendPath_integrity ⟨sendTwo, hs⟩, of_decide_eq_true hbytes⟩

end RioIocpServer.RioSend
