import RioIocpServer.ReceivePath

/-!
# Frames sent and received

`_CreateNetBuffer` writes a packet into a buffer of exactly its size, the two session
classes read it out in two ways, and `OnRecv` takes the packets apart again. Sizes are
`int` values on the sending side and 16 bits in the header, so a list of messages
survives the way exactly if each packet's size fits the field.
-/

namespace RioIocpServer.FrameRoundTrip

open CyclicMemory FrameStream

/-- `_CreateNetBuffer`: a ring buffer of the packet's size, written in place. -/
def netBuffer (payload : List UInt8) (pktId : UInt16) : RingBuffer UInt8 :=
  let dataSize := payload.length
  let packetSize := dataSize + PacketHeader.sizeOf
  let empty := RingBuffer.new (fun _ => 0) packetSize
  let headed := store empty.buffer 0 (PacketHeader.toBytes ⟨UInt16.ofNat packetSize, pktId⟩)
  ((empty.withMemory (store headed PacketHeader.sizeOf payload)).onWriteBuffer packetSize).2

/-- The bytes a send path takes out of a packet: `RioSession::SendDeferred` starts at
`GetBuffer`, `IocpSession::RegisterSend` at `GetReadBuf`. -/
def readOut : SessionClass → RingBuffer UInt8 → List UInt8
  | .rio, packet => load packet.buffer 0 packet.getDataSize.toNat
  | .iocp, packet => load packet.buffer packet.getReadOffset packet.getDataSize.toNat

/-- The bytes sent for some messages. -/
def sentBytes (sender : SessionClass) (messages : List (UInt16 × List UInt8)) : List UInt8 :=
  (messages.map fun message => readOut sender (netBuffer message.2 message.1)).flatten

/-- What a call of `OnRecvPacket` delivers: the id and the bytes behind the header. -/
def deliver (packet : List UInt8) : UInt16 × List UInt8 :=
  ((PacketHeader.ofBytes packet).id, packet.drop PacketHeader.sizeOf)

/-- `OnRecv` ends, consumes all bytes and delivers the messages. -/
def Delivers (receiver : SessionClass) (buffer : ℤ → UInt8) (len : ℕ)
    (messages : List (UInt16 × List UInt8)) : Prop :=
  ∃ packets, receiver.onRecv buffer len = some ((len : ℤ), packets) ∧
    packets.map deliver = messages

section Sending

/-- The header of a packet of `_CreateNetBuffer`. -/
def header (payload : List UInt8) (pktId : UInt16) : List UInt8 :=
  PacketHeader.toBytes ⟨UInt16.ofNat (payload.length + PacketHeader.sizeOf), pktId⟩

/-- The buffer behind `_CreateNetBuffer` is full and starts at its first byte. -/
theorem netBuffer_eq (payload : List UInt8) (pktId : UInt16) :
    netBuffer payload pktId =
      { capacity := payload.length + 4
        size := payload.length + 4
        buffer := store (store (fun _ => 0) 0 (header payload pktId)) 4 payload
        headPos := 0
        tailPos := 0 } := by
  have hroom : ((payload.length + PacketHeader.sizeOf : ℕ) : ℤ) = payload.length + 4 := rfl
  simp only [netBuffer, hroom]
  rw [RingBuffer.onWriteBuffer_eq (by simp [RingBuffer.getFreeSize, RingBuffer.withMemory,
    RingBuffer.new])]
  simp only [RingBuffer.advanceHead, RingBuffer.withMemory, RingBuffer.new, zero_add, Int.emod_self]
  rfl

/-- Both ways to read a packet out give the header and the message. -/
theorem readOut_netBuffer (sender : SessionClass) (payload : List UInt8) (pktId : UInt16) :
    readOut sender (netBuffer payload pktId) = createNetBuffer payload pktId := by
  have hheader : load (store (store (fun _ => 0) 0 (header payload pktId)) 4 payload) 0 4 =
      header payload pktId := by
    rw [load_store_of_disjoint _ (by omega)]
    exact load_store _ 0 (header payload pktId)
  have hload : load (store (store (fun _ => 0) 0 (header payload pktId)) 4 payload) 0
      (4 + payload.length) = createNetBuffer payload pktId := by
    rw [load_add, hheader, show (0 : ℤ) + (4 : ℕ) = 4 from rfl, load_store]
    rfl
  have hsize : ((payload.length : ℤ) + 4).toNat = 4 + payload.length := by omega
  cases sender with
  | rio =>
    rw [readOut, netBuffer_eq, RingBuffer.getDataSize, hsize]
    exact hload
  | iocp =>
    rw [readOut, netBuffer_eq, RingBuffer.getDataSize, RingBuffer.getReadOffset, hsize]
    exact hload

/-- The bytes sent are the packets one after the other. -/
theorem sentBytes_eq (sender : SessionClass) (messages : List (UInt16 × List UInt8)) :
    sentBytes sender messages =
      (messages.map fun message => createNetBuffer message.2 message.1).flatten := by
  rw [sentBytes]
  simp only [readOut_netBuffer]

/-- The first packet and the rest. -/
theorem sentBytes_cons (sender : SessionClass) (message : UInt16 × List UInt8)
    (messages : List (UInt16 × List UInt8)) :
    sentBytes sender (message :: messages) =
      createNetBuffer message.2 message.1 ++ sentBytes sender messages := by
  rw [sentBytes_eq, sentBytes_eq, List.map_cons, List.flatten_cons]

end Sending

section Receiving

variable {buffer : ℤ → UInt8} {nextPacket : ℤ → Option ℕ}

/-- A packet delivers its id and its message. -/
theorem deliver_createNetBuffer (payload : List UInt8) (pktId : UInt16) :
    deliver (createNetBuffer payload pktId) = (pktId, payload) := by
  simp only [deliver, createNetBuffer, PacketHeader.ofBytes_toBytes]
  rfl

/-- Messages whose packets fit the size field are the payloads of frames. -/
theorem exists_frames {messages : List (UInt16 × List UInt8)}
    (h : ∀ message ∈ messages, message.2.length < 65532) :
    ∃ frames : List Frame, frameBytes frames =
      messages.map fun message => createNetBuffer message.2 message.1 := by
  induction messages with
  | nil => exact ⟨[], rfl⟩
  | cons message messages ih =>
    obtain ⟨frames, hframes⟩ := ih fun m hm => h m (List.mem_cons_of_mem _ hm)
    refine ⟨.ofMessage message.2 message.1 (h message List.mem_cons_self) :: frames, ?_⟩
    rw [List.map_cons, ← hframes]
    rfl

/-- A stream that has arrived completely consists of complete frames. -/
theorem completeFrames_flatten (frames : List (List UInt8)) :
    completeFrames frames frames.flatten.length = frames := by
  have h : completeFrames (frames ++ []) frames.flatten.length =
      frames ++ completeFrames [] (frames.flatten.length - frames.flatten.length) :=
    completeFrames_append [] le_rfl
  simpa using h

/-- Frames are delivered. -/
theorem delivers_of_fit (sender receiver : SessionClass) {messages : List (UInt16 × List UInt8)}
    (hfit : ∀ message ∈ messages, message.2.length < 65532)
    (hlen : (sentBytes sender messages).length < 2 ^ 31)
    (hbuffer : load buffer 0 (sentBytes sender messages).length = sentBytes sender messages) :
    Delivers receiver buffer (sentBytes sender messages).length messages := by
  obtain ⟨frames, hframes⟩ := exists_frames hfit
  have hbytes : sentBytes sender messages = (frameBytes frames).flatten := by
    rw [sentBytes_eq, hframes]
  have hextracts : Extracts receiver.onRecv := by
    cases receiver with
    | rio => exact RioSession.onRecv_extracts
    | iocp => exact IocpSession.onRecv_extracts
  have hpre : load buffer 0 (sentBytes sender messages).length <+: (frameBytes frames).flatten := by
    rw [hbuffer, hbytes]
  have hresult := hextracts.result hlen hpre
  rw [hbytes, completeFrames_flatten] at hresult
  refine ⟨frameBytes frames, ?_, ?_⟩
  · rw [hbytes]
    exact hresult
  · rw [hframes, List.map_map]
    conv_rhs => rw [← List.map_id messages]
    exact List.map_congr_left fun message _ => deliver_createNetBuffer message.2 message.1

/-- The header in front of a packet that was sent. -/
theorem read_createNetBuffer {payload rest : List UInt8} {pktId : UInt16} {pos : ℤ} {n : ℕ}
    (h : load buffer pos n = createNetBuffer payload pktId ++ rest) :
    PacketHeader.read buffer pos = ⟨UInt16.ofNat (payload.length + 4), pktId⟩ := by
  have hlen := congrArg List.length h
  rw [load_length, List.length_append, createNetBuffer_length] at hlen
  rw [PacketHeader.read, ← take_load buffer pos (show PacketHeader.sizeOf ≤ n by
    rw [PacketHeader.sizeOf]; omega), h, PacketHeader.ofBytes_take, createNetBuffer]
  · rw [List.append_assoc, PacketHeader.ofBytes_toBytes]
    rfl
  · rw [List.length_append, createNetBuffer_length, PacketHeader.sizeOf]
    omega

/-- What the loop delivers are the messages only if each packet fits the size field:
the first packet handed out has the announced size. -/
theorem fit_of_loop (sender : SessionClass) {messages : List (UInt16 × List UInt8)}
    {total processLen n fuel : ℕ} {result : ℤ} {packets : List (List UInt8)}
    (hpass : ∀ processLen n, processLen + n = total → PassesAt nextPacket buffer processLen n)
    (htotal : processLen + n = total)
    (hbuffer : load buffer processLen n = sentBytes sender messages)
    (hloop : onRecvLoop nextPacket buffer fuel processLen = some (result, packets))
    (hdeliver : packets.map deliver = messages) :
    ∀ message ∈ messages, message.2.length < 65532 := by
  induction messages generalizing processLen n fuel packets result with
  | nil => exact fun message h => (List.not_mem_nil h).elim
  | cons message messages ih =>
    rw [sentBytes_cons] at hbuffer
    have hlen := congrArg List.length hbuffer
    rw [load_length, List.length_append, createNetBuffer_length] at hlen
    have hread := read_createNetBuffer hbuffer
    have hsize : (PacketHeader.read buffer processLen).size.toNat =
        (message.2.length + 4) % 65536 := by
      rw [hread]
      exact UInt16.toNat_ofNat
    have hle : (message.2.length + 4) % 65536 ≤ message.2.length + 4 := Nat.mod_le _ _
    have hpacket := (hpass processLen n htotal).packet (by rw [PacketHeader.sizeOf]; omega)
      (by omega)
    cases fuel with
    | zero => cases hloop
    | succ fuel =>
      rw [onRecvLoop, hpacket] at hloop
      dsimp only at hloop
      obtain ⟨⟨last, rest⟩, hrest, heq⟩ := Option.map_eq_some_iff.mp hloop
      cases heq
      obtain ⟨hfirst, hothers⟩ := List.cons.inj hdeliver
      have hpayload := congrArg (fun m => m.2.length) hfirst
      simp only [deliver, List.length_drop, load_length, hsize, PacketHeader.sizeOf] at hpayload
      have hfit : message.2.length < 65532 := by omega
      have hmod : (message.2.length + 4) % 65536 = message.2.length + 4 :=
        Nat.mod_eq_of_lt (by omega)
      rw [hsize, hmod, ← Nat.cast_add] at hrest
      have hnext : load buffer (processLen + (message.2.length + 4) : ℕ)
          (n - (message.2.length + 4)) = sentBytes sender messages := by
        rw [Nat.cast_add, ← drop_load buffer processLen (by omega), hbuffer]
        exact List.drop_left' (createNetBuffer_length _ _)
      intro m hm
      rcases List.mem_cons.mp hm with rfl | hm
      · exact hfit
      · exact ih (by omega) hnext hrest hothers m hm

/-- What `OnRecv` of either class delivers are the messages only if each packet fits. -/
theorem fit_of_delivers (sender receiver : SessionClass) {messages : List (UInt16 × List UInt8)}
    (hlen : (sentBytes sender messages).length < 2 ^ 31)
    (hbuffer : load buffer 0 (sentBytes sender messages).length = sentBytes sender messages)
    (h : Delivers receiver buffer (sentBytes sender messages).length messages) :
    ∀ message ∈ messages, message.2.length < 65532 := by
  obtain ⟨packets, hresult, hdeliver⟩ := h
  cases receiver with
  | rio =>
    change RioSession.onRecv buffer _ = _ at hresult
    rw [RioSession.onRecv] at hresult
    refine fit_of_loop sender (fun processLen n htotal => ?_) (zero_add _) hbuffer hresult hdeliver
    exact RioSession.nextPacket_passes (by omega)
  | iocp =>
    change IocpSession.onRecv buffer _ = _ at hresult
    rw [IocpSession.onRecv] at hresult
    refine fit_of_loop sender (fun processLen n htotal => ?_) (zero_add _) hbuffer hresult hdeliver
    exact IocpSession.nextPacket_passes (by omega) (by omega)

end Receiving

/-- For each pair of session classes and every list of messages, `OnRecv` delivers the
messages from the bytes sent for them, and consumes all bytes, exactly if each message
is shorter than 65532 bytes. The bytes that have arrived are counted by an `int`. -/
theorem delivers_iff (sender receiver : SessionClass) {messages : List (UInt16 × List UInt8)}
    (hlen : (sentBytes sender messages).length < 2 ^ 31) {buffer : ℤ → UInt8}
    (hbuffer : load buffer 0 (sentBytes sender messages).length = sentBytes sender messages) :
    Delivers receiver buffer (sentBytes sender messages).length messages ↔
      ∀ message ∈ messages, message.2.length < 65532 :=
  ⟨fit_of_delivers sender receiver hlen hbuffer, fun hfit =>
    delivers_of_fit sender receiver hfit hlen hbuffer⟩

/-- Two short messages. -/
def shortMessages : List (UInt16 × List UInt8) := [(7, [1, 2, 3]), (8, [])]

/-- They are delivered. -/
theorem shortMessages_delivered :
    Delivers .iocp (store (fun _ => 0) 0 (sentBytes .rio shortMessages))
      (sentBytes .rio shortMessages).length shortMessages :=
  (delivers_iff .rio .iocp (by decide) (load_store _ 0 _)).mpr (by decide)

/-- A message of 65532 bytes, whose header announces the size 0. -/
def longMessage : UInt16 × List UInt8 := (12, List.replicate 65532 0)

/-- The bytes sent for one message. -/
theorem sentBytes_one_length (sender : SessionClass) (message : UInt16 × List UInt8) :
    (sentBytes sender [message]).length = message.2.length + 4 := by
  rw [sentBytes_cons, List.length_append, createNetBuffer_length]
  rfl

/-- It is not delivered. -/
theorem longMessage_not_delivered :
    (sentBytes .rio [longMessage]).length = 65536 ∧
      ¬ Delivers .iocp (store (fun _ => 0) 0 (sentBytes .rio [longMessage]))
        (sentBytes .rio [longMessage]).length [longMessage] := by
  have hmessage : longMessage.2.length = 65532 := List.length_replicate
  have hlen : (sentBytes .rio [longMessage]).length = 65536 := by
    rw [sentBytes_one_length, hmessage]
  have hbound : (sentBytes .rio [longMessage]).length < 2 ^ 31 := by omega
  refine ⟨hlen, fun h => ?_⟩
  have hfit := fit_of_delivers .rio .iocp hbound (load_store _ 0 _) h longMessage
    List.mem_cons_self
  omega

end RioIocpServer.FrameRoundTrip
