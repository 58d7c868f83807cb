import MrUDP.Receiver.ReceiveQueue
import MrUDP.Sender.SendQueue

/-!
# The receiver

`mrudp/receiver/Receiver.cpp` and `mrudp/receiver/UnreliableReceiveQueue.cpp`.  The
receiver takes packets apart into frames, reassembles compressed blocks, and calls its
connection.

The functions here are pure: a call on the connection is returned, in order, as a
`ReceiverCall`.  None of these calls leads back to the receive queue or to the
reassembly buffer.  The status is changed by whoever carries the calls out, because
`Receiver::close` also sends a packet.

## Main definitions

* `processCompressed`: one frame into the reassembly buffer.
* `Receiver.processReceived`: the dispatch on the frame type.
* `Receiver.onReceive`, `Receiver.open`: the entry points.
-/

namespace MrUDP
open Wire

/-- A call the receiver makes on its connection. -/
inductive ReceiverCall
  /-- `Sender::ack`. -/
  | ack (packetID : PacketID)
  /-- `Sender::onAck`. -/
  | onAck (ack : Ack)
  /-- `Connection::receive`. -/
  | receive (data : Bytes) (reliability : Reliability)
  /-- `Receiver::close`, and then `Connection::possiblyClose`. -/
  | close
  deriving DecidableEq, Repr

/-! ## Compressed blocks -/

/-- The loop of `Receiver::processCompressedSubframes`, on the memory from `p` to `end`.
The size left is compared with the size of the subframe as 32 bits without sign.  A
subframe reaching past the end is cut there. -/
def processCompressedSubframesLoop : ℕ → Bytes → List Bytes
  | 0, _ => []
  | fuel + 1, mem =>
      if mem = [] then []
      else
        let frameSize := leNat ((mem.drop 1).take 4)
        let size : ℤ := mem.length - 5
        let body := mem.drop 5
        if (size % 2 ^ 32).toNat < frameSize then []
        else body.take frameSize :: processCompressedSubframesLoop fuel (body.drop frameSize)

/-- `Receiver::processCompressedSubframes`: the messages passed on.  The size is an
`int`, and nothing is read if it is negative. -/
def processCompressedSubframes (mem : Bytes) : List Bytes :=
  processCompressedSubframesLoop mem.length (mem.take (BitVec.ofNat 32 mem.length).toInt.toNat)

/-- `Receiver::processCompressed`: the messages passed on, and `compressionBuffers[0]`
afterwards. -/
def processCompressed (z : Zlib) (buffer : Bytes) (frame : Frame) : List Bytes × Bytes :=
  let compressed := buffer ++ frame.data
  if compressed.length < 4 then ([], compressed)
  else
    let bufferSize := leNat (compressed.take 4)
    if compressed.length < bufferSize then ([], compressed)
    else
      let wasCompressed := compressed.getD 4 0
      let body := compressed.drop 5
      if wasCompressed = 0 then (processCompressedSubframes body, [])
      else
        let uncompressedSize := leNat (body.take 4)
        (processCompressedSubframes (z.uncompress (body.drop 4) uncompressedSize), [])

/-- What `processCompressed` asserts: `compressed.size() <= bufferSize`, once the size
can be read. -/
def WithinBufferSize (buffer : Bytes) (frame : Frame) : Prop :=
  4 ≤ (buffer ++ frame.data).length →
    (buffer ++ frame.data).length ≤ leNat ((buffer ++ frame.data).take 4)

instance (buffer : Bytes) (frame : Frame) : Decidable (WithinBufferSize buffer frame) :=
  inferInstanceAs (Decidable (_ → _))

/-! ## Unreliable packets -/

/-- The loop of `UnreliableReceiveQueue::onReceive`.  It checks only that a frame starts
within the live bytes: the header and the data may come from the memory past them. -/
def unreliableFramesLoop : ℕ → ℕ → Bytes → List Visited
  | 0, _, _ => []
  | fuel + 1, live, mem =>
      if live = 0 then []
      else match FrameHeader.read mem with
        | none => []
        | some (header, body) =>
            let size := header.dataSize.toNat
            (⟨header.id, header.type, body.take size⟩, body.drop size) ::
              unreliableFramesLoop fuel (live - (maxFrameHeaderSize + size)) (body.drop size)

/-- The frames `UnreliableReceiveQueue::onReceive` visits. -/
def Packet.unreliableVisits (packet : Packet) : List Visited :=
  unreliableFramesLoop packet.data.length packet.data.length (packet.data ++ packet.rest)

/-- The loop visits a well-formed frame, whatever follows it. -/
theorem unreliableFramesLoop_append {f : Frame} (hf : f.Fits) (tail beyond : Bytes)
    (fuel : ℕ) :
    unreliableFramesLoop (fuel + 1) (f.bytes ++ tail).length (f.bytes ++ (tail ++ beyond)) =
      (f, tail ++ beyond) :: unreliableFramesLoop fuel tail.length (tail ++ beyond) := by
  have hsize : f.header.dataSize.toNat = f.data.length := by
    simp only [Frame.header, BitVec.toNat_ofNat]
    exact Nat.mod_eq_of_lt hf
  have hlive : (f.bytes ++ tail).length ≠ 0 := by
    simp [maxFrameHeaderSize]
  have hleft : (f.bytes ++ tail).length - (maxFrameHeaderSize + f.data.length) =
      tail.length := by
    rw [List.length_append, Frame.length_bytes]
    omega
  rw [unreliableFramesLoop, if_neg hlive, Frame.bytes, List.append_assoc,
    FrameHeader.read_bytes]
  simp only [hsize, List.take_left, List.drop_left]
  rw [← Frame.bytes, hleft]
  rfl

/-- **The loop goes past well-formed frames** as the bounds-checked loop does. -/
theorem unreliableFramesLoop_past {beyond : Bytes} {fs : List Frame} (h : ∀ f ∈ fs, f.Fits)
    (tail : Bytes) (fuel : ℕ) :
    unreliableFramesLoop (fs.length + fuel) (fs.flatMap Frame.bytes ++ tail).length
        (fs.flatMap Frame.bytes ++ tail ++ beyond) =
      layout (tail ++ beyond) fs ++ unreliableFramesLoop fuel tail.length (tail ++ beyond) := by
  induction fs with
  | nil => simp [layout]
  | cons f fs ih =>
      rw [List.flatMap_cons, List.append_assoc f.bytes, List.append_assoc f.bytes,
        List.length_cons, show fs.length + 1 + fuel = fs.length + fuel + 1 by omega,
        unreliableFramesLoop_append (h f (by simp)), ih fun g hg => h g (by simp [hg]),
        List.append_assoc]
      rfl

theorem unreliableVisits_of_data {packet : Packet} {fs : List Frame}
    (hdata : packet.data = fs.flatMap Frame.bytes) (h : ∀ f ∈ fs, f.Fits) :
    packet.unreliableVisits = layout packet.rest fs := by
  obtain ⟨fuel, hfuel⟩ := Nat.exists_eq_add_of_le (length_le_length_flatMap_bytes fs)
  have hpast := @unreliableFramesLoop_past packet.rest fs h [] fuel
  rw [List.append_nil, ← hfuel] at hpast
  rw [Packet.unreliableVisits, hdata, hpast]
  cases fuel <;> exact List.append_nil _

/-! ## The receiver -/

/-- `Receiver`.  `compressionBuffer` is `compressionBuffers[0]`; the second buffer is
empty outside `processCompressed`. -/
structure Receiver where
  status : Status := .uninitialized
  receiveQueue : ReceiveQueue := {}
  compressionBuffer : Bytes := []

namespace Receiver

/-- `Receiver::processReceived`, on the reassembly buffer.  An acknowledgement is copied
from memory whatever the size of its frame. -/
def processReceived (z : Zlib) (reliability : Reliability) (buffer : Bytes) (v : Visited) :
    List ReceiverCall × Bytes :=
  if v.1.type = FrameTypeID.ackFrame then ([.onAck (Ack.read (v.1.data ++ v.2))], buffer)
  else if v.1.type = FrameTypeID.data then ([.receive v.1.data reliability], buffer)
  else if v.1.type = FrameTypeID.dataCompressed then
    let (messages, buffer) := processCompressed z buffer v.1
    (messages.map (.receive · .reliable), buffer)
  else if v.1.type = FrameTypeID.closeWrite then
    (if reliability = .reliable then [.close] else [], buffer)
  else ([], buffer)

section dispatch
variable (z : Zlib) (reliability : Reliability) (buffer : Bytes) {v : Visited}

theorem processReceived_ack (h : v.1.type = FrameTypeID.ackFrame) :
    processReceived z reliability buffer v =
      ([.onAck (Ack.read (v.1.data ++ v.2))], buffer) := by
  rw [processReceived, if_pos h]

theorem processReceived_data (h : v.1.type = FrameTypeID.data) :
    processReceived z reliability buffer v = ([.receive v.1.data reliability], buffer) := by
  rw [processReceived, h, if_neg (by decide), if_pos rfl]

theorem processReceived_compressed (h : v.1.type = FrameTypeID.dataCompressed) :
    processReceived z reliability buffer v =
      ((processCompressed z buffer v.1).1.map (.receive · .reliable),
        (processCompressed z buffer v.1).2) := by
  rw [processReceived, h, if_neg (by decide), if_neg (by decide), if_pos rfl]

theorem processReceived_closeWrite (h : v.1.type = FrameTypeID.closeWrite) :
    processReceived z reliability buffer v =
      (if reliability = .reliable then [.close] else [], buffer) := by
  rw [processReceived, h, if_neg (by decide), if_neg (by decide), if_neg (by decide), if_pos rfl]

end dispatch

/-- `processReceived` on one frame after the other. -/
def processFrames (z : Zlib) (reliability : Reliability) :
    Bytes → List Visited → List ReceiverCall × Bytes
  | buffer, [] => ([], buffer)
  | buffer, v :: vs =>
      let (calls, buffer) := processReceived z reliability buffer v
      let (calls', buffer) := processFrames z reliability buffer vs
      (calls ++ calls', buffer)

theorem processFrames_append (z : Zlib) (reliability : Reliability) (buffer : Bytes)
    (vs ws : List Visited) :
    processFrames z reliability buffer (vs ++ ws) =
      ((processFrames z reliability buffer vs).1 ++
          (processFrames z reliability (processFrames z reliability buffer vs).2 ws).1,
        (processFrames z reliability (processFrames z reliability buffer vs).2 ws).2) := by
  induction vs generalizing buffer with
  | nil => rfl
  | cons v vs ih => simp [processFrames, ih]

/-- `Receiver::open`, up to the status. -/
def «open» (z : Zlib) (r : Receiver) : List ReceiverCall × Receiver :=
  let (frames, receiveQueue) := r.receiveQueue.processQueue
  let (calls, buffer) := processFrames z .reliable r.compressionBuffer frames
  (calls, { r with
    receiveQueue := receiveQueue
    compressionBuffer := buffer
    status := if r.status = .uninitialized then .open else r.status })

/-- `Receiver::onReceive`. -/
def onReceive (z : Zlib) (r : Receiver) (packet : Packet) : List ReceiverCall × Receiver :=
  if r.status ≠ .open then ([], r)
  else
    let acks := if requiresAck packet.header.type then [.ack packet.header.id] else []
    if packet.header.type = TypeID.dataReliable then
      let (frames, receiveQueue) := r.receiveQueue.onReceive packet
      let (calls, buffer) := processFrames z .reliable r.compressionBuffer frames
      (acks ++ calls, { r with receiveQueue := receiveQueue, compressionBuffer := buffer })
    else if packet.header.type = TypeID.dataUnreliable then
      let (calls, buffer) :=
        processFrames z .unreliable r.compressionBuffer packet.unreliableVisits
      (acks ++ calls, { r with compressionBuffer := buffer })
    else (acks, r)

end Receiver
end MrUDP
