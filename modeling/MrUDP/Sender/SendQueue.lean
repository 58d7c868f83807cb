import MrUDP.Packet

/-!
# The send queue

`mrudp/sender/SendQueue.cpp`: messages are coalesced into frames inside packets
that wait to be sent.  What happens to a message depends on the coalesce mode.
`none` puts it in a packet of its own, `packet` appends it to the last packet if
it fits, `stream` cuts it over as many packets as it takes, and
`streamCompressed` only adds it to a side buffer, which `dequeue` turns into
frames once the packet list is empty.

`generated` is a ghost: every frame whose header took an identifier from the
frame generator, oldest first.

## Main definitions

* `SendQueue`, `SendQueue.enqueue`, `SendQueue.dequeue`: the queue.
* `SendQueue.WF q b`: `b` frames have left the queue and the packets waiting in
  it carry the remaining generated frames, in order.
* `WF.enqueue`, `WF.dequeue`: the operations keep it.
-/

namespace MrUDP
open Wire

/-- zlib, which is not part of the repository.  `compress2` gets the source, the
room at the destination and the level; `none` is any result but `Z_OK`.
`uncompress` gets the source and the room, and returns what it wrote. -/
structure Zlib where
  compress2 : Bytes → ℕ → ℤ → Option Bytes
  uncompress : Bytes → ℕ → Bytes

/-- What the callers rely on: a successful `compress2` stays within the room it
was given, and `uncompress` with room for the original gives it back. -/
structure Zlib.Lossless (z : Zlib) : Prop where
  within : ∀ source room level dest, z.compress2 source room level = some dest →
    dest.length ≤ room
  inverse : ∀ source room level dest, z.compress2 source room level = some dest →
    z.uncompress dest source.length = source

/-- `SendQueue`.  `compressionBuffer` is `compressionBuffers[0]`; the second
buffer is scratch space of `compress` and empty outside it. -/
structure SendQueue where
  status : OpenStatus := .open
  frameIDGenerator : IDGenerator := {}
  queue : List Packet := []
  compressionBuffer : Bytes := []
  generated : List Frame := []
  deriving DecidableEq, Repr

namespace SendQueue

/-- `SendQueue::close`. -/
def close (q : SendQueue) : SendQueue :=
  if q.status ≠ .closed then { q with status := .closed, queue := [] } else q

/-- Give a frame the next identifier and push it on `packet`, the last packet of
the queue behind `front`. -/
def frameInto (q : SendQueue) (front : List Packet) (packet : Packet) (type : FrameTypeID)
    (data : Bytes) : SendQueue :=
  let header : FrameHeader := ⟨q.frameIDGenerator.id, type, BitVec.ofNat 16 data.length⟩
  { q with
    frameIDGenerator := q.frameIDGenerator.next
    queue := front ++ [(pushFrame packet header data).2]
    generated := q.generated ++ [⟨header.id, type, data.take header.dataSize.toNat⟩] }

/-- A packet nothing has been pushed on yet. -/
def freshPacket (q : SendQueue) : Packet := { base := q.frameIDGenerator.issued }

/-- `SendQueue::coalescePacket`. -/
def coalescePacket (q : SendQueue) (type : FrameTypeID) (data : Bytes) : Bool × SendQueue :=
  match q.queue.getLast? with
  | none => (false, q)
  | some packet =>
      if packet.data.length + data.length + maxFrameHeaderSize < maxPacketPostFrameSize then
        (true, q.frameInto q.queue.dropLast packet type data)
      else (false, q)

/-- The loop of `SendQueue::coalesceStream`: fill the last packet, or add one if
it is full.  Two rounds write at least one byte, so twice the size is enough. -/
def coalesceStreamLoop (type : FrameTypeID) : ℕ → SendQueue → Bytes → SendQueue
  | 0, q, _ => q
  | fuel + 1, q, data =>
      if data = [] then q
      else match q.queue.getLast? with
        | none => q
        | some packet =>
            let availableWriteSize : ℤ :=
              maxPacketPostFrameSize - (packet.data.length + maxFrameHeaderSize : ℕ)
            if 0 < availableWriteSize then
              let writeSize := min availableWriteSize.toNat data.length
              coalesceStreamLoop type fuel
                (q.frameInto q.queue.dropLast packet type (data.take writeSize))
                (data.drop writeSize)
            else
              coalesceStreamLoop type fuel { q with queue := q.queue ++ [q.freshPacket] } data

/-- `SendQueue::coalesceStream`. -/
def coalesceStream (q : SendQueue) (type : FrameTypeID) (data : Bytes) : SendQueue :=
  let q := if q.queue = [] then { q with queue := [q.freshPacket] } else q
  coalesceStreamLoop type (2 * data.length) q data

/-- One entry of the side buffer: type, 32-bit size, data. -/
def subframe (type : FrameTypeID) (data : Bytes) : Bytes :=
  type :: leBytes 4 data.length ++ data

/-- `SendQueue::coalesceStreamCompressed`. -/
def coalesceStreamCompressed (q : SendQueue) (type : FrameTypeID) (data : Bytes) : SendQueue :=
  { q with compressionBuffer := q.compressionBuffer ++ subframe type data }

def minimumSizeToAttemptCompression : ℕ := 48

/-- The block `SendQueue::compress` builds from the side buffer: a 32-bit size of
the whole block, a flag, and either the 32-bit original size with the compressed
bytes, or the bytes as they are. -/
def compressedBlock (z : Zlib) (level : ℤ) (source : Bytes) : Bytes :=
  let stored := leBytes 4 (4 + 1 + source.length) ++ 0 :: source
  if 0 < level ∧ minimumSizeToAttemptCompression ≤ source.length then
    match z.compress2 source source.length level with
    | some dest =>
        leBytes 4 (4 + 1 + 4 + dest.length) ++ 1 :: leBytes 4 source.length ++ dest
    | none => stored
  else stored

/-- `SendQueue::compress`.  `outSize` is 32 bits wide. -/
def compress (z : Zlib) (level : ℤ) (q : SendQueue) : SendQueue :=
  let block := compressedBlock z level q.compressionBuffer
  let outSize := block.length % 2 ^ 32
  { q.coalesceStream FrameTypeID.dataCompressed (block.take outSize) with
    compressionBuffer := [] }

/-- `SendQueue::coalesce`. -/
def coalesce (q : SendQueue) (type : FrameTypeID) (data : Bytes) :
    CoalesceMode → Bool × SendQueue
  | .none | .unset => (false, q)
  | .packet => q.coalescePacket type data
  | .stream => (true, q.coalesceStream type data)
  | .streamCompressed => (true, q.coalesceStreamCompressed type data)

/-- `SendQueue::enqueue`. -/
def enqueue (q : SendQueue) (type : FrameTypeID) (data : Bytes) (mode : CoalesceMode) :
    SendQueue :=
  if q.status = .closed then q
  else
    match q.coalesce type data mode with
    | (true, q) => q
    | (false, q) => q.frameInto q.queue q.freshPacket type data

/-- `SendQueue::dequeue`. -/
def dequeue (z : Zlib) (level : ℤ) (q : SendQueue) : Option Packet × SendQueue :=
  if q.status = .closed then (none, q)
  else
    let q := if q.queue = [] ∧ q.compressionBuffer ≠ [] then q.compress z level else q
    match q.queue with
    | [] => (none, q)
    | packet :: queue => (some packet, { q with queue := queue })

/-- `SendQueue::empty`. -/
def empty (q : SendQueue) : Bool := q.queue = [] ∧ q.compressionBuffer = []

/-- `SendQueue::clear`. -/
def clear (q : SendQueue) : SendQueue := { q with compressionBuffer := [], queue := [] }

/-- The sizes `Sender::send` lets through. -/
def Admissible (data : Bytes) (mode : CoalesceMode) : Prop :=
  data.length ≤ maxPacketDataSize ∨ mode = .stream ∨ mode = .streamCompressed

instance (data : Bytes) (mode : CoalesceMode) : Decidable (Admissible data mode) :=
  inferInstanceAs (Decidable (_ ∨ _))

/-- The check in `Sender::send`. -/
theorem admissible_of_not {data : Bytes} {mode : CoalesceMode}
    (h : ¬ (maxPacketDataSize < data.length ∧ mode ≠ .stream ∧ mode ≠ .streamCompressed)) :
    Admissible data mode := by
  by_contra hadm
  rw [Admissible, not_or, not_or, not_le] at hadm
  exact h hadm

/-! ## The packets waiting carry the generated frames -/

/-- The packets carry the frames of `g` from `b` on, one stretch after the other
and up to the end. -/
def Chain (g : List Frame) : ℕ → List Packet → Prop
  | b, [] => b = g.length
  | b, p :: ps => p.base = b ∧ ∃ n, p.Carries g n ∧ Chain g (b + n) ps

variable {g : List Frame} {b : ℕ}

variable {ps : List Packet} {data : Bytes} {packet : Packet}

/-- A fresh packet continues a chain. -/
theorem Chain.pushPacket {p : Packet} (hp : p.data = []) (hbase : p.base = g.length)
    (h : Chain g b ps) : Chain g b (ps ++ [p]) := by
  induction ps generalizing b with
  | nil =>
      have hb : b = g.length := h
      refine ⟨hbase.trans hb.symm, 0, ⟨by omega, by simp [hp]⟩, ?_⟩
      exact hb
  | cons q ps ih =>
      obtain ⟨hq, n, hc, hrest⟩ := h
      exact ⟨hq, n, hc, ih hrest⟩

/-- A frame pushed on the last packet is the next frame of the sequence. -/
theorem Chain.pushFrame {p p' : Packet} {f : Frame} (hdata : p'.data = p.data ++ f.bytes)
    (hbase : p'.base = p.base) (h : Chain g b (ps ++ [p])) : Chain (g ++ [f]) b (ps ++ [p']) := by
  induction ps generalizing b with
  | nil =>
      obtain ⟨hb, n, hc, hend⟩ := h
      have hend : b + n = g.length := hend
      refine ⟨hbase.trans hb, n + 1, ⟨by simp [hbase, hb]; omega, ?_⟩, ?_⟩
      · have hle := hc.le_length
        have htake : (g.drop p.base).take n = g.drop p.base :=
          List.take_of_length_le (by simp; omega)
        have htake' : ((g ++ [f]).drop p.base).take (n + 1) = g.drop p.base ++ [f] := by
          rw [List.drop_append_of_le_length (by omega), List.take_of_length_le]
          simp
          omega
        rw [hbase, hdata, hc.data, htake, htake']
        simp
      · show b + (n + 1) = (g ++ [f]).length
        simp
        omega
  | cons q ps ih =>
      obtain ⟨hq, n, hc, hrest⟩ := h
      exact ⟨hq, n, hc.mono [f], ih hrest⟩

theorem Chain.le_length (h : Chain g b ps) : b ≤ g.length := by
  induction ps generalizing b with
  | nil => exact le_of_eq h
  | cons p ps ih =>
      obtain ⟨_, n, _, hrest⟩ := h
      have := ih hrest
      omega

/-- `b` frames have left the queue; the packets waiting in it carry the rest of
the generated frames, and each of them leaves room for encryption. -/
structure WF (q : SendQueue) (b : ℕ) : Prop where
  issued : q.frameIDGenerator.issued = q.generated.length
  numbered : Numbered q.generated
  chain : Chain q.generated b q.queue
  fits : ∀ p ∈ q.queue, p.data.length ≤ maxPacketPostFrameSize

theorem WF.init : WF {} 0 where
  issued := rfl
  numbered := Numbered.nil
  chain := rfl
  fits := by simp

variable {q : SendQueue}

theorem freshPacket_base (h : q.WF b) : q.freshPacket.base = q.generated.length := h.issued

/-- A frame that fits is recorded with all its data. -/
theorem frameInto_generated (front : List Packet) (packet : Packet) (type : FrameTypeID)
    (hsmall : data.length ≤ maxPacketDataSize) :
    (q.frameInto front packet type data).generated =
      q.generated ++ [⟨q.frameIDGenerator.id, type, data⟩] := by
  have hmod : data.length % 2 ^ 16 = data.length := by
    apply Nat.mod_eq_of_lt
    simp only [maxPacketDataSize, maxPacketPostFrameSize, maxPacketPostCryptoSize,
      maxPacketSize, maxRouteSize, maxCryptoSize, maxFrameHeaderSize] at hsmall
    omega
  simp only [frameInto, BitVec.toNat_ofNat, hmod, List.take_length]

/-- A frame that leaves room for encryption is pushed whole. -/
theorem frameInto_queue (front : List Packet) (type : FrameTypeID)
    (hroom : packet.data.length + maxFrameHeaderSize + data.length ≤ maxPacketPostFrameSize) :
    ∃ p', (q.frameInto front packet type data).queue = front ++ [p'] ∧
      p'.data = packet.data ++ (⟨q.frameIDGenerator.id, type, data⟩ : Frame).bytes ∧
      p'.base = packet.base := by
  have hmax : maxPacketPostFrameSize ≤ maxPacketSize := by decide
  have hsize : data.length % 2 ^ 16 = data.length := by
    apply Nat.mod_eq_of_lt
    simp only [maxPacketSize] at hmax
    omega
  have hpush : (pushFrame packet
      ⟨q.frameIDGenerator.id, type, BitVec.ofNat 16 data.length⟩ data).2 =
      { packet with
        data := packet.data ++ (⟨q.frameIDGenerator.id, type, data⟩ : Frame).bytes
        rest := (packet.rest.drop maxFrameHeaderSize).drop data.length } := by
    rw [pushFrame, pushValue, pushData_of_fits (by simp; omega)]
    simp only [BitVec.toNat_ofNat, hsize, List.take_length]
    rw [pushData_of_fits (by simp; omega)]
    simp [Frame.bytes, Frame.header]
  refine ⟨_, rfl, ?_, ?_⟩
  · rw [hpush]
  · rw [hpush]

/-- Pushing a frame that leaves room for encryption on the last packet keeps the
queue well formed. -/
theorem WF.frameInto (h : q.WF b) {front : List Packet} {type : FrameTypeID}
    (hchain : Chain q.generated b (front ++ [packet]))
    (hfront : ∀ p ∈ front, p.data.length ≤ maxPacketPostFrameSize)
    (hroom : packet.data.length + maxFrameHeaderSize + data.length ≤ maxPacketPostFrameSize) :
    (q.frameInto front packet type data).WF b := by
  have hsmall : data.length ≤ maxPacketDataSize := by
    simp only [maxPacketDataSize]; omega
  let f : Frame := ⟨q.frameIDGenerator.id, type, data⟩
  have hgen : (q.frameInto front packet type data).generated = q.generated ++ [f] :=
    frameInto_generated front packet type hsmall
  -- Both pushes succeed, so the packet grows by the wire form of the frame.
  obtain ⟨p', hqueue, hdata, hbase⟩ := frameInto_queue (q := q) front type hroom
  refine ⟨?_, ?_, ?_, ?_⟩
  · rw [hgen, List.length_append]
    exact congrArg (· + 1) h.issued
  · rw [hgen]
    exact h.numbered.snoc (by simp [f, IDGenerator.id, h.issued]) hsmall
  · rw [hgen, hqueue]
    exact hchain.pushFrame hdata hbase
  · rw [hqueue]
    intro p hp
    rcases List.mem_append.mp hp with hp | hp
    · exact hfront p hp
    · rw [List.mem_singleton.mp hp, hdata, List.length_append, Frame.length_bytes]
      dsimp only
      omega

/-- The same for a packet added behind the queue. -/
theorem WF.frameInto_fresh (h : q.WF b) {type : FrameTypeID}
    (hsmall : data.length ≤ maxPacketDataSize) :
    (q.frameInto q.queue q.freshPacket type data).WF b := by
  refine h.frameInto (h.chain.pushPacket rfl (freshPacket_base h)) h.fits ?_
  simp only [freshPacket, List.length_nil, maxPacketDataSize] at hsmall ⊢
  have : maxFrameHeaderSize ≤ maxPacketPostFrameSize := by decide
  omega

theorem WF.pushPacket (h : q.WF b) : WF { q with queue := q.queue ++ [q.freshPacket] } b where
  __ := h
  chain := h.chain.pushPacket rfl (freshPacket_base h)
  fits := by
    intro p hp
    rcases List.mem_append.mp hp with hp | hp
    · exact h.fits p hp
    · rw [List.mem_singleton.mp hp]
      exact Nat.zero_le _

/-! ## What the operations generate -/

/-- Frames of one type that together carry `data`. -/
structure Cut (type : FrameTypeID) (data : Bytes) (fs : List Frame) : Prop where
  type : ∀ f ∈ fs, f.type = type
  data : fs.flatMap Frame.data = data

/-- `q'` is `q` with the frames `fs` generated and nothing else about it changed
but the packets waiting. -/
structure Grows (q q' : SendQueue) (fs : List Frame) : Prop where
  generated : q'.generated = q.generated ++ fs
  status : q'.status = q.status
  buffer : q'.compressionBuffer = q.compressionBuffer

theorem Grows.trans {q₁ q₂ q₃ : SendQueue} {fs₁ fs₂ : List Frame} (h₁ : Grows q₁ q₂ fs₁)
    (h₂ : Grows q₂ q₃ fs₂) : Grows q₁ q₃ (fs₁ ++ fs₂) where
  generated := by rw [h₂.generated, h₁.generated, List.append_assoc]
  status := h₂.status.trans h₁.status
  buffer := h₂.buffer.trans h₁.buffer

theorem grows_frameInto (front : List Packet) (packet : Packet) (type : FrameTypeID)
    (hsmall : data.length ≤ maxPacketDataSize) :
    Grows q (q.frameInto front packet type data) [⟨q.frameIDGenerator.id, type, data⟩] :=
  ⟨frameInto_generated front packet type hsmall, rfl, rfl⟩

private theorem dropLast_append_of_getLast? {p : Packet} (h : ps.getLast? = some p) :
    ps.dropLast ++ [p] = ps := by
  obtain ⟨ys, rfl⟩ := List.getLast?_eq_some_iff.mp h
  simp

/-- Filling the last packet of a well-formed queue keeps it well formed. -/
theorem WF.frameInto_last (h : q.WF b) (hlast : q.queue.getLast? = some packet) (type : FrameTypeID)
    (data : Bytes)
    (hroom : packet.data.length + maxFrameHeaderSize + data.length ≤ maxPacketPostFrameSize) :
    (q.frameInto q.queue.dropLast packet type data).WF b :=
  h.frameInto (by rw [dropLast_append_of_getLast? hlast]; exact h.chain)
    (fun p hp => h.fits p (List.dropLast_subset _ hp)) hroom

/-- The last packet can take at least one more byte of stream data. -/
def Room (q : SendQueue) : Prop :=
  ∀ packet, q.queue.getLast? = some packet →
    packet.data.length + maxFrameHeaderSize < maxPacketPostFrameSize

/-- A packet added behind the queue has room. -/
theorem room_pushPacket (q : SendQueue) : Room { q with queue := q.queue ++ [q.freshPacket] } := by
  intro p hp
  rw [List.getLast?_concat] at hp
  cases hp
  show 0 + maxFrameHeaderSize < maxPacketPostFrameSize
  decide

/-- A round of the stream loop writes what the last packet has room for. -/
theorem coalesceStreamLoop_of_room (type : FrameTypeID) (fuel : ℕ) (hdata : data ≠ [])
    (hlast : q.queue.getLast? = some packet)
    (hroom : packet.data.length + maxFrameHeaderSize < maxPacketPostFrameSize) {k : ℕ}
    (hk : k = min (maxPacketPostFrameSize - (packet.data.length + maxFrameHeaderSize))
      data.length) :
    coalesceStreamLoop type (fuel + 1) q data = coalesceStreamLoop type fuel
      (q.frameInto q.queue.dropLast packet type (data.take k)) (data.drop k) := by
  have hmin : min ((maxPacketPostFrameSize : ℤ) -
      (packet.data.length + maxFrameHeaderSize : ℕ)).toNat data.length = k := by
    omega
  rw [coalesceStreamLoop, if_neg hdata, hlast]
  simp only [hmin]
  rw [if_pos (by omega)]

/-- A round that finds the last packet full only adds a packet. -/
theorem coalesceStreamLoop_of_full (type : FrameTypeID) (fuel : ℕ) (hdata : data ≠ [])
    (hlast : q.queue.getLast? = some packet)
    (hfull : ¬ packet.data.length + maxFrameHeaderSize < maxPacketPostFrameSize) :
    coalesceStreamLoop type (fuel + 1) q data = coalesceStreamLoop type fuel
      { q with queue := q.queue ++ [q.freshPacket] } data := by
  rw [coalesceStreamLoop, if_neg hdata, hlast]
  simp only
  rw [if_neg (by omega)]

/-- **The stream loop** cuts all of `data` into non-empty frames.  A round that
finds the last packet full only adds a packet, hence the two bounds on the fuel. -/
theorem coalesceStreamLoop_spec (type : FrameTypeID) :
    ∀ (fuel : ℕ) (q : SendQueue) (data : Bytes), q.WF b → q.queue ≠ [] →
      (2 * data.length ≤ fuel ∨ (2 * data.length ≤ fuel + 1 ∧ q.Room)) →
      ∃ fs, Cut type data fs ∧ (∀ f ∈ fs, f.data ≠ []) ∧
        Grows q (coalesceStreamLoop type fuel q data) fs ∧
        (coalesceStreamLoop type fuel q data).WF b ∧
        (coalesceStreamLoop type fuel q data).queue ≠ [] := by
  intro fuel
  induction fuel with
  | zero =>
      intro q data h hne hfuel
      have hdata : data = [] := List.length_eq_zero_iff.mp (by omega)
      subst hdata
      exact ⟨[], ⟨by simp, rfl⟩, by simp, ⟨by simp [coalesceStreamLoop], rfl, rfl⟩, h, hne⟩
  | succ fuel ih =>
      intro q data h hne hfuel
      by_cases hdata : data = []
      · subst hdata
        have hrun : coalesceStreamLoop type (fuel + 1) q [] = q := by simp [coalesceStreamLoop]
        rw [hrun]
        exact ⟨[], ⟨by simp, rfl⟩, by simp, ⟨by simp, rfl, rfl⟩, h, hne⟩
      have hpos : 0 < data.length := List.length_pos_iff.mpr hdata
      obtain ⟨packet, hlast⟩ : ∃ p, q.queue.getLast? = some p :=
        Option.isSome_iff_exists.mp (by simpa using hne)
      by_cases hroom : packet.data.length + maxFrameHeaderSize < maxPacketPostFrameSize
      · -- Write what the last packet has room for, and go on with the rest.
        generalize hk : min (maxPacketPostFrameSize -
          (packet.data.length + maxFrameHeaderSize)) data.length = k
        have hk₁ : 0 < k := by omega
        have hk₂ : packet.data.length + maxFrameHeaderSize + k ≤ maxPacketPostFrameSize := by
          omega
        have hk₃ : (data.take k).length = k := by simp; omega
        have hsmall : (data.take k).length ≤ maxPacketDataSize := by
          simp only [maxPacketDataSize]; omega
        have hwf := h.frameInto_last hlast type (data.take k) (by omega)
        obtain ⟨fs, hcut, hnz, hgrow, hwf', hne'⟩ := ih _ (data.drop k) hwf
          (by simp [SendQueue.frameInto]) (Or.inl (by simp; omega))
        rw [coalesceStreamLoop_of_room type fuel hdata hlast hroom hk.symm]
        refine ⟨_ :: fs, ⟨?_, ?_⟩, ?_, (grows_frameInto _ _ type hsmall).trans hgrow, hwf', hne'⟩
        · simpa using hcut.type
        · rw [List.flatMap_cons, hcut.data, List.take_append_drop]
        · intro f hf
          rcases List.mem_cons.mp hf with rfl | hf
          · exact List.ne_nil_of_length_pos (by rw [hk₃]; exact hk₁)
          · exact hnz f hf
      · -- The last packet is full.
        have hfuel' : 2 * data.length ≤ fuel + 1 := by
          rcases hfuel with hf | ⟨_, hr⟩
          · exact hf
          · exact absurd (hr packet hlast) hroom
        obtain ⟨fs, hcut, hnz, hgrow, hwf', hne'⟩ :=
          ih _ data h.pushPacket (by simp) (Or.inr ⟨hfuel', q.room_pushPacket⟩)
        rw [coalesceStreamLoop_of_full type fuel hdata hlast hroom]
        exact ⟨fs, hcut, hnz, { hgrow with }, hwf', hne'⟩

/-- **`coalesceStream`** cuts all of `data` into non-empty frames behind the
frames generated before. -/
theorem WF.coalesceStream (h : q.WF b) (type : FrameTypeID) (data : Bytes) :
    ∃ fs, Cut type data fs ∧ (∀ f ∈ fs, f.data ≠ []) ∧
      Grows q (q.coalesceStream type data) fs ∧ (q.coalesceStream type data).WF b ∧
      (q.coalesceStream type data).queue ≠ [] := by
  by_cases hq : q.queue = []
  · have hwf : WF { q with queue := [q.freshPacket] } b := by
      have := h.pushPacket
      rwa [hq] at this
    obtain ⟨fs, hcut, hnz, hgrow, hwf', hne'⟩ :=
      coalesceStreamLoop_spec type (2 * data.length) _ data hwf (by simp) (Or.inl le_rfl)
    rw [SendQueue.coalesceStream, if_pos hq]
    exact ⟨fs, hcut, hnz, { hgrow with }, hwf', hne'⟩
  · rw [SendQueue.coalesceStream, if_neg hq]
    exact coalesceStreamLoop_spec type (2 * data.length) q data h hq (Or.inl le_rfl)

/-- What `enqueue` does to an open queue: the frames generated, and the side
buffer afterwards. -/
structure Enqueues (q : SendQueue) (type : FrameTypeID) (data : Bytes) (mode : CoalesceMode)
    (fs : List Frame) : Prop where
  generated : (q.enqueue type data mode).generated = q.generated ++ fs
  status : (q.enqueue type data mode).status = q.status
  buffer : (q.enqueue type data mode).compressionBuffer =
    if mode = .streamCompressed then q.compressionBuffer ++ subframe type data
    else q.compressionBuffer
  frames : if mode = .streamCompressed then fs = [] else Cut type data fs
  single : mode = .none ∨ mode = .packet → ∃ id, fs = [⟨id, type, data⟩]

/-- **`enqueue` keeps the queue well formed** and generates exactly the message. -/
theorem WF.enqueue (h : q.WF b) (hopen : q.status = .open) {type : FrameTypeID}
    {mode : CoalesceMode} (hadm : Admissible data mode) :
    (q.enqueue type data mode).WF b ∧ ∃ fs, Enqueues q type data mode fs := by
  have hstat : q.status ≠ .closed := by rw [hopen]; decide
  -- A packet of its own, for a message that was not coalesced.
  have hown : data.length ≤ maxPacketDataSize →
      ∀ q', q' = q.frameInto q.queue q.freshPacket type data → mode ≠ .streamCompressed →
        q.enqueue type data mode = q' →
        (q.enqueue type data mode).WF b ∧ ∃ fs, Enqueues q type data mode fs := by
    intro hsmall q' hq' hmode hrun
    have hgrow := grows_frameInto (q := q) q.queue q.freshPacket type hsmall
    rw [hq'] at hrun
    refine ⟨hrun ▸ h.frameInto_fresh hsmall, [⟨q.frameIDGenerator.id, type, data⟩], ?_⟩
    refine ⟨?_, ?_, ?_, ?_, fun _ => ⟨_, rfl⟩⟩
    · rw [hrun, hgrow.generated]
    · rw [hrun, hgrow.status]
    · rw [hrun, hgrow.buffer, if_neg hmode]
    · rw [if_neg hmode]
      exact ⟨by simp, by simp⟩
  cases mode with
  | none | unset =>
      have hsmall : data.length ≤ maxPacketDataSize := by simpa [Admissible] using hadm
      exact hown hsmall _ rfl (by decide) (by simp [SendQueue.enqueue, coalesce, hstat])
  | packet =>
      have hsmall : data.length ≤ maxPacketDataSize := by simpa [Admissible] using hadm
      cases hlast : q.queue.getLast? with
      | none =>
          exact hown hsmall _ rfl (by decide)
            (by simp [SendQueue.enqueue, coalesce, coalescePacket, hstat, hlast])
      | some packet =>
          by_cases hroom : packet.data.length + data.length + maxFrameHeaderSize <
              maxPacketPostFrameSize
          · have hrun : q.enqueue type data .packet =
                q.frameInto q.queue.dropLast packet type data := by
              simp [SendQueue.enqueue, coalesce, coalescePacket, hstat, hlast, hroom]
            have hgrow := grows_frameInto (q := q) q.queue.dropLast packet type hsmall
            refine ⟨hrun ▸ h.frameInto_last hlast type data (by omega),
              [⟨q.frameIDGenerator.id, type, data⟩], ?_⟩
            refine ⟨?_, ?_, ?_, ⟨by simp, by simp⟩, fun _ => ⟨_, rfl⟩⟩
            · rw [hrun, hgrow.generated]
            · rw [hrun, hgrow.status]
            · rw [hrun, hgrow.buffer]; rfl
          · exact hown hsmall _ rfl (by decide)
              (by simp [SendQueue.enqueue, coalesce, coalescePacket, hstat, hlast, hroom])
  | stream =>
      have hrun : q.enqueue type data .stream = q.coalesceStream type data := by
        simp [SendQueue.enqueue, coalesce, hstat]
      obtain ⟨fs, hcut, _, hgrow, hwf, _⟩ := h.coalesceStream type data
      refine ⟨hrun ▸ hwf, fs, ?_, ?_, ?_, hcut, by simp⟩
      · rw [hrun, hgrow.generated]
      · rw [hrun, hgrow.status]
      · rw [hrun, hgrow.buffer]; rfl
  | streamCompressed =>
      have hrun : q.enqueue type data .streamCompressed =
          q.coalesceStreamCompressed type data := by
        simp [SendQueue.enqueue, coalesce, hstat]
      refine ⟨?_, [], ?_, ?_, ?_, rfl, by simp⟩
      · rw [hrun]
        exact { h with }
      · rw [hrun, List.append_nil]; rfl
      · rw [hrun]; rfl
      · rw [hrun]; rfl

/-! ## Emptiness -/

theorem frameInto_queue_ne_nil (front : List Packet) (packet : Packet) (type : FrameTypeID)
    (data : Bytes) : (q.frameInto front packet type data).queue ≠ [] := by
  simp [frameInto]

theorem coalesceStreamLoop_queue_ne_nil (type : FrameTypeID) (fuel : ℕ) (data : Bytes)
    (h : q.queue ≠ []) : (coalesceStreamLoop type fuel q data).queue ≠ [] := by
  induction fuel generalizing q data with
  | zero => exact h
  | succ fuel ih =>
      rw [coalesceStreamLoop]
      split
      · exact h
      · split
        · exact h
        · dsimp only
          split
          · apply ih
            apply frameInto_queue_ne_nil
          · apply ih
            simp

/-- Streaming leaves a packet in the list, even for no data at all. -/
theorem coalesceStream_queue_ne_nil (q : SendQueue) (type : FrameTypeID) (data : Bytes) :
    (q.coalesceStream type data).queue ≠ [] := by
  apply coalesceStreamLoop_queue_ne_nil
  split
  · simp
  next h => exact h

theorem status_coalesceStreamLoop (type : FrameTypeID) (fuel : ℕ) (q : SendQueue)
    (data : Bytes) : (coalesceStreamLoop type fuel q data).status = q.status := by
  induction fuel generalizing q data with
  | zero => rfl
  | succ fuel ih =>
      rw [coalesceStreamLoop]
      split
      · rfl
      · split
        · rfl
        · dsimp only
          split
          · exact ih _ _
          · exact ih _ _

theorem status_coalesceStream (q : SendQueue) (type : FrameTypeID) (data : Bytes) :
    (q.coalesceStream type data).status = q.status := by
  rw [SendQueue.coalesceStream, status_coalesceStreamLoop]
  split <;> rfl

theorem status_close (q : SendQueue) : q.close.status = .closed := by
  rw [SendQueue.close]
  split
  · rfl
  next h => exact not_not.mp h

theorem status_dequeue (q : SendQueue) (z : Zlib) (level : ℤ) :
    (q.dequeue z level).2.status = q.status := by
  rw [SendQueue.dequeue]
  split
  · rfl
  · by_cases hc : q.queue = [] ∧ q.compressionBuffer ≠ []
    · have hstatus : (q.compress z level).status = q.status := status_coalesceStream ..
      simp only [if_pos hc]
      split <;> exact hstatus
    · simp only [if_neg hc]
      split <;> rfl

theorem status_enqueue (q : SendQueue) (type : FrameTypeID) (data : Bytes)
    (mode : CoalesceMode) : (q.enqueue type data mode).status = q.status := by
  cases hstatus : q.status with
  | closed => rw [SendQueue.enqueue, if_pos hstatus, hstatus]
  | «open» =>
      cases mode with
      | none | unset => simp [SendQueue.enqueue, hstatus, coalesce, frameInto]
      | packet =>
          cases hback : q.queue.getLast? with
          | none =>
              simp [SendQueue.enqueue, hstatus, coalesce, coalescePacket, hback, frameInto]
          | some packet =>
              by_cases hroom : packet.data.length + data.length + maxFrameHeaderSize <
                  maxPacketPostFrameSize <;>
                simp [SendQueue.enqueue, hstatus, coalesce, coalescePacket, hback, hroom,
                  frameInto]
      | stream => simp [SendQueue.enqueue, hstatus, coalesce, status_coalesceStream]
      | streamCompressed =>
          simp [SendQueue.enqueue, hstatus, coalesce, coalesceStreamCompressed]

/-- A dequeue that returns no packet changes nothing: the queue is closed, or empty. -/
theorem dequeue_eq_none {z : Zlib} {level : ℤ} {q' : SendQueue}
    (h : q.dequeue z level = (none, q')) :
    q' = q ∧ (q.status = .closed ∨ q.queue = [] ∧ q.compressionBuffer = []) := by
  by_cases hclosed : q.status = .closed
  · rw [SendQueue.dequeue, if_pos hclosed] at h
    cases h
    exact ⟨rfl, .inl hclosed⟩
  rw [SendQueue.dequeue, if_neg hclosed] at h
  by_cases hc : q.queue = [] ∧ q.compressionBuffer ≠ []
  · obtain ⟨packet, ps, hps⟩ : ∃ packet ps, (q.compress z level).queue = packet :: ps :=
      List.exists_cons_of_ne_nil (q.coalesceStream_queue_ne_nil _ _)
    simp only [if_pos hc, hps] at h
    cases h
  · simp only [if_neg hc] at h
    split at h
    next hqueue =>
      cases h
      refine ⟨rfl, .inr ⟨hqueue, ?_⟩⟩
      by_contra hbuffer
      exact hc ⟨hqueue, hbuffer⟩
    · cases h

/-- Only an open queue gives out a packet. -/
theorem open_of_dequeue {z : Zlib} {level : ℤ} {q' : SendQueue} {p : Packet}
    (h : q.dequeue z level = (some p, q')) : q.status = .open := by
  cases hstatus : q.status with
  | «open» => rfl
  | closed => simp [SendQueue.dequeue, hstatus] at h

/-- A message enqueued on an open queue is in it afterwards. -/
theorem empty_enqueue (type : FrameTypeID) (data : Bytes) (mode : CoalesceMode) :
    (q.enqueue type data mode).empty = true → q.status = .closed ∧ q.empty = true := by
  intro h
  cases hstatus : q.status with
  | closed =>
      rw [SendQueue.enqueue, if_pos hstatus] at h
      exact ⟨rfl, h⟩
  | «open» =>
      exfalso
      have hown := frameInto_queue_ne_nil (q := q) q.queue q.freshPacket type data
      cases mode with
      | none | unset =>
          simp [SendQueue.enqueue, hstatus, coalesce, SendQueue.empty, hown] at h
      | packet =>
          have hlast := fun packet =>
            frameInto_queue_ne_nil (q := q) q.queue.dropLast packet type data
          cases hback : q.queue.getLast? with
          | none =>
              simp [SendQueue.enqueue, hstatus, coalesce, coalescePacket, hback,
                SendQueue.empty, hown] at h
          | some packet =>
              by_cases hroom : packet.data.length + data.length + maxFrameHeaderSize <
                  maxPacketPostFrameSize <;>
                simp [SendQueue.enqueue, hstatus, coalesce, coalescePacket, hback, hroom,
                  SendQueue.empty, hown, hlast] at h
      | stream =>
          have hstream := q.coalesceStream_queue_ne_nil type data
          simp [SendQueue.enqueue, hstatus, coalesce, SendQueue.empty, hstream] at h
      | streamCompressed =>
          simp [SendQueue.enqueue, hstatus, coalesce, coalesceStreamCompressed,
            SendQueue.empty, subframe] at h

/-- What `dequeue` does to an open queue: either the packet list was not empty or
there is nothing at all, or the side buffer is turned into frames first. -/
structure Dequeues (z : Zlib) (level : ℤ) (q : SendQueue) (fs : List Frame) : Prop where
  generated : (q.dequeue z level).2.generated = q.generated ++ fs
  status : (q.dequeue z level).2.status = q.status
  frames : if q.queue = [] ∧ q.compressionBuffer ≠ [] then
      (q.dequeue z level).2.compressionBuffer = [] ∧
        Cut FrameTypeID.dataCompressed
          ((compressedBlock z level q.compressionBuffer).take
            ((compressedBlock z level q.compressionBuffer).length % 2 ^ 32)) fs
    else (q.dequeue z level).2.compressionBuffer = q.compressionBuffer ∧ fs = []
  packet : (q.dequeue z level).1 = none ↔ q.queue = [] ∧ q.compressionBuffer = []

/-- The first packet of a well-formed queue carries its next stretch. -/
theorem WF.pop (h : q.WF b) (hq : q.queue = packet :: ps) :
    packet.base = b ∧ packet.data.length ≤ maxPacketPostFrameSize ∧
      ∃ n, packet.Carries q.generated n ∧ WF { q with queue := ps } (b + n) := by
  have hchain := h.chain
  rw [hq] at hchain
  obtain ⟨hbase, n, hc, hrest⟩ := hchain
  refine ⟨hbase, h.fits packet (by simp [hq]), n, hc, h.issued, h.numbered, hrest, ?_⟩
  intro p hp
  exact h.fits p (by rw [hq]; exact List.mem_cons_of_mem _ hp)

/-- **`dequeue` keeps the queue well formed**: it hands out the next stretch of
the generated frames. -/
theorem WF.dequeue (h : q.WF b) (hopen : q.status = .open) (z : Zlib) (level : ℤ) :
    (∃ fs, Dequeues z level q fs) ∧
      ((q.dequeue z level).1 = none → (q.dequeue z level).2.WF b) ∧
      ∀ packet, (q.dequeue z level).1 = some packet →
        packet.base = b ∧ packet.data.length ≤ maxPacketPostFrameSize ∧
          ∃ n, packet.Carries (q.dequeue z level).2.generated n ∧
            (q.dequeue z level).2.WF (b + n) := by
  have hstat : q.status ≠ .closed := by rw [hopen]; decide
  by_cases hc : q.queue = [] ∧ q.compressionBuffer ≠ []
  · -- The side buffer becomes a block, cut into frames behind an empty list.
    obtain ⟨fs, hcut, _, hgrow, hwf, hne⟩ := h.coalesceStream FrameTypeID.dataCompressed
      ((compressedBlock z level q.compressionBuffer).take
        ((compressedBlock z level q.compressionBuffer).length % 2 ^ 32))
    have hwf' : (q.compress z level).WF b := { hwf with }
    obtain ⟨packet, ps, hq⟩ : ∃ p ps, (q.compress z level).queue = p :: ps :=
      List.exists_cons_of_ne_nil hne
    have hrun : q.dequeue z level = (some packet, { q.compress z level with queue := ps }) := by
      rw [SendQueue.dequeue, if_neg hstat]
      simp only [if_pos hc, hq]
    rw [hrun]
    refine ⟨⟨fs, ?_, ?_, ?_, ?_⟩, by simp, ?_⟩
    · rw [hrun]; exact hgrow.generated
    · rw [hrun]; exact hgrow.status
    · rw [if_pos hc, hrun]
      exact ⟨rfl, hcut⟩
    · rw [hrun]
      simp [hc.2]
    · rintro p hp
      cases hp
      exact hwf'.pop hq
  · cases hq : q.queue with
    | nil =>
        have hrun : q.dequeue z level = (none, q) := by
          rw [SendQueue.dequeue, if_neg hstat]
          simp only [if_neg hc]
          rw [hq]
        have hbuf : q.compressionBuffer = [] := by
          by_contra hbuf
          exact hc ⟨hq, hbuf⟩
        rw [hrun]
        refine ⟨⟨[], ?_, ?_, ?_, ?_⟩, fun _ => h, by simp⟩
        · rw [hrun]; simp
        · rw [hrun]
        · rw [if_neg hc, hrun]; exact ⟨rfl, rfl⟩
        · rw [hrun]; simp [hq, hbuf]
    | cons packet ps =>
        have hrun : q.dequeue z level = (some packet, { q with queue := ps }) := by
          rw [SendQueue.dequeue, if_neg hstat]
          simp only [if_neg hc]
          rw [hq]
        rw [hrun]
        refine ⟨⟨[], ?_, ?_, ?_, ?_⟩, by simp, ?_⟩
        · rw [hrun]; simp
        · rw [hrun]
        · rw [if_neg hc, hrun]; exact ⟨rfl, rfl⟩
        · rw [hrun]; simp [hq]
        · rintro p hp
          cases hp
          exact h.pop hq

/-- What `dequeue` does if it hands out a packet.  What it generates is compressed. -/
theorem WF.of_dequeue {z : Zlib} {level : ℤ} {p : Packet} {q' : SendQueue} (h : q.WF b)
    (hq : q.dequeue z level = (some p, q')) :
    p.base = b ∧ p.data.length ≤ maxPacketPostFrameSize ∧ q'.status = .open ∧
      ∃ n fs, p.Carries q'.generated n ∧ q'.WF (b + n) ∧ q'.generated = q.generated ++ fs ∧
        (q.compressionBuffer = [] → fs = [] ∧ q'.compressionBuffer = []) ∧
        ∀ f ∈ fs, f.type = FrameTypeID.dataCompressed := by
  have hopen := open_of_dequeue hq
  obtain ⟨⟨fs, hgenerated, hstatus, hframes, -⟩, -, hsome⟩ := h.dequeue hopen z level
  obtain ⟨hbase, hfits, n, hcarries, hwf⟩ := hsome p (by rw [hq])
  rw [hq] at hgenerated hstatus hframes hcarries hwf
  refine ⟨hbase, hfits, hstatus.trans hopen, n, fs, hcarries, hwf, hgenerated, ?_, ?_⟩
  · intro hbuffer
    rw [if_neg (fun hne => hne.2 hbuffer)] at hframes
    exact ⟨hframes.2, hframes.1.trans hbuffer⟩
  · split at hframes
    · exact hframes.2.type
    · rw [hframes.2]
      simp

end SendQueue
end MrUDP
