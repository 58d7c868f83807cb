import MrUDP.Types
import MrUDP.Lib.Serial

/-!
# Packets, frames and their byte format

`mrudp/Packet.h` and `mrudp/Packet.inl`: the packet and frame types, the size
constants, the wrapping order on identifiers, the stack-like `pushData` and
`popData` on a packet's data area, and the frame layout inside `DATA_RELIABLE`
and `DATA_UNRELIABLE` packets.

Type identifiers are C++ enumerations with underlying type `uint8_t`: a received
header can hold any byte there, so they are bytes with named values.

A packet's data area is a fixed array of which the first `dataSize` bytes are
live.  The model keeps the live bytes in `data` and what the array holds past
them in `rest`; `dataSize` is the length of `data`.  Only a parser that fails to
stop at `dataSize` ever looks at `rest`.

## Main definitions

* `idGreaterThan`: the wrapping order on `w`-bit identifiers.
* `Packet`, `pushData`, `popData`, `pushFrame`: the packet stack.
* `Frame`, `Frame.bytes`: a frame and its wire form.
* `frames`: the complete frames at the front of a byte string.
* `frames_flatMap_bytes`: parsing undoes writing.
-/

namespace MrUDP
open Wire

/-! ## Identifiers -/

/-- `top_bit` of `id_greater_than`.  What is shifted is an `int`, so in a type of more than
32 bits nothing is left of it. -/
def topBit (w : ℕ) : BitVec w := ((1 : BitVec 32) <<< (w - 1)).signExtend w

theorem toNat_topBit {w : ℕ} (hw : w ≠ 0) (hint : w ≤ 32) : (topBit w).toNat = 2 ^ (w - 1) := by
  interval_cases w <;> first | contradiction | rfl

/-- `id_greater_than`: does `lhs` come after `rhs`, wrap-around allowed for? -/
def idGreaterThan {w : ℕ} (lhs rhs : BitVec w) : Bool :=
  let lhsGtrRhs := decide (rhs.toNat < lhs.toNat)
  let diff := if lhsGtrRhs then lhs.toNat - rhs.toNat else rhs.toNat - lhs.toNat
  if (topBit w).toNat < diff then !lhsGtrRhs else lhsGtrRhs

/-- On the names of two indices less than half a turn apart the wrapping order
is the order of the indices. -/
theorem idGreaterThan_serial {w i j : ℕ} (hint : w ≤ 32) (hij : i < j + 2 ^ (w - 1))
    (hji : j < i + 2 ^ (w - 1)) :
    idGreaterThan (serial w i) (serial w j) = decide (j < i) := by
  rcases Nat.eq_zero_or_pos w with rfl | hw
  · have : i = j := by simp at hij hji; omega
    subst this
    simp [idGreaterThan]
  have hpow : 2 ^ w = 2 * 2 ^ (w - 1) := by
    conv_lhs => rw [show w = w - 1 + 1 by omega, pow_succ']
  have hpos : 0 < 2 ^ (w - 1) := by positivity
  -- The quotients differ by at most one, so the products become linear.
  have hq := div_near (show 0 < 2 ^ w by positivity) (show i ≤ j + 2 ^ w by omega)
    (show j ≤ i + 2 ^ w by omega)
  have hi := Nat.div_add_mod i (2 ^ w)
  have hj := Nat.div_add_mod j (2 ^ w)
  have hi' := Nat.mod_lt i (show 0 < 2 ^ w by positivity)
  have hj' := Nat.mod_lt j (show 0 < 2 ^ w by positivity)
  simp only [idGreaterThan, toNat_serial, toNat_topBit hw.ne' hint]
  generalize i % 2 ^ w = ri at *
  generalize j % 2 ^ w = rj at *
  generalize i / 2 ^ w = qi at *
  generalize j / 2 ^ w = qj at *
  generalize 2 ^ (w - 1) = T at *
  rw [hpow] at hi hj hi' hj'
  have hturns : 2 * T * qi = 2 * T * qj ∨ 2 * T * qi = 2 * T * qj + 2 * T ∨
      2 * T * qj = 2 * T * qi + 2 * T := by
    rcases hq with rfl | rfl | rfl
    · exact .inl rfl
    · exact .inr (.inl (by ring))
    · exact .inr (.inr (by ring))
  generalize 2 * T * qi = ti at *
  generalize 2 * T * qj = tj at *
  by_cases h : rj < ri <;> simp only [h, decide_true, decide_false, if_true, if_false,
    Bool.not_true, Bool.not_false, Bool.false_eq_true] <;> split <;>
    first | omega | (simp; omega)

/-- `IDGenerator<T>`.  The atomic starts at zero and is only ever incremented, so
it holds the number of identifiers issued, wrapped to the width. -/
structure IDGenerator where
  issued : ℕ := 0
  deriving DecidableEq, Repr

namespace IDGenerator

/-- The identifier `nextID` returns. -/
def id (g : IDGenerator) : BitVec 16 := serial 16 g.issued

/-- The generator after `nextID`. -/
def next (g : IDGenerator) : IDGenerator := ⟨g.issued + 1⟩

end IDGenerator

/-! ## Type identifiers -/

/-- `TypeID`, the packet types. -/
abbrev TypeID := UInt8

namespace TypeID
abbrev none : TypeID := 0
abbrev h0 : TypeID := 65
abbrev h1 : TypeID := 66
abbrev h2 : TypeID := 67
abbrev h3 : TypeID := 68
abbrev handshakeComplete : TypeID := 69
abbrev ack : TypeID := 75
abbrev dataReliable : TypeID := 82
abbrev dataUnreliable : TypeID := 85
abbrev probe : TypeID := 80
abbrev closeRead : TypeID := 73
abbrev authenticateChallenge : TypeID := 77
abbrev authenticateResponse : TypeID := 87
abbrev encryptedViaPublicKey : TypeID := 90
abbrev encryptedViaAES : TypeID := 89
end TypeID

def isHandshake (typeID : TypeID) : Bool :=
  TypeID.h0 ≤ typeID && typeID < TypeID.handshakeComplete

def isAck (typeID : TypeID) : Bool :=
  typeID == TypeID.ack || typeID == TypeID.h1 || typeID == TypeID.h3 ||
    typeID == TypeID.authenticateResponse

/-- `requiresAck` of `mrudp/receiver/Receiver.cpp`. -/
def requiresAck (type : TypeID) : Bool :=
  type = TypeID.dataReliable ∨ type = TypeID.probe ∨ type = TypeID.closeRead

/-- `FrameTypeID`, the frame types. -/
abbrev FrameTypeID := UInt8

namespace FrameTypeID
abbrev ackFrame : FrameTypeID := 65
abbrev data : FrameTypeID := 84
abbrev closeWrite : FrameTypeID := 87
abbrev dataCompressed : FrameTypeID := 90
end FrameTypeID

/-! ## Sizes -/

def maxPacketSize : ℕ := 1500
def maxRouteSize : ℕ := 0
def maxPacketPostCryptoSize : ℕ := maxPacketSize - maxRouteSize
def maxCryptoSize : ℕ := 64
def maxPacketPostFrameSize : ℕ := maxPacketPostCryptoSize - maxCryptoSize

/-- `sizeof(FrameHeader)`. -/
def maxFrameHeaderSize : ℕ := 5
def maxPacketDataSize : ℕ := maxPacketPostFrameSize - maxFrameHeaderSize

/-! ## The packet stack -/

/-- `Header`, without the version field, which nothing reads. -/
structure Header where
  connection : ShortConnectionID := 0
  type : TypeID := TypeID.none
  id : PacketID := 0
  deriving DecidableEq, Repr

/-- `Packet`.  `base` is a ghost: the position of the packet's first frame among
all frames its send queue ever generated. -/
structure Packet where
  header : Header := {}
  data : Bytes := []
  rest : Bytes := []
  base : ℕ := 0
  deriving DecidableEq, Repr

/-- `pushData(packet, data, size)`: append bytes to the live area.  The room left
is computed in `size_t`, so it wraps when `size` exceeds the array. -/
def pushData (packet : Packet) (data : Bytes) : Bool × Packet :=
  if (((maxPacketSize : ℤ) - data.length) % 2 ^ 64).toNat < packet.data.length then
    (false, packet)
  else
    (true, { packet with data := packet.data ++ data, rest := packet.rest.drop data.length })

/-- `pushData(packet, t)` for a fixed-size value: it reports success whatever
the byte version says. -/
def pushValue (packet : Packet) (t : Bytes) : Bool × Packet := (true, (pushData packet t).2)

/-- `popData(packet, data, size)`: take bytes off the end of the live area. -/
def popData (packet : Packet) (size : ℕ) : Option (Bytes × Packet) :=
  if packet.data.length < size then none
  else
    let at_ := packet.data.length - size
    let popped := packet.data.drop at_
    some (popped, { packet with data := packet.data.take at_, rest := popped ++ packet.rest })

/-- `pushSizedData`: bytes, and then their number in 16 bits. -/
def pushSizedData (packet : Packet) (data : Bytes) : Bool × Packet :=
  match pushData packet data with
  | (false, packet) => (false, packet)
  | (true, packet) => pushValue packet (leBytes 2 data.length)

/-- `popSizedData`: the number is gone from the packet even if too few bytes are left. -/
def popSizedData (packet : Packet) : Option Bytes × Packet :=
  match popData packet 2 with
  | none => (none, packet)
  | some (size, packet) =>
      match popData packet (leNat size) with
      | none => (none, packet)
      | some (data, packet) => (some data, packet)

/-- The room of `pushData` does not wrap if a packet can hold that many bytes. -/
theorem toNat_room {n : ℕ} (h : n ≤ maxPacketSize) :
    (((maxPacketSize : ℤ) - n) % 2 ^ 64).toNat = maxPacketSize - n := by
  rw [Int.emod_eq_of_lt (by omega) (by simp only [maxPacketSize] at *; omega)]
  omega

theorem pushData_of_fits {packet : Packet} {data : Bytes}
    (h : packet.data.length + data.length ≤ maxPacketSize) :
    pushData packet data =
      (true, { packet with data := packet.data ++ data
                           rest := packet.rest.drop data.length }) := by
  rw [pushData, toNat_room (by omega), if_neg (by omega)]

@[simp] theorem header_pushData (packet : Packet) (data : Bytes) :
    (pushData packet data).2.header = packet.header := by
  rw [pushData]
  split <;> rfl

@[simp] theorem header_pushValue (packet : Packet) (t : Bytes) :
    (pushValue packet t).2.header = packet.header := header_pushData packet t

@[simp] theorem header_pushSizedData (packet : Packet) (data : Bytes) :
    (pushSizedData packet data).2.header = packet.header := by
  have hdata := header_pushData packet data
  rw [pushSizedData]
  split
  next h => rwa [h] at hdata
  next h =>
    rw [h] at hdata
    rw [header_pushValue]
    exact hdata

theorem header_popData {packet packet' : Packet} {size : ℕ} {data : Bytes}
    (h : popData packet size = some (data, packet')) : packet'.header = packet.header := by
  rw [popData] at h
  split at h
  · cases h
  · cases h
    rfl

theorem header_popSizedData (packet : Packet) :
    (popSizedData packet).2.header = packet.header := by
  rw [popSizedData]
  split
  · rfl
  next h =>
    rw [← header_popData h]
    split
    · rfl
    next h' => exact header_popData h'

/-- A pop returns the bytes that were pushed last. -/
theorem popData_append (packet : Packet) (front back : Bytes)
    (h : packet.data = front ++ back) :
    popData packet back.length =
      some (back, { packet with data := front, rest := back ++ packet.rest }) := by
  simp [popData, h]

theorem pushValue_of_fits {packet : Packet} {t : Bytes}
    (h : packet.data.length + t.length ≤ maxPacketSize) :
    (pushValue packet t).2 =
      { packet with data := packet.data ++ t, rest := packet.rest.drop t.length } := by
  rw [pushValue, pushData_of_fits h]

theorem pushSizedData_of_fits {packet : Packet} {data : Bytes}
    (h : packet.data.length + data.length + 2 ≤ maxPacketSize) :
    ∃ rest, pushSizedData packet data =
      (true, { packet with data := packet.data ++ data ++ leBytes 2 data.length
                           rest := rest }) := by
  rw [pushSizedData, pushData_of_fits (by omega)]
  dsimp only
  rw [pushValue, pushData_of_fits (by simpa [add_assoc] using h)]
  exact ⟨_, rfl⟩

/-- Sized bytes are popped as they were pushed. -/
theorem popSizedData_append (packet : Packet) (front back : Bytes)
    (h : packet.data = front ++ back ++ leBytes 2 back.length) (hlength : back.length < 2 ^ 16) :
    ∃ rest, popSizedData packet = (some back, { packet with data := front, rest := rest }) := by
  have hsize := popData_append packet (front ++ back) (leBytes 2 back.length) h
  have hback := fun p : Packet => popData_append p front back
  rw [length_leBytes] at hsize
  rw [popSizedData, hsize]
  dsimp only
  rw [leNat_leBytes (by simpa using hlength), hback _ rfl]
  exact ⟨_, rfl⟩

/-! ## Frames -/

/-- `FrameHeader`. -/
structure FrameHeader where
  id : FrameID
  type : FrameTypeID
  dataSize : BitVec 16
  deriving DecidableEq, Repr

/-- The packed memory image of a frame header. -/
def FrameHeader.bytes (h : FrameHeader) : Bytes :=
  leBytes 2 h.id.toNat ++ h.type :: leBytes 2 h.dataSize.toNat

/-- Read a frame header from memory, with the memory that follows it. -/
def FrameHeader.read : Bytes → Option (FrameHeader × Bytes)
  | i₀ :: i₁ :: t :: s₀ :: s₁ :: mem =>
      some (⟨BitVec.ofNat 16 (leNat [i₀, i₁]), t, BitVec.ofNat 16 (leNat [s₀, s₁])⟩, mem)
  | _ => none

/-- `pushFrame`: the header and then `header.dataSize` bytes of `data`. -/
def pushFrame (packet : Packet) (header : FrameHeader) (data : Bytes) : Bool × Packet :=
  let (_, packet) := pushValue packet header.bytes
  pushData packet (data.take header.dataSize.toNat)

/-- `ReceiveQueue::Frame`: a frame header with the data it announces. -/
structure Frame where
  id : FrameID
  type : FrameTypeID
  data : Bytes
  deriving DecidableEq, Repr

/-- The header of a frame, its data size cut to `FrameHeader::Size`. -/
def Frame.header (f : Frame) : FrameHeader := ⟨f.id, f.type, BitVec.ofNat 16 f.data.length⟩

/-- The wire form of a frame. -/
def Frame.bytes (f : Frame) : Bytes := f.header.bytes ++ f.data

/-- The frame's data size fits the header field. -/
def Frame.Fits (f : Frame) : Prop := f.data.length < 2 ^ 16

instance (f : Frame) : Decidable f.Fits := inferInstanceAs (Decidable (_ < _))

@[simp] theorem FrameHeader.length_bytes (h : FrameHeader) :
    h.bytes.length = maxFrameHeaderSize := by
  simp [FrameHeader.bytes, maxFrameHeaderSize]

@[simp] theorem Frame.length_bytes (f : Frame) :
    f.bytes.length = maxFrameHeaderSize + f.data.length := by
  simp [Frame.bytes]

/-- Reading a header where one was written gives it back. -/
@[simp] theorem FrameHeader.read_bytes (h : FrameHeader) (mem : Bytes) :
    FrameHeader.read (h.bytes ++ mem) = some (h, mem) := by
  have hid := ofNat_leNat_leBytes (n := 2) h.id (by norm_num)
  have hsize := ofNat_leNat_leBytes (n := 2) h.dataSize (by norm_num)
  simp only [leBytes] at hid hsize
  simp only [FrameHeader.bytes, leBytes, List.cons_append, List.nil_append, FrameHeader.read,
    hid, hsize]

/-- A frame read off the wire together with the memory behind it. -/
abbrev Visited := Frame × Bytes

/-- The frames the bounds-checked loop of `ReceiveQueue::onReceive` visits: it
goes on while a complete frame is left and stops at the first incomplete one.
`beyond` is the memory past the live bytes; `fuel` bounds the number of frames,
and the live length is always enough. -/
def framesLoop (beyond : Bytes) : ℕ → Bytes → List Visited
  | 0, _ => []
  | fuel + 1, data =>
      if data = [] then []
      else match FrameHeader.read data with
        | none => []
        | some (header, body) =>
            if body.length < header.dataSize.toNat then []
            else
              let after := body.drop header.dataSize.toNat
              (⟨header.id, header.type, body.take header.dataSize.toNat⟩, after ++ beyond) ::
                framesLoop beyond fuel after

/-- The frames visited in a packet, each with the memory behind it. -/
def Packet.visits (packet : Packet) : List Visited :=
  framesLoop packet.rest packet.data.length packet.data

/-- The complete frames at the front of a packet's live bytes. -/
def Packet.frames (packet : Packet) : List Frame := packet.visits.map Prod.fst

/-- The loop reads one well-formed frame after the other, whatever follows. -/
theorem framesLoop_append {beyond : Bytes} {f : Frame} (hf : f.Fits) (tail : Bytes)
    (fuel : ℕ) :
    framesLoop beyond (fuel + 1) (f.bytes ++ tail) =
      (f, tail ++ beyond) :: framesLoop beyond fuel tail := by
  have hne : f.bytes ++ tail ≠ [] := by
    intro h
    have := congrArg List.length h
    simp [maxFrameHeaderSize] at this
  have hsize : f.header.dataSize.toNat = f.data.length := by
    simp only [Frame.header, BitVec.toNat_ofNat]
    exact Nat.mod_eq_of_lt hf
  rw [framesLoop, if_neg hne, Frame.bytes, List.append_assoc, FrameHeader.read_bytes]
  simp only [hsize, List.length_append, List.take_left, List.drop_left]
  rw [if_neg (by omega)]
  rfl

@[simp] theorem framesLoop_nil (beyond : Bytes) (fuel : ℕ) : framesLoop beyond fuel [] = [] := by
  cases fuel <;> rfl

/-- The frames of a well-formed byte string, each with the memory behind it. -/
def layout (beyond : Bytes) : List Frame → List Visited
  | [] => []
  | f :: fs => (f, fs.flatMap Frame.bytes ++ beyond) :: layout beyond fs

@[simp] theorem map_fst_layout (beyond : Bytes) (fs : List Frame) :
    (layout beyond fs).map Prod.fst = fs := by
  induction fs with
  | nil => rfl
  | cons f fs ih => simp [layout, ih]

theorem framesLoop_flatMap {beyond : Bytes} {fs : List Frame} (h : ∀ f ∈ fs, f.Fits) :
    ∀ fuel, fs.length ≤ fuel →
      framesLoop beyond fuel (fs.flatMap Frame.bytes) = layout beyond fs := by
  induction fs with
  | nil => intro fuel _; simp [layout]
  | cons f fs ih =>
      intro fuel hfuel
      obtain ⟨n, rfl⟩ : ∃ n, fuel = n + 1 := ⟨fuel - 1, by simp at hfuel; omega⟩
      rw [List.flatMap_cons, framesLoop_append (h f (by simp)),
        ih (fun g hg => h g (by simp [hg])) n (by simpa using hfuel)]
      rfl

theorem length_le_length_flatMap_bytes (fs : List Frame) :
    fs.length ≤ (fs.flatMap Frame.bytes).length := by
  induction fs with
  | nil => simp
  | cons f fs ih => simp [maxFrameHeaderSize]; omega

/-- **Parsing undoes writing.**  A packet whose live bytes are well-formed frames
one after the other is parsed into exactly these frames. -/
theorem visits_of_data {packet : Packet} {fs : List Frame}
    (hdata : packet.data = fs.flatMap Frame.bytes) (h : ∀ f ∈ fs, f.Fits) :
    packet.visits = layout packet.rest fs := by
  rw [Packet.visits, hdata]
  exact framesLoop_flatMap h _ (length_le_length_flatMap_bytes fs)

theorem frames_of_data {packet : Packet} {fs : List Frame}
    (hdata : packet.data = fs.flatMap Frame.bytes) (h : ∀ f ∈ fs, f.Fits) :
    packet.frames = fs := by
  rw [Packet.frames, visits_of_data hdata h, map_fst_layout]

/-! ## Packets as stretches of a frame sequence -/

/-- A sequence of frames as a send queue generates it: the `i`-th frame has the
`i`-th identifier, and no frame is larger than a packet can take. -/
structure Numbered (g : List Frame) : Prop where
  id : ∀ i f, g[i]? = some f → f.id = serial 16 i
  small : ∀ f ∈ g, f.data.length ≤ maxPacketDataSize

/-- The packet's live bytes are the `n` frames of `g` from `base` on. -/
structure Packet.Carries (packet : Packet) (g : List Frame) (n : ℕ) : Prop where
  le_length : packet.base + n ≤ g.length
  data : packet.data = ((g.drop packet.base).take n).flatMap Frame.bytes

variable {g : List Frame} {packet : Packet} {n : ℕ}

theorem Numbered.nil : Numbered [] := ⟨by simp, by simp⟩

theorem Numbered.fits (h : Numbered g) {f : Frame} (hf : f ∈ g) : f.Fits := by
  have := h.small f hf
  simp only [maxPacketDataSize, maxPacketPostFrameSize, maxPacketPostCryptoSize,
    maxPacketSize, maxRouteSize, maxCryptoSize, maxFrameHeaderSize] at this
  simp only [Frame.Fits]
  omega

/-- The next frame of a numbered sequence has the next identifier. -/
theorem Numbered.snoc (h : Numbered g) {f : Frame} (hid : f.id = serial 16 g.length)
    (hsmall : f.data.length ≤ maxPacketDataSize) : Numbered (g ++ [f]) := by
  refine ⟨?_, ?_⟩
  · intro i e he
    rw [List.getElem?_append] at he
    split at he
    · exact h.id i e he
    · rename_i hge
      obtain ⟨hz, rfl⟩ := List.getElem?_eq_some_iff.mp he
      simp only [List.length_singleton] at hz
      have : i = g.length := by omega
      subst this
      simpa using hid
  · intro e he
    rcases List.mem_append.mp he with he | he
    · exact h.small e he
    · rw [List.mem_singleton.mp he]; exact hsmall

/-- A packet carrying a stretch of a numbered sequence parses into it. -/
theorem Packet.Carries.frames_eq (h : packet.Carries g n) (hnum : Numbered g) :
    packet.frames = (g.drop packet.base).take n :=
  frames_of_data h.data fun _ hf =>
    hnum.fits (List.mem_of_mem_drop (List.mem_of_mem_take hf))

/-- How many frames of a numbered sequence a packet carries can be read off it. -/
theorem Packet.Carries.length_frames (h : packet.Carries g n) (hnum : Numbered g) :
    packet.frames.length = n := by
  have hle := h.le_length
  rw [h.frames_eq hnum, List.length_take, List.length_drop]
  omega

theorem Packet.Carries.mono (h : packet.Carries g n) (tail : List Frame) :
    packet.Carries (g ++ tail) n := by
  have hle := h.le_length
  refine ⟨by simp; omega, ?_⟩
  rw [h.data, List.drop_append_of_le_length (by omega),
    List.take_append_of_le_length (by simp; omega)]

/-- The packet's live bytes hold the frame, behind well-formed frames. -/
def Packet.HasFrame (packet : Packet) (f : Frame) : Prop :=
  ∃ (front : List Frame) (tail : Bytes),
    packet.data = front.flatMap Frame.bytes ++ (f.bytes ++ tail) ∧ ∀ e ∈ front, e.Fits

/-- A packet holds every frame of the stretch it carries. -/
theorem Packet.Carries.hasFrame (h : packet.Carries g n) (hnum : Numbered g) {i : ℕ}
    {f : Frame} (hf : g[i]? = some f) (hle : packet.base ≤ i) (hlt : i < packet.base + n) :
    packet.HasFrame f := by
  have hget : ((g.drop packet.base).take n)[i - packet.base]? = some f := by
    rw [List.getElem?_take_of_lt (by omega), List.getElem?_drop,
      show packet.base + (i - packet.base) = i by omega, hf]
  obtain ⟨front, back, hsplit⟩ := List.append_of_mem (List.mem_of_getElem? hget)
  refine ⟨front, back.flatMap Frame.bytes, ?_, ?_⟩
  · rw [h.data, hsplit, List.flatMap_append, List.flatMap_cons]
  · intro e he
    have hmem : e ∈ (g.drop packet.base).take n := by
      rw [hsplit]
      exact List.mem_append_left _ he
    exact hnum.fits (List.mem_of_mem_drop (List.mem_of_mem_take hmem))

/-! ## Acknowledgements -/

/-- `Ack`. -/
structure Ack where
  packetID : PacketID
  delayedMS : BitVec 16
  deriving DecidableEq, Repr

/-- `sizeof(Ack)`. -/
def sizeofAck : ℕ := 4

/-- The packed memory image of an acknowledgement. -/
def Ack.bytes (a : Ack) : Bytes := leBytes 2 a.packetID.toNat ++ leBytes 2 a.delayedMS.toNat

/-- Copy `sizeof(Ack)` bytes of memory into an acknowledgement; memory nobody
wrote reads as zero. -/
def Ack.read (mem : Bytes) : Ack :=
  ⟨BitVec.ofNat 16 (leNat (mem.take 2)), BitVec.ofNat 16 (leNat ((mem.drop 2).take 2))⟩

@[simp] theorem Ack.length_bytes (a : Ack) : a.bytes.length = sizeofAck := by
  simp [Ack.bytes, sizeofAck]

@[simp] theorem Ack.read_bytes (a : Ack) (mem : Bytes) : Ack.read (a.bytes ++ mem) = a := by
  have hid := ofNat_leNat_leBytes (n := 2) a.packetID (by norm_num)
  have hms := ofNat_leNat_leBytes (n := 2) a.delayedMS (by norm_num)
  have htake : (a.bytes ++ mem).take 2 = leBytes 2 a.packetID.toNat := by
    simp [Ack.bytes, leBytes]
  have hdrop : ((a.bytes ++ mem).drop 2).take 2 = leBytes 2 a.delayedMS.toNat := by
    simp [Ack.bytes, leBytes]
  simp only [Ack.read, htake, hdrop, hid, hms]

/-- The packet contains a well-formed acknowledgement of `k`, behind well-formed frames. -/
def Packet.HasAck (packet : Packet) (k : PacketID) : Prop :=
  ∃ (f : Frame) (ms : BitVec 16), packet.HasFrame f ∧ f.type = FrameTypeID.ackFrame ∧
    f.data = Ack.bytes ⟨k, ms⟩

end MrUDP
