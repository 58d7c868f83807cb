import MrUDP.Lib.Ring
import MrUDP.Lib.Run

/-!
# The ring buffer

`mrudp/base/detail/CircularBuffer.hpp`: a queue of elements in a vector that is read and written
around its end, and that grows when a write does not fit.  When it grows while its content lies
around the end, the part that had wrapped is moved behind the rest by a write of the buffer into
itself.

Sizes are numbers below `2 ^ 64`, and wrap; but the part of a stretch behind the end passes through
an `int`.  An access outside of the vector, and a vector that cannot be resized, is `none`.

## Main definitions

* `CircularBuffer`, `CircularBuffer.segments`: where a stretch of the buffer lies.
* `CircularBuffer.write`, `peek`, `read`, `skip`, `clear`.
* `CircularBuffer.content`: the elements in the buffer.
* `CircularBuffer.Valid`: the invariant.
* `CircularBuffer.fifo`: the buffer is a queue.
-/

namespace MrUDP
open Machine Ring

/-! ## Sizes -/

/-- The sum of two `size_t`. -/
def addSize (m n : ℕ) : ℕ := (m + n) % 2 ^ 64

/-- The difference of two `size_t`. -/
def subSize (m n : ℕ) : ℕ := (m + 2 ^ 64 - n) % 2 ^ 64

/-- A `size_t` that is kept in an `int`. -/
def viaInt (n : ℕ) : ℕ :=
  if n % 2 ^ 32 < 2 ^ 31 then n % 2 ^ 32 else n % 2 ^ 32 + (2 ^ 64 - 2 ^ 32)

theorem addSize_eq {m n : ℕ} (h : m + n < 2 ^ 64) : addSize m n = m + n := Nat.mod_eq_of_lt h

theorem subSize_eq {m n : ℕ} (h : n ≤ m) (hm : m < 2 ^ 64) : subSize m n = m - n := by
  rw [subSize]
  omega

theorem viaInt_eq {n : ℕ} (h : n < 2 ^ 31) : viaInt n = n := by
  rw [viaInt, if_pos (by omega)]
  omega

/-! ## The buffer -/

/-- `CircularBuffer`. -/
structure CircularBuffer (T : Type) where
  buffer : List T := []
  begin_ : ℕ := 0
  end_ : ℕ := 0
  size_ : ℕ := 0

namespace CircularBuffer

variable {T : Type}

/-- `CircularBuffer::Segment`: a stretch of the vector, and its place in the caller's data. -/
structure Segment where
  to_ : ℕ
  from_ : ℕ
  size : ℕ

/-- `CircularBuffer::available`. -/
def available (b : CircularBuffer T) : ℕ := subSize b.buffer.length b.size_

/-- `CircularBuffer::segments`. -/
def segments (b : CircularBuffer T) (from_ dataSize : ℕ) : Segment × Segment :=
  let bufferSize := b.buffer.length
  if bufferSize = 0 then (⟨0, 0, 0⟩, ⟨0, 0, 0⟩)
  else
    let start := from_ % bufferSize
    let to0 := addSize start dataSize
    -- `to_1` is an `int`.
    let to1 := if bufferSize < to0 then viaInt (to0 % bufferSize) else 0
    let to0 := if bufferSize < to0 then subSize to0 to1 else to0
    let seg0 := subSize to0 start
    (⟨start, 0, seg0⟩, ⟨0, seg0, to1⟩)

/-- What `write` copies from: the caller's data, zeros, or the first elements of the buffer
itself. -/
inductive Source (T : Type)
  | data (values : List T)
  | null (size : ℕ)
  | self (size : ℕ)

namespace Source

/-- `dataSize`. -/
def size : Source T → ℕ
  | .data values => values.length
  | .null size => size
  | .self size => size

/-- A stretch of the source. -/
def read [Zero T] (buffer : List T) (from_ size : ℕ) : Source T → Option (List T)
  | .data values =>
      if from_ + size ≤ values.length then some ((values.drop from_).take size) else none
  | .null _ => some (List.replicate size 0)
  | .self _ =>
      if from_ + size ≤ buffer.length then some ((buffer.drop from_).take size) else none

/-- The elements that are written. -/
def elements [Zero T] (buffer : List T) : Source T → List T
  | .data values => values
  | .null size => List.replicate size 0
  | .self size => buffer.take size

end Source

/-- `CircularBuffer::clear`. -/
def clear (b : CircularBuffer T) : CircularBuffer T := { b with begin_ := 0, end_ := 0, size_ := 0 }

/-- The body of the loop of `CircularBuffer::peek`. -/
def fetch (b : CircularBuffer T) (data : List T) (segment : Segment) : Option (List T) :=
  if segment.size = 0 then some data
  else if segment.to_ + segment.size ≤ b.buffer.length ∧
      segment.from_ + segment.size ≤ data.length then
    some (overwrite data segment.from_ ((b.buffer.drop segment.to_).take segment.size))
  else none

/-- `CircularBuffer::peek`, into the caller's memory. -/
def peek (b : CircularBuffer T) (data : List T) : Option (List T) :=
  if data.length = 0 then some data
  else
    let (first, second) := b.segments b.begin_ data.length
    (b.fetch data first).bind fun data => b.fetch data second

/-- `CircularBuffer::skip`. -/
def skip (b : CircularBuffer T) (dataSize : ℕ) : Option (CircularBuffer T) :=
  if dataSize = 0 then some b
  else if dataSize ≤ b.size_ then
    some { b with
      begin_ := addSize b.begin_ dataSize % b.buffer.length
      size_ := subSize b.size_ dataSize }
  else none

/-- `CircularBuffer::read`. -/
def read (b : CircularBuffer T) (data : List T) : Option (List T × CircularBuffer T) :=
  if data.length = 0 then some (data, b)
  else (b.peek data).bind fun data => (b.skip data.length).map fun b => (data, b)

section
variable [Zero T]

/-- The body of the loop of `CircularBuffer::write`. -/
def copy (b : CircularBuffer T) (source : Source T) (segment : Segment) :
    Option (CircularBuffer T) :=
  if segment.size = 0 then some b
  else if segment.to_ + segment.size ≤ b.buffer.length then
    (source.read b.buffer segment.from_ segment.size).map fun elements =>
      { b with
        buffer := overwrite b.buffer segment.to_ elements
        end_ := (segment.to_ + segment.size) % b.buffer.length }
  else none

/-- `buffer.resize`.  A vector has less than `2 ^ 63` elements.  A write of the buffer into itself
would read from where the vector was before. -/
def resize (b : CircularBuffer T) (source : Source T) : Option (CircularBuffer T) :=
  match source with
  | .self _ => none
  | .data _ | .null _ =>
      if b.buffer.length + source.size < 2 ^ 63 then
        some { b with buffer := b.buffer ++ List.replicate source.size 0 }
      else none

/-- The part of `CircularBuffer::grow` that moves what lies at the beginning of the buffer to where
its end was. -/
def relocate (write : CircularBuffer T → Source T → Option (CircularBuffer T))
    (b : CircularBuffer T) (previousBufferSize : ℕ) : Option (CircularBuffer T) :=
  if b.end_ ≤ b.begin_ then
    let previousEnd := b.end_
    let b := { b with end_ := previousBufferSize }
    if 0 < previousEnd then
      write { b with size_ := subSize b.size_ previousEnd } (.self previousEnd)
    else some b
  else some b

/-- `CircularBuffer::grow`, given the `write` it calls. -/
def grow (write : CircularBuffer T → Source T → Option (CircularBuffer T)) (b : CircularBuffer T)
    (source : Source T) : Option (CircularBuffer T) :=
  if source.size = 0 then some b
  else
    let grown :=
      if b.available ≤ source.size then
        (b.resize source).bind fun grown => relocate write grown b.buffer.length
      else some b
    grown.map fun b => { b with size_ := addSize b.size_ source.size }

/-- `CircularBuffer::write`, which calls itself at most so many times. -/
def writeWithin : ℕ → CircularBuffer T → Source T → Option (CircularBuffer T)
  | 0, _, _ => none
  | depth + 1, b, source =>
      let size := b.size_
      (b.grow (writeWithin depth) source).bind fun b =>
        let (first, second) := b.segments (addSize b.begin_ size) source.size
        (b.copy source first).bind fun b => b.copy source second

/-- `CircularBuffer::write`.  It never calls itself more than once. -/
def write (b : CircularBuffer T) (source : Source T) : Option (CircularBuffer T) :=
  writeWithin 2 b source

end

/-! ## Where a stretch lies -/

variable {b : CircularBuffer T}

/-- The two segments of a stretch of `n` elements in a vector of `length` elements. -/
def stretch (length start n : ℕ) : Segment × Segment :=
  (⟨start, 0, min n (length - start)⟩, ⟨0, min n (length - start), n - (length - start)⟩)

/-- Where a stretch lies, if the part behind the end is less than `2 ^ 31`. -/
theorem segments_eq {from_ n : ℕ} (hpos : 0 < b.buffer.length) (hmax : b.buffer.length < 2 ^ 63)
    (hn : n ≤ b.buffer.length) (hwrap : from_ % b.buffer.length + n < b.buffer.length + 2 ^ 31) :
    b.segments from_ n = stretch b.buffer.length (from_ % b.buffer.length) n := by
  have hlt : from_ % b.buffer.length < b.buffer.length := Nat.mod_lt _ hpos
  rw [segments, if_neg hpos.ne', stretch]
  generalize from_ % b.buffer.length = start at *
  generalize b.buffer.length = len at *
  dsimp only
  rw [addSize_eq (by omega)]
  by_cases hto : len < start + n
  · have hmod : (start + n) % len = start + n - len := by
      rw [Nat.mod_eq_sub_mod hto.le, Nat.mod_eq_of_lt (by omega)]
    have hend : subSize (start + n) (start + n - len) = len := by
      rw [subSize_eq (by omega) (by omega)]
      omega
    rw [if_pos hto, if_pos hto, hmod, viaInt_eq (by omega), hend,
      subSize_eq hlt.le (by omega), min_eq_right (by omega)]
    simp only [Prod.mk.injEq, Segment.mk.injEq, true_and]
    omega
  · rw [if_neg hto, if_neg hto, subSize_eq (by omega) (by omega), min_eq_left (by omega)]
    simp only [Prod.mk.injEq, Segment.mk.injEq, true_and]
    omega

/-! ## The content -/

/-- The elements in the buffer. -/
def content (b : CircularBuffer T) : List T := around b.buffer b.begin_ b.size_

/-- The invariant of the buffer. -/
structure Valid (b : CircularBuffer T) : Prop where
  size_le : b.size_ ≤ b.buffer.length
  length_lt : b.buffer.length < 2 ^ 63
  begin_lt : b.begin_ < max 1 b.buffer.length
  end_eq : b.end_ = (b.begin_ + b.size_) % b.buffer.length

theorem valid_empty : ({} : CircularBuffer T).Valid := ⟨le_rfl, by simp, by simp, rfl⟩

theorem Valid.length_content (h : b.Valid) : b.content.length = b.size_ :=
  length_around h.size_le

theorem Valid.available_eq (h : b.Valid) : b.available = b.buffer.length - b.size_ := by
  have hlt := h.length_lt
  exact subSize_eq h.size_le (by omega)

/-- The content lies before the end of the vector, or ends at its end, or goes on at its
beginning. -/
theorem Valid.end_cases (h : b.Valid) :
    (b.begin_ + b.size_ ≤ b.buffer.length ∧ (b.begin_ < b.end_ ∨ b.end_ = 0)) ∨
      (b.size_ = 0 ∧ b.end_ = b.begin_ ∧ 0 < b.begin_) ∨
      (b.begin_ + b.size_ = b.buffer.length + b.end_ ∧ b.end_ ≤ b.begin_ ∧ 0 < b.end_) := by
  obtain ⟨hsize, hlt, hbegin, hend⟩ := h
  by_cases hzero : b.buffer.length = 0
  · left
    rw [hzero, Nat.mod_zero] at hend
    rw [hzero] at hbegin
    omega
  · by_cases hwrap : b.begin_ + b.size_ < b.buffer.length
    · rw [Nat.mod_eq_of_lt hwrap] at hend
      omega
    · rw [Nat.mod_eq_sub_mod (by omega), Nat.mod_eq_of_lt (by omega)] at hend
      omega

/-- A stretch of no elements. -/
theorem Valid.segments_zero (h : b.Valid) (from_ : ℕ) :
    (b.segments from_ 0).1.size = 0 ∧ (b.segments from_ 0).2.size = 0 := by
  have hmax := h.length_lt
  by_cases hzero : b.buffer.length = 0
  · rw [segments, if_pos hzero]
    exact ⟨rfl, rfl⟩
  · have hmod : from_ % b.buffer.length < b.buffer.length := Nat.mod_lt _ (by omega)
    rw [segments_eq (by omega) (by omega) (by omega) (by omega)]
    exact ⟨Nat.zero_min _, Nat.zero_sub _⟩

/-! ## Room -/

/-- When the vector has grown, what lies at its beginning has room behind what the buffer has at the
end; or, if the buffer is empty, where it is: the size is less than zero for a moment then. -/
theorem Valid.room (h : b.Valid) {n : ℕ} (hn : 0 < n) (hmax : b.buffer.length + n < 2 ^ 63)
    (hend : b.end_ ≤ b.begin_) (hpos : 0 < b.end_) :
    ∃ start, (b.size_ = 0 ∧ start = 0 ∨
        b.begin_ + b.size_ = b.buffer.length + b.end_ ∧ start = b.buffer.length) ∧
      b.end_ < subSize (b.buffer.length + n) (subSize b.size_ b.end_) ∧
      addSize b.begin_ (subSize b.size_ b.end_) % (b.buffer.length + n) = start ∧
      addSize (subSize b.size_ b.end_) b.end_ = b.size_ := by
  have hsize := h.size_le
  have hbegin := h.begin_lt
  rcases h.end_cases with ⟨_, hend'⟩ | ⟨hempty, hsame, _⟩ | ⟨hsum, _, _⟩
  · omega
  · have hsub : subSize b.size_ b.end_ = 2 ^ 64 - b.begin_ := by
      rw [subSize, hempty, hsame]
      omega
    rw [hsub]
    refine ⟨0, .inl ⟨hempty, rfl⟩, ?_, ?_, ?_⟩
    · rw [subSize]
      omega
    · rw [addSize, show b.begin_ + (2 ^ 64 - b.begin_) = 2 ^ 64 by omega]
      simp
    · rw [addSize]
      omega
  · have hsub : subSize b.size_ b.end_ = b.buffer.length - b.begin_ := by
      rw [subSize_eq (by omega) (by omega)]
      omega
    rw [hsub]
    refine ⟨_, .inr ⟨hsum, rfl⟩, ?_, ?_, ?_⟩
    · rw [subSize_eq (by omega) (by omega)]
      omega
    · rw [addSize_eq (by omega), Nat.mod_eq_of_lt (by omega)]
      omega
    · rw [addSize_eq (by omega)]
      omega

/-- At most `2 ^ 31` elements are written, there is memory for them, and if the buffer grows, at most
so many have wrapped. -/
def FitsWrite (b : CircularBuffer T) (n : ℕ) : Prop :=
  n ≤ 2 ^ 31 ∧ b.buffer.length + n < 2 ^ 63 ∧
    (b.available ≤ n → b.end_ ≤ b.begin_ → b.end_ < n + 2 ^ 31)

instance (b : CircularBuffer T) (n : ℕ) : Decidable (FitsWrite b n) :=
  inferInstanceAs (Decidable (_ ∧ _ ∧ _))

/-- There is room for `n` more elements, and the content stays the same. -/
structure Grown (b : CircularBuffer T) (n : ℕ) (b' : CircularBuffer T) : Prop where
  begin_eq : b'.begin_ = b.begin_
  size_eq : b'.size_ = b.size_ + n
  length_eq : b'.buffer.length =
    if b.available ≤ n then b.buffer.length + n else b.buffer.length
  content_eq : around b'.buffer b.begin_ b.size_ = b.content

/-- Where the elements go once there is room for them. -/
theorem Grown.room {b' : CircularBuffer T} {n : ℕ} (hgrown : Grown b n b') (h : b.Valid) (hn : n ≠ 0)
    (hfits : FitsWrite b n) :
    b.size_ + n ≤ b'.buffer.length ∧ b.begin_ < b'.buffer.length ∧ b'.buffer.length < 2 ^ 63 ∧
      addSize b'.begin_ b.size_ % b'.buffer.length = (b.begin_ + b.size_) % b'.buffer.length ∧
      (b.begin_ + b.size_) % b'.buffer.length < b'.buffer.length := by
  obtain ⟨hbegin', _, hlength, _⟩ := hgrown
  have hmax := hfits.2.1
  have hle := h.size_le
  have hbegin := h.begin_lt
  have havailable := h.available_eq
  have hroom : b.size_ + n ≤ b'.buffer.length ∧ b.begin_ < b'.buffer.length ∧
      b'.buffer.length < 2 ^ 63 := by
    rw [hlength]
    split <;> omega
  refine ⟨hroom.1, hroom.2.1, hroom.2.2, ?_, Nat.mod_lt _ (by omega)⟩
  rw [hbegin', addSize_eq (by omega)]

/-! ## Writing -/

/-- In a vector of `length` elements, the `n` elements behind the `size` elements from `begin_` on
are those from `start` on. -/
structure Spot (length begin_ size n start : ℕ) : Prop where
  start_eq : addSize begin_ size % length = start
  lt : start < length
  length_lt : length < 2 ^ 63
  le : n ≤ length
  wrap : start + n < length + 2 ^ 31

theorem Spot.segments_eq {begin_ size n start : ℕ}
    (h : Spot b.buffer.length begin_ size n start) :
    b.segments (addSize begin_ size) n = stretch b.buffer.length start n := by
  obtain ⟨rfl, hlt, hmax, hle, hwrap⟩ := h
  rw [CircularBuffer.segments_eq (by omega) hmax hle hwrap]

section
variable [Zero T] {source : Source T}

theorem length_elements (source : Source T) {buffer : List T} (h : source.size ≤ buffer.length) :
    (source.elements buffer).length = source.size := by
  cases source with
  | data values => rfl
  | null size => exact List.length_replicate
  | self size => exact List.length_take_of_le h

/-- Only what the buffer copies from itself depends on it. -/
theorem elements_eq (hsource : ∀ size, source ≠ .self size) (buffer : List T) :
    source.elements buffer = source.elements [] := by
  cases source with
  | self size => exact absurd rfl (hsource size)
  | data values => rfl
  | null size => rfl

/-- A stretch of what is written can be read, also after the elements behind it have changed. -/
theorem source_read_eq (source : Source T) {buffer buffer' : List T} {from_ n : ℕ}
    (hlength : buffer'.length = buffer.length) (hfits : from_ + n ≤ source.size)
    (hsize : source.size ≤ buffer.length)
    (hsame : ∀ size, source = .self size → buffer'.take size = buffer.take size) :
    source.read buffer' from_ n = some (((source.elements buffer).drop from_).take n) := by
  cases source with
  | data values => exact if_pos hfits
  | null size =>
      rw [Source.size] at hfits
      rw [Source.read, Source.elements, List.drop_replicate, List.take_replicate,
        min_eq_left (by omega)]
  | self size =>
      rw [Source.size] at hfits hsize
      have htake : ∀ l : List T, (l.drop from_).take n = ((l.take size).drop from_).take n := by
        intro l
        rw [List.drop_take, List.take_take, min_eq_left (by omega)]
      rw [Source.read, if_pos (by omega), Source.elements, ← hsame size rfl, ← htake]

/-- One copy puts the elements it reads in their place. -/
theorem copy_eq {segment : Segment} {elements : List T} (hsize : segment.size ≠ 0)
    (hfits : segment.to_ + segment.size ≤ b.buffer.length)
    (hread : source.read b.buffer segment.from_ segment.size = some elements) :
    b.copy source segment =
      some { b with
        buffer := overwrite b.buffer segment.to_ elements
        end_ := (segment.to_ + segment.size) % b.buffer.length } := by
  rw [copy, if_neg hsize, if_pos hfits, hread]
  rfl

/-- The two copies of `write` put the elements into the ring.  What the buffer copies from itself
must not be overwritten before it is read. -/
theorem copy_copy (b : CircularBuffer T) (source : Source T) {start : ℕ}
    (hstart : start < b.buffer.length) (hsize : source.size ≤ b.buffer.length)
    (hself : ∀ size, source = .self size → size ≤ start ∨ start + size ≤ b.buffer.length) :
    ((b.copy source (stretch b.buffer.length start source.size).1).bind fun b' =>
        b'.copy source (stretch b.buffer.length start source.size).2) =
      some { b with
        buffer := put b.buffer start (source.elements b.buffer)
        end_ := if source.size = 0 then b.end_
          else (start + source.size) % b.buffer.length } := by
  have helements := length_elements source hsize
  rw [stretch]
  by_cases hzero : source.size = 0
  · rw [hzero] at helements
    simp [copy, hzero, put, List.length_eq_zero_iff.mp helements]
  · -- The first segment.
    have hread : source.read b.buffer 0 (min source.size (b.buffer.length - start)) =
        some ((source.elements b.buffer).take (b.buffer.length - start)) := by
      rw [source_read_eq source rfl (by omega) hsize (fun _ _ => rfl), List.drop_zero, ← helements,
        min_comm, ← List.take_eq_take_min]
    have hfits : start + ((source.elements b.buffer).take (b.buffer.length - start)).length ≤
        b.buffer.length := by
      rw [List.length_take]
      omega
    have hlength := length_overwrite hfits
    rw [copy_eq (by dsimp only; omega) (by dsimp only; omega) hread, Option.bind_some, if_neg hzero,
      put]
    by_cases hwrap : source.size ≤ b.buffer.length - start
    · -- The second segment is empty.
      rw [copy, if_pos (by dsimp only; omega), min_eq_left hwrap,
        List.drop_of_length_le (by omega), overwrite_nil]
    · have hsame : ∀ size, source = .self size →
          (overwrite b.buffer start
            ((source.elements b.buffer).take (b.buffer.length - start))).take size =
            b.buffer.take size := by
        intro size hsource
        have hle : size ≤ start := by
          rcases hself size hsource with hle | hle
          · exact hle
          · rw [hsource, Source.size] at hwrap
            omega
        rw [overwrite, List.take_append_of_le_length (by rw [List.length_take]; omega),
          List.take_take, min_eq_left hle]
      have hrest : ((source.elements b.buffer).drop (b.buffer.length - start)).take
          (source.size - (b.buffer.length - start)) =
          (source.elements b.buffer).drop (b.buffer.length - start) :=
        List.take_of_length_le (by rw [List.length_drop]; omega)
      have hend : (start + source.size) % b.buffer.length =
          (0 + (source.size - (b.buffer.length - start))) % b.buffer.length := by
        rw [Nat.mod_eq_sub_mod (by omega)]
        congr 1
        omega
      have hread' := source_read_eq source hlength
        (by omega : b.buffer.length - start + (source.size - (b.buffer.length - start)) ≤ source.size)
        hsize hsame
      rw [hrest] at hread'
      rw [min_eq_right (by omega), copy_eq (by dsimp only; omega) (by dsimp only; omega) hread', hend]
      dsimp only
      rw [hlength]

/-- `write` once there is room. -/
theorem writeWithin_of_grow {depth : ℕ} {grown : CircularBuffer T}
    (hgrow : b.grow (writeWithin depth) source = some grown) {start : ℕ}
    (hspot : Spot grown.buffer.length grown.begin_ b.size_ source.size start)
    (hself : ∀ size, source = .self size → size ≤ start ∨ start + size ≤ grown.buffer.length) :
    writeWithin (depth + 1) b source =
      some { grown with
        buffer := put grown.buffer start (source.elements grown.buffer)
        end_ := if source.size = 0 then grown.end_
          else (start + source.size) % grown.buffer.length } := by
  rw [writeWithin]
  dsimp only
  rw [hgrow, Option.bind_some, hspot.segments_eq]
  exact copy_copy grown source hspot.lt hspot.le hself

theorem grow_of_available {write : CircularBuffer T → Source T → Option (CircularBuffer T)}
    (hsize : source.size ≠ 0) (h : source.size < b.available) :
    b.grow write source = some { b with size_ := addSize b.size_ source.size } := by
  rw [grow, if_neg hsize]
  dsimp only
  rw [if_neg (by omega)]
  rfl

/-- A write of the buffer into itself, for which there is room. -/
theorem writeWithin_self {buffer : List T} {begin_ end_ size_ n start : ℕ} (hn : 0 < n)
    (hroom : n < subSize buffer.length size_) (hspot : Spot buffer.length begin_ size_ n start)
    (hself : n ≤ start ∨ start + n ≤ buffer.length) :
    ∃ newEnd, writeWithin 1 ⟨buffer, begin_, end_, size_⟩ (.self n) =
      some ⟨put buffer start (buffer.take n), begin_, newEnd, addSize size_ n⟩ := by
  have hgrow : grow (writeWithin 0) ⟨buffer, begin_, end_, size_⟩ (.self n) = _ :=
    grow_of_available hn.ne' hroom
  have hwrite := writeWithin_of_grow hgrow hspot (by rintro size ⟨⟩; exact hself)
  exact ⟨_, hwrite⟩

/-- A buffer in a longer vector, with the same content. -/
structure Relocated (b : CircularBuffer T) (n : ℕ) (b' : CircularBuffer T) : Prop where
  begin_eq : b'.begin_ = b.begin_
  size_eq : b'.size_ = b.size_
  length_eq : b'.buffer.length = b.buffer.length + n
  content_eq : around b'.buffer b.begin_ b.size_ = b.content

/-- What had wrapped is copied behind the rest; the beginning of an empty buffer, onto itself. -/
theorem relocated_of_le (h : b.Valid) {n : ℕ} (hn : 0 < n) (hmax : b.buffer.length + n < 2 ^ 63)
    (hend : b.end_ ≤ b.begin_) (hpos : 0 < b.end_) (hshort : b.end_ < n + 2 ^ 31) :
    ∃ b', writeWithin 1 ⟨b.buffer ++ List.replicate n 0, b.begin_, b.buffer.length,
      subSize b.size_ b.end_⟩ (.self b.end_) = some b' ∧ Relocated b n b' := by
  have hlength : (b.buffer ++ List.replicate n 0).length = b.buffer.length + n := by simp
  have hsize := h.size_le
  have hbegin := h.begin_lt
  obtain ⟨start, hwhere, hroom, hstart, hsize'⟩ := h.room hn hmax hend hpos
  rw [← hlength] at hmax hroom hstart
  obtain ⟨newEnd, hwrite⟩ := @writeWithin_self T _ _ _ b.buffer.length _ _ _ hpos hroom
    ⟨hstart, by omega, hmax, by omega, by omega⟩ (by omega)
  refine ⟨_, hwrite, rfl, hsize', ?_, ?_⟩
  · rw [length_put (by omega) (by rw [List.length_take]; omega), hlength]
  · dsimp only
    rcases hwhere with ⟨hempty, _⟩ | ⟨hsum, rfl⟩
    · rw [content, hempty, around_zero, around_zero]
    · -- The rest, and behind it what had wrapped.
      have htake : (b.buffer ++ List.replicate n 0).take b.end_ = b.buffer.take b.end_ :=
        List.take_append_of_le_length (by omega)
      have hput := @around_put T (b.buffer ++ List.replicate n 0) (b.buffer.take b.end_) b.begin_
        (b.buffer.length - b.begin_) (by omega) (by rw [List.length_take]; omega)
      rw [show b.begin_ + (b.buffer.length - b.begin_) = b.buffer.length by omega,
        Nat.mod_eq_of_lt (by omega), List.length_take_of_le (by omega)] at hput
      rw [htake, show b.size_ = b.buffer.length - b.begin_ + b.end_ by omega, hput,
        around_append (by omega), content, around_of_le (by omega),
        around_of_ge (by omega) (by omega) hsize, List.take_of_length_le (by simp)]
      congr 2
      omega

/-- **What had wrapped is moved behind the rest**, and the content stays the same. -/
theorem relocate_eq (h : b.Valid) {n : ℕ} (hn : 0 < n) (hmax : b.buffer.length + n < 2 ^ 63)
    (hwrapped : b.end_ ≤ b.begin_ → b.end_ < n + 2 ^ 31) :
    ∃ b', relocate (writeWithin 1) { b with buffer := b.buffer ++ List.replicate n 0 }
      b.buffer.length = some b' ∧ Relocated b n b' := by
  have hlength : (b.buffer ++ List.replicate n 0).length = b.buffer.length + n := by simp
  rw [relocate]
  dsimp only
  by_cases hend : b.end_ ≤ b.begin_ ∧ 0 < b.end_
  · rw [if_pos hend.1, if_pos hend.2]
    exact relocated_of_le h hn hmax hend.1 hend.2 (hwrapped hend.1)
  · -- Nothing had wrapped.
    have hcases := h.end_cases
    have hsame := around_append (by omega : b.begin_ + b.size_ ≤ b.buffer.length)
      (List.replicate n 0)
    split
    · rw [if_neg (by omega)]
      exact ⟨_, rfl, rfl, rfl, hlength, hsame⟩
    · exact ⟨_, rfl, rfl, rfl, hlength, hsame⟩

theorem resize_eq (hsource : ∀ size, source ≠ .self size)
    (hmax : b.buffer.length + source.size < 2 ^ 63) :
    b.resize source = some { b with buffer := b.buffer ++ List.replicate source.size 0 } := by
  cases source with
  | self size => exact absurd rfl (hsource size)
  | data values => exact if_pos hmax
  | null size => exact if_pos hmax

/-- `grow` makes room. -/
theorem grow_eq (h : b.Valid) (hsource : ∀ size, source ≠ .self size) (hsize : source.size ≠ 0)
    (hfits : FitsWrite b source.size) :
    ∃ grown, b.grow (writeWithin 1) source = some grown ∧ Grown b source.size grown := by
  obtain ⟨_, hmax, hwrapped⟩ := hfits
  have hle := h.size_le
  by_cases hroom : b.available ≤ source.size
  · obtain ⟨b', hrelocate, hb'⟩ := relocate_eq h (Nat.pos_of_ne_zero hsize) hmax (hwrapped hroom)
    rw [grow, if_neg hsize, if_pos hroom, resize_eq hsource hmax, Option.bind_some, hrelocate]
    refine ⟨_, rfl, hb'.begin_eq, ?_, by rw [if_pos hroom, ← hb'.length_eq], hb'.content_eq⟩
    dsimp only
    rw [hb'.size_eq, addSize_eq (by omega)]
  · rw [grow_of_available hsize (by omega)]
    exact ⟨_, rfl, rfl, addSize_eq (by omega), by rw [if_neg hroom], rfl⟩

/-- A write of nothing does nothing. -/
theorem write_nothing (h : b.Valid) (hsize : source.size = 0) : b.write source = some b := by
  have hsegments := h.segments_zero
  rw [write, writeWithin, grow, if_pos hsize, Option.bind_some, hsize]
  dsimp only
  rw [copy, if_pos (hsegments _).1, Option.bind_some, copy, if_pos (hsegments _).2]

/-- **`write` appends to the content.** -/
theorem write_eq (h : b.Valid) (hsource : ∀ size, source ≠ .self size)
    (hfits : FitsWrite b source.size) :
    ∃ b', b.write source = some b' ∧ b'.Valid ∧ b'.begin_ = b.begin_ ∧
      b'.size_ = b.size_ + source.size ∧
      b'.buffer.length =
        (if b.available ≤ source.size then b.buffer.length + source.size else b.buffer.length) ∧
      b'.content = b.content ++ source.elements [] := by
  by_cases hsize : source.size = 0
  · have helements : source.elements [] = [] := by
      rw [← List.length_eq_zero_iff, ← hsize]
      exact length_elements source (by omega)
    exact ⟨b, write_nothing h hsize, h, rfl, by omega, by split <;> omega,
      by rw [helements, List.append_nil]⟩
  · obtain ⟨grown, hgrow, hgrown⟩ := grow_eq h hsource hsize hfits
    obtain ⟨hroom, hlt, hmax, hstart, hmod⟩ := hgrown.room h hsize hfits
    obtain ⟨hbegin', hsize', hlength, hcontent⟩ := hgrown
    have hshort := hfits.1
    have helements := elements_eq hsource
    have hlengths : (source.elements []).length = source.size := by
      rw [← helements grown.buffer]
      exact length_elements source (by omega)
    have hwrite := writeWithin_of_grow hgrow ⟨hstart, hmod, hmax, by omega, by omega⟩
      (fun size hself => absurd hself (hsource size))
    rw [helements, if_neg hsize] at hwrite
    have hput : (put grown.buffer ((b.begin_ + b.size_) % grown.buffer.length)
        (source.elements [])).length = grown.buffer.length :=
      length_put hmod (by omega)
    refine ⟨_, hwrite, ⟨?_, ?_, ?_, ?_⟩, hbegin', hsize', hput.trans hlength, ?_⟩
    · dsimp only
      rw [hput, hsize']
      exact hroom
    · dsimp only
      rwa [hput]
    · dsimp only
      rw [hput, hbegin']
      omega
    · dsimp only
      rw [hput, hbegin', hsize', Nat.mod_add_mod, Nat.add_assoc]
    · rw [content]
      dsimp only
      rw [hbegin', hsize', ← hlengths, around_put hlt (by omega), hcontent]

end

/-! ## Reading -/

theorem fetch_eq {data : List T} {segment : Segment}
    (hto : segment.to_ + segment.size ≤ b.buffer.length)
    (hfrom : segment.from_ + segment.size ≤ data.length) :
    b.fetch data segment =
      some (overwrite data segment.from_ ((b.buffer.drop segment.to_).take segment.size)) := by
  rw [fetch]
  split
  next hsize => rw [hsize, List.take_zero, overwrite_nil]
  · rw [if_pos ⟨hto, hfrom⟩]

/-- **`peek` reads the first elements of the content.** -/
theorem peek_eq (h : b.Valid) {data : List T} (hle : data.length ≤ b.size_)
    (hshort : data.length ≤ 2 ^ 31) : b.peek data = some (b.content.take data.length) := by
  have hsize := h.size_le
  have hbegin := h.begin_lt
  have hmax := h.length_lt
  rw [peek, content, take_around hle]
  split
  next hzero => rw [hzero, around_zero, List.length_eq_zero_iff.mp hzero]
  next hzero =>
    have hmod : b.begin_ % b.buffer.length = b.begin_ := Nat.mod_eq_of_lt (by omega)
    rw [segments_eq (by omega) hmax (by omega) (by omega), hmod, stretch]
    dsimp only
    rw [fetch_eq (by dsimp only; omega) (by dsimp only; omega), Option.bind_some]
    have hfirst : ((b.buffer.drop b.begin_).take
        (min data.length (b.buffer.length - b.begin_))).length =
        min data.length (b.buffer.length - b.begin_) := by
      rw [List.length_take, List.length_drop]
      omega
    have hlength := @length_overwrite T data ((b.buffer.drop b.begin_).take
      (min data.length (b.buffer.length - b.begin_))) 0 (by omega)
    rw [fetch_eq (by dsimp only; omega) (by dsimp only; omega)]
    dsimp only
    have hsecond : (b.buffer.take (data.length - (b.buffer.length - b.begin_))).length =
        data.length - (b.buffer.length - b.begin_) := List.length_take_of_le (by omega)
    have hboth := @overwrite_overwrite T data ((b.buffer.drop b.begin_).take
      (min data.length (b.buffer.length - b.begin_)))
      (b.buffer.take (data.length - (b.buffer.length - b.begin_))) (by omega)
    rw [hfirst] at hboth
    rw [List.drop_zero, hboth, around_eq_append (by omega) (by omega)]

/-- The first `n` elements are gone. -/
structure Skips (b : CircularBuffer T) (n : ℕ) (b' : CircularBuffer T) : Prop where
  le : n ≤ b.size_
  buffer_eq : b'.buffer = b.buffer
  begin_eq : b'.begin_ = (b.begin_ + n) % b.buffer.length
  end_eq : b'.end_ = b.end_
  size_eq : b'.size_ = b.size_ - n

namespace Skips

variable {b b' b'' : CircularBuffer T} {m n : ℕ}

theorem valid (h : Skips b n b') (hvalid : b.Valid) : b'.Valid := by
  have hsize := hvalid.size_le
  have hbegin := hvalid.begin_lt
  obtain ⟨hle, hbuffer, hbegin', hend', hsize'⟩ := h
  refine ⟨?_, ?_, ?_, ?_⟩
  · rw [hbuffer, hsize']
    omega
  · rw [hbuffer]
    exact hvalid.length_lt
  · rw [hbuffer, hbegin']
    rcases Nat.eq_zero_or_pos b.buffer.length with hzero | hpos
    · rw [hzero, Nat.mod_zero]
      omega
    · have hmod : (b.begin_ + n) % b.buffer.length < b.buffer.length := Nat.mod_lt _ hpos
      omega
  · rw [hend', hbuffer, hbegin', hsize', hvalid.end_eq, Nat.mod_add_mod, Nat.add_assoc,
      Nat.add_sub_cancel' hle]

theorem content_eq (h : Skips b n b') (hvalid : b.Valid) : b'.content = b.content.drop n := by
  rw [content, content, drop_around h.le hvalid.size_le, h.buffer_eq, h.begin_eq, h.size_eq]
  exact around_mod ..

theorem refl (hvalid : b.Valid) : Skips b 0 b := by
  have hbegin := hvalid.begin_lt
  refine ⟨Nat.zero_le _, rfl, ?_, rfl, rfl⟩
  rw [Nat.add_zero]
  rcases Nat.eq_zero_or_pos b.buffer.length with hzero | hpos
  · rw [hzero, Nat.mod_zero]
  · rw [Nat.mod_eq_of_lt (by omega)]

theorem trans (h : Skips b m b') (h' : Skips b' n b'') : Skips b (m + n) b'' := by
  have hle := h.le
  have hle' := h'.le
  rw [h.size_eq] at hle'
  refine ⟨by omega, h'.buffer_eq.trans h.buffer_eq, ?_, h'.end_eq.trans h.end_eq, ?_⟩
  · rw [h'.begin_eq, h.begin_eq, h.buffer_eq, Nat.mod_add_mod, Nat.add_assoc]
  · rw [h'.size_eq, h.size_eq, Nat.sub_sub]

end Skips

/-- **`skip` drops the first elements of the content.** -/
theorem skip_eq (h : b.Valid) {n : ℕ} (hle : n ≤ b.size_) :
    ∃ b', b.skip n = some b' ∧ Skips b n b' := by
  have hsize := h.size_le
  have hbegin := h.begin_lt
  have hmax := h.length_lt
  rw [skip, if_pos hle]
  split
  next hzero =>
    subst hzero
    exact ⟨b, rfl, .refl h⟩
  next hzero =>
    rw [addSize_eq (by omega), subSize_eq hle (by omega)]
    exact ⟨_, rfl, hle, rfl, rfl, rfl, rfl⟩

/-- **`read` takes the first elements of the content.** -/
theorem read_eq (h : b.Valid) {data : List T} (hle : data.length ≤ b.size_)
    (hshort : data.length ≤ 2 ^ 31) :
    ∃ b', b.read data = some (b.content.take data.length, b') ∧ Skips b data.length b' := by
  have hlength : (b.content.take data.length).length = data.length :=
    List.length_take_of_le (by rw [h.length_content]; exact hle)
  rw [read]
  split
  next hzero =>
    rw [hzero, List.take_zero, List.length_eq_zero_iff.mp hzero]
    exact ⟨b, rfl, .refl h⟩
  next hzero =>
    obtain ⟨b', hskip, hskips⟩ := skip_eq h hle
    rw [peek_eq h hle hshort, Option.bind_some, hlength, hskip]
    exact ⟨b', rfl, hskips⟩

/-! ## Runs -/

/-- One call of the buffer.  `peek` and `read` are given the memory they read into. -/
inductive Operation (T : Type)
  | write (values : List T)
  | writeNull (size : ℕ)
  | peek (data : List T)
  | read (data : List T)
  | skip (size : ℕ)
  | clear

/-- A buffer, with what was read from it. -/
structure State (T : Type) where
  buffer : CircularBuffer T := {}
  taken : List (List T) := []

/-- A queue of elements, with what was read from it. -/
structure Fifo (T : Type) where
  elements : List T := []
  taken : List (List T) := []

/-- What the calls mean. -/
def Fifo.step [Zero T] (q : Fifo T) : Operation T → Fifo T
  | .write values => { q with elements := q.elements ++ values }
  | .writeNull size => { q with elements := q.elements ++ List.replicate size 0 }
  | .peek data => { q with taken := q.taken ++ [q.elements.take data.length] }
  | .read data =>
      ⟨q.elements.drop data.length, q.taken ++ [q.elements.take data.length]⟩
  | .skip size => { q with elements := q.elements.drop size }
  | .clear => { q with elements := [] }

/-- What the calls do. -/
def State.call [Zero T] (s : State T) : Operation T → Option (State T)
  | .write values => (s.buffer.write (.data values)).map fun b => { s with buffer := b }
  | .writeNull size => (s.buffer.write (.null size)).map fun b => { s with buffer := b }
  | .peek data => (s.buffer.peek data).map fun data => { s with taken := s.taken ++ [data] }
  | .read data => (s.buffer.read data).map fun (data, b) => ⟨b, s.taken ++ [data]⟩
  | .skip size => (s.buffer.skip size).map fun b => { s with buffer := b }
  | .clear => some { s with buffer := s.buffer.clear }

/-- A call, unless something went wrong before. -/
def step [Zero T] (s : Option (State T)) (operation : Operation T) : Option (State T) :=
  s.bind (·.call operation)

/-- No more is read than there is. -/
def Legal (s : Option (State T)) : Operation T → Prop
  | .peek data | .read data => ∀ s' ∈ s, data.length ≤ s'.buffer.size_
  | .skip size => ∀ s' ∈ s, size ≤ s'.buffer.size_
  | .write _ | .writeNull _ | .clear => True

instance (s : Option (State T)) : DecidablePred (Legal s)
  | .peek data | .read data => inferInstanceAs (Decidable (∀ s' ∈ s, data.length ≤ s'.buffer.size_))
  | .skip size => inferInstanceAs (Decidable (∀ s' ∈ s, size ≤ s'.buffer.size_))
  | .write _ | .writeNull _ | .clear => .isTrue trivial

/-- No more than `2 ^ 31` elements are read or written at once, or have wrapped when the buffer
grows. -/
def Fits (s : Option (State T)) : Operation T → Prop
  | .write values => ∀ s' ∈ s, FitsWrite s'.buffer values.length
  | .writeNull size => ∀ s' ∈ s, FitsWrite s'.buffer size
  | .peek data | .read data => data.length ≤ 2 ^ 31
  | .skip _ | .clear => True

instance (s : Option (State T)) : DecidablePred (Fits s)
  | .write values => inferInstanceAs (Decidable (∀ s' ∈ s, FitsWrite s'.buffer values.length))
  | .writeNull size => inferInstanceAs (Decidable (∀ s' ∈ s, FitsWrite s'.buffer size))
  | .peek data | .read data => inferInstanceAs (Decidable (data.length ≤ 2 ^ 31))
  | .skip _ | .clear => .isTrue trivial

/-- The buffer is valid, and its content is that of the queue. -/
def Refines (s : Option (State T)) (q : Fifo T) : Prop :=
  ∃ s', s = some s' ∧ s'.buffer.Valid ∧ q = ⟨s'.buffer.content, s'.taken⟩

theorem valid_clear (h : b.Valid) : b.clear.Valid :=
  ⟨Nat.zero_le _, h.length_lt, by rw [clear]; dsimp only; omega, (Nat.zero_mod _).symm⟩

/-- **One call refines the queue.** -/
theorem refines_step [Zero T] {s : Option (State T)} {q : Fifo T} (h : Refines s q)
    {operation : Operation T} (hlegal : Legal s operation) (hfits : Fits s operation) :
    Refines (step s operation) (q.step operation) := by
  obtain ⟨s', rfl, hvalid, rfl⟩ := h
  rw [step, Option.bind_some]
  have hwrite : ∀ source, (∀ size, source ≠ .self size) → FitsWrite s'.buffer source.size →
      Refines ((s'.buffer.write source).map fun b => { s' with buffer := b })
        ⟨s'.buffer.content ++ source.elements [], s'.taken⟩ := by
    intro source hsource hfits
    obtain ⟨b', hwrite, hvalid', _, _, _, hcontent⟩ := write_eq hvalid hsource hfits
    rw [hwrite, ← hcontent]
    exact ⟨_, rfl, hvalid', rfl⟩
  cases operation with
  | write values => exact hwrite (.data values) (by simp) (hfits s' rfl)
  | writeNull size => exact hwrite (.null size) (by simp) (hfits s' rfl)
  | peek data =>
      rw [State.call, peek_eq hvalid (hlegal s' rfl) hfits]
      exact ⟨_, rfl, hvalid, rfl⟩
  | read data =>
      obtain ⟨b', hread, hskips⟩ := read_eq hvalid (hlegal s' rfl) hfits
      rw [State.call, hread]
      refine ⟨_, rfl, hskips.valid hvalid, ?_⟩
      rw [Fifo.step, hskips.content_eq hvalid]
  | skip size =>
      obtain ⟨b', hskip, hskips⟩ := skip_eq hvalid (hlegal s' rfl)
      rw [State.call, hskip]
      refine ⟨_, rfl, hskips.valid hvalid, ?_⟩
      rw [Fifo.step, hskips.content_eq hvalid]
  | clear => exact ⟨_, rfl, valid_clear hvalid, rfl⟩

/-- **The ring buffer is a queue**: as long as no more than `2 ^ 31` elements are read or written at
once, or have wrapped when the buffer grows, every call succeeds, and the elements in the buffer and
what is read are those of the queue. -/
theorem fifo [Zero T] (operations : List (Operation T))
    (hlegal : Along step Legal (some {}) operations)
    (hfits : Along step Fits (some {}) operations) :
    ∃ s : State T, run step (some {}) operations = some s ∧
      (⟨s.buffer.content, s.taken⟩ : Fifo T) = run Fifo.step {} operations ∧
      s.buffer.content.length = s.buffer.size_ ∧ s.buffer.size_ ≤ s.buffer.buffer.length := by
  have hstart : Refines (some {}) ({} : Fifo T) := ⟨{}, rfl, valid_empty, rfl⟩
  have hstep : ∀ (s : Option (State T)) (q : Fifo T) operation, Refines s q →
      Legal s operation ∧ Fits s operation → Refines (step s operation) (q.step operation) :=
    fun s q operation h hok => refines_step h hok.1 hok.2
  obtain ⟨s, hrun, hvalid, hq⟩ := run_simulation Refines hstep hstart (hlegal.and hfits)
  exact ⟨s, hrun, hq.symm, hvalid.length_content, hvalid.size_le⟩

/-- For runs: a write, a write that makes the buffer grow, one that wraps, and reads. -/
def exercised : List (Operation ℕ) :=
  [.write [1, 2, 3, 4], .skip 3, .write [5, 6], .write [7, 8, 9], .peek [0, 0], .read [0, 0, 0, 0, 0]]

theorem fifo_exercised :
    ∃ s : State ℕ, run step (some {}) exercised = some s ∧
      s.buffer.content = [9] ∧ s.taken = [[4, 5], [4, 5, 6, 7, 8]] := by
  obtain ⟨s, hrun, hq, _⟩ := fifo exercised (by decide +kernel) (by decide +kernel)
  obtain ⟨hcontent, htaken⟩ := Fifo.mk.inj (hq.trans (rfl : _ = Fifo.mk [9] _))
  exact ⟨s, hrun, hcontent, htaken⟩

/-! ## More than an `int` can count -/

/-- Half a buffer, another half, all but one skipped, and as many as wrap. -/
def filled : List (Operation ℕ) :=
  [.writeNull (2 ^ 31), .writeNull (2 ^ 31), .skip (2 ^ 32 - 1), .writeNull (2 ^ 31)]

/-- A buffer of four times as many elements as an `int` can count, half of which are behind its
end. -/
theorem exists_filled : ∃ s : State ℕ, Along step Legal (some {}) filled ∧
    run step (some {}) filled = some s ∧ s.buffer.buffer.length = 2 ^ 32 ∧
      s.buffer.begin_ = 2 ^ 32 - 1 ∧ s.buffer.size_ = 2 ^ 31 + 1 := by
  have hwrite : ∀ {b : CircularBuffer ℕ}, b.Valid → b.buffer.length + 2 ^ 31 < 2 ^ 63 →
      b.end_ < 2 ^ 31 + 2 ^ 31 →
      ∃ b', b.write (.null (2 ^ 31)) = some b' ∧ b'.Valid ∧ b'.begin_ = b.begin_ ∧
        b'.size_ = b.size_ + 2 ^ 31 ∧ b'.buffer.length =
          if b.buffer.length - b.size_ ≤ 2 ^ 31 then b.buffer.length + 2 ^ 31
          else b.buffer.length := by
    intro b hb hmax hend
    have hfits : FitsWrite b (Source.null (2 ^ 31) : Source ℕ).size :=
      ⟨le_rfl, hmax, fun _ _ => hend⟩
    obtain ⟨b', hwrite, hvalid, hbegin, hsize, hlength, _⟩ := write_eq hb (by simp) hfits
    rw [hb.available_eq] at hlength
    exact ⟨b', hwrite, hvalid, hbegin, hsize, hlength⟩
  obtain ⟨b₁, hwrite₁, hvalid₁, hbegin₁, hsize₁, hlength₁⟩ :=
    hwrite valid_empty (by simp) (by simp)
  rw [if_pos (by simp), List.length_nil, Nat.zero_add] at hlength₁
  have hend₁ := hvalid₁.end_eq
  rw [hlength₁] at hend₁
  dsimp only at hbegin₁ hsize₁
  obtain ⟨b₂, hwrite₂, hvalid₂, hbegin₂, hsize₂, hlength₂⟩ :=
    hwrite hvalid₁ (by omega) (by omega)
  have hfull : b₂.buffer.length = 2 ^ 32 := by
    rw [hlength₂, if_pos (by omega), hlength₁]
    norm_num
  obtain ⟨b₃, hskip, hskips⟩ := @skip_eq ℕ b₂ hvalid₂ (2 ^ 32 - 1) (by omega)
  have hvalid₃ := hskips.valid hvalid₂
  obtain ⟨_, hbuffer₃, hbegin₃, _, hsize₃⟩ := hskips
  rw [hfull] at hbegin₃
  have hend₃ := hvalid₃.end_eq
  rw [hbuffer₃, hfull] at hend₃
  obtain ⟨b₄, hwrite₄, _, hbegin₄, hsize₄, hlength₄⟩ :=
    hwrite hvalid₃ (by rw [hbuffer₃]; omega) (by omega)
  rw [hbuffer₃, hfull, if_neg (by omega)] at hlength₄
  have hstep : ∀ {b b' : CircularBuffer ℕ}, b.write (.null (2 ^ 31)) = some b' →
      step (some ⟨b, []⟩) (.writeNull (2 ^ 31)) = some ⟨b', []⟩ := by
    intro b b' h
    rw [step, Option.bind_some, State.call, h]
    rfl
  have hstep₃ : step (some ⟨b₂, []⟩) (.skip (2 ^ 32 - 1)) = some ⟨b₃, []⟩ := by
    rw [step, Option.bind_some, State.call, hskip]
    rfl
  refine ⟨⟨b₄, []⟩, ?_, ?_, by dsimp only; omega, by dsimp only; omega, by dsimp only; omega⟩
  · rw [filled, along_cons, hstep hwrite₁, along_cons, hstep hwrite₂, along_cons, hstep₃]
    refine ⟨trivial, trivial, ?_, trivial, trivial⟩
    rintro s ⟨⟩
    dsimp only
    omega
  · rw [filled, run_cons, hstep hwrite₁, run_cons, hstep hwrite₂, run_cons, hstep₃, run_cons,
      hstep hwrite₄, run_nil]

/-- The part of the stretch behind the end is too large for an `int`. -/
theorem peek_eq_none {b : CircularBuffer ℕ} (hlength : b.buffer.length = 2 ^ 32)
    (hbegin : b.begin_ = 2 ^ 32 - 1) {data : List ℕ} (hdata : data.length = 2 ^ 31 + 1) :
    b.peek data = none := by
  have hsegment : (b.segments b.begin_ data.length).1 = ⟨2 ^ 32 - 1, 0, 2 ^ 32 + 1⟩ := by
    rw [segments, hlength, hbegin, hdata]
    rfl
  rw [peek, if_neg (by omega)]
  dsimp only
  rw [hsegment, fetch, if_neg (by norm_num), if_neg (by rw [hlength]; norm_num)]
  rfl

/-- **A stretch of which more lies behind the end than an `int` can count is read from outside of
the buffer**, although no more is read than there is. -/
theorem overrun :
    Along step Legal (some {}) (filled ++ [.peek (List.replicate (2 ^ 31 + 1) 0)]) ∧
      run step (some {}) (filled ++ [.peek (List.replicate (2 ^ 31 + 1) 0)]) = none := by
  obtain ⟨s, hlegal, hrun, hlength, hbegin, hsize⟩ := exists_filled
  rw [along_append, run_append, hrun]
  refine ⟨⟨hlegal, ?_, trivial⟩, ?_⟩
  · rintro s' ⟨⟩
    rw [List.length_replicate, hsize]
  · rw [run_cons, run_nil, step, Option.bind_some, State.call,
      peek_eq_none hlength hbegin List.length_replicate]
    rfl

end CircularBuffer
end MrUDP
