import MrUDP.Base.CircularBuffer

/-!
# The copies of the ring buffer

Every `std::memcpy` of `mrudp/base/detail/CircularBuffer.hpp`.  The functions of
`MrUDP.Base.CircularBuffer` say what is in the buffer after a copy as if all of it had been read
before any of it was written; `memcpy` promises that only if the two stretches do not overlap, which
matters where the buffer is copied into itself.  Here the copies of each call are listed.

When the buffer grows by `n` elements while `m` elements lie at its beginning, the first `n` of these
are copied to its end, and the others `n` places down: over themselves, if there are more than `n` of
them.

## Main definitions

* `CircularBuffer.Memcpy`, `CircularBuffer.Memcpy.WellDefined`: a copy, and when it is defined.
* `CircularBuffer.copies`: the copies of a call.
* `CircularBuffer.Apart`: a call does not copy a part of the buffer over itself.
-/

namespace MrUDP
open Machine Ring

namespace CircularBuffer

variable {T : Type}

/-- What a copy reads from or writes to: the vector, or the data of the caller. -/
inductive Region
  | buffer
  | caller
  deriving DecidableEq, Repr

/-- A call of `std::memcpy`, with the number of elements of the two regions. -/
structure Memcpy where
  dst : Region
  to_ : ℕ
  dstSize : ℕ
  src : Region
  from_ : ℕ
  srcSize : ℕ
  size : ℕ
  deriving DecidableEq, Repr

/-- Both stretches are in their regions, and if both are in the vector, they are apart or the
same. -/
def Memcpy.WellDefined (m : Memcpy) : Prop :=
  m.to_ + m.size ≤ m.dstSize ∧ m.from_ + m.size ≤ m.srcSize ∧
    (m.dst = .buffer ∧ m.src = .buffer →
      m.to_ + m.size ≤ m.from_ ∨ m.from_ + m.size ≤ m.to_ ∨ m.to_ = m.from_)

instance : DecidablePred Memcpy.WellDefined :=
  fun _ => inferInstanceAs (Decidable (_ ∧ _ ∧ _))

/-! ## The copies of a call -/

/-- The copy in the loop of `CircularBuffer::write`, for a vector of `length` elements.  What is not
copied is set to zero. -/
def copied (length : ℕ) (source : Source T) (segment : Segment) : List Memcpy :=
  if segment.size = 0 then []
  else
    match source with
    | .data values =>
        [⟨.buffer, segment.to_, length, .caller, segment.from_, values.length, segment.size⟩]
    | .null _ => []
    | .self _ => [⟨.buffer, segment.to_, length, .buffer, segment.from_, length, segment.size⟩]

/-- The copy in the loop of `CircularBuffer::peek`. -/
def fetched (b : CircularBuffer T) (data : List T) (segment : Segment) : List Memcpy :=
  if segment.size = 0 then []
  else [⟨.caller, segment.from_, data.length, .buffer, segment.to_, b.buffer.length, segment.size⟩]

/-- The copies of `CircularBuffer::peek`. -/
def peekCopies (b : CircularBuffer T) (data : List T) : List Memcpy :=
  if data.length = 0 then []
  else
    let (first, second) := b.segments b.begin_ data.length
    b.fetched data first ++
      match b.fetch data first with
      | none => []
      | some data => b.fetched data second

section
variable [Zero T]

/-- The copies of the loop of `CircularBuffer::write`. -/
def loopCopies (b : CircularBuffer T) (source : Source T) (segments : Segment × Segment) :
    List Memcpy :=
  copied b.buffer.length source segments.1 ++
    match b.copy source segments.1 with
    | none => []
    | some b => copied b.buffer.length source segments.2

/-- The copies of `CircularBuffer::grow`, given those of the `write` it calls. -/
def growCopies (writeCopies : CircularBuffer T → Source T → List Memcpy) (b : CircularBuffer T)
    (source : Source T) : List Memcpy :=
  if source.size = 0 then []
  else if b.available ≤ source.size then
    match b.resize source with
    | none => []
    | some grown =>
        if grown.end_ ≤ grown.begin_ ∧ 0 < grown.end_ then
          writeCopies
            { grown with
              end_ := b.buffer.length
              size_ := subSize grown.size_ grown.end_ } (.self grown.end_)
        else []
  else []

/-- The copies of `CircularBuffer::write`, which calls itself at most so many times. -/
def writeCopiesWithin : ℕ → CircularBuffer T → Source T → List Memcpy
  | 0, _, _ => []
  | depth + 1, b, source =>
      b.growCopies (writeCopiesWithin depth) source ++
        match b.grow (writeWithin depth) source with
        | none => []
        | some grown =>
            grown.loopCopies source (grown.segments (addSize grown.begin_ b.size_) source.size)

/-- The copies of `CircularBuffer::write`. -/
def writeCopies (b : CircularBuffer T) (source : Source T) : List Memcpy :=
  writeCopiesWithin 2 b source

/-- The copies of a call.  `read` copies what `peek` does. -/
def copies (s : Option (State T)) (operation : Operation T) : List Memcpy :=
  match s, operation with
  | none, _ => []
  | some s, .write values => s.buffer.writeCopies (.data values)
  | some s, .writeNull size => s.buffer.writeCopies (.null size)
  | some s, .peek data | some s, .read data => s.buffer.peekCopies data
  | some _, .skip _ | some _, .clear => []

/-- All the copies of a call are defined. -/
def Defined (s : Option (State T)) (operation : Operation T) : Prop :=
  ∀ m ∈ copies s operation, m.WellDefined

instance (s : Option (State T)) : DecidablePred (Defined s) :=
  fun _ => inferInstanceAs (Decidable (∀ m ∈ _, _))

end

/-- If a write of `n` elements makes the buffer grow, at most `2 * n` elements have wrapped. -/
def ApartWrite (b : CircularBuffer T) (n : ℕ) : Prop :=
  0 < n → b.available ≤ n → b.end_ ≤ b.begin_ → 0 < b.size_ → b.end_ ≤ 2 * n

instance (b : CircularBuffer T) (n : ℕ) : Decidable (ApartWrite b n) :=
  inferInstanceAs (Decidable (_ → _ → _ → _ → _))

/-- A call does not copy a part of the buffer over itself. -/
def Apart (s : Option (State T)) : Operation T → Prop
  | .write values => ∀ s' ∈ s, ApartWrite s'.buffer values.length
  | .writeNull size => ∀ s' ∈ s, ApartWrite s'.buffer size
  | .peek _ | .read _ | .skip _ | .clear => True

instance (s : Option (State T)) : DecidablePred (Apart s)
  | .write values => inferInstanceAs (Decidable (∀ s' ∈ s, ApartWrite s'.buffer values.length))
  | .writeNull size => inferInstanceAs (Decidable (∀ s' ∈ s, ApartWrite s'.buffer size))
  | .peek _ | .read _ | .skip _ | .clear => .isTrue trivial

/-! ## Reading -/

variable {segment : Segment}

theorem wellDefined_of_mem_fetched {b : CircularBuffer T} {data : List T}
    (hto : segment.to_ + segment.size ≤ b.buffer.length)
    (hfrom : segment.from_ + segment.size ≤ data.length) :
    ∀ m ∈ b.fetched data segment, m.WellDefined := by
  intro m hm
  rw [fetched] at hm
  split at hm
  · exact absurd hm List.not_mem_nil
  · rw [List.mem_singleton] at hm
    subst hm
    refine ⟨hfrom, hto, ?_⟩
    rintro ⟨hdst, _⟩
    cases hdst

/-- **What is read is in the buffer.** -/
theorem peekCopies_wellDefined {b : CircularBuffer T} (h : b.Valid) {data : List T}
    (hle : data.length ≤ b.size_) (hshort : data.length ≤ 2 ^ 31) :
    ∀ m ∈ b.peekCopies data, m.WellDefined := by
  have hsize := h.size_le
  have hbegin := h.begin_lt
  have hmax := h.length_lt
  intro m hm
  rw [peekCopies] at hm
  split at hm
  · exact absurd hm List.not_mem_nil
  next hzero =>
    have hmod : b.begin_ % b.buffer.length = b.begin_ := Nat.mod_eq_of_lt (by omega)
    rw [segments_eq (by omega) hmax (by omega) (by omega), hmod, stretch] at hm
    dsimp only at hm
    rw [fetch_eq (by dsimp only; omega) (by dsimp only; omega)] at hm
    dsimp only at hm
    have hfirst : ((b.buffer.drop b.begin_).take
        (min data.length (b.buffer.length - b.begin_))).length =
        min data.length (b.buffer.length - b.begin_) := by
      rw [List.length_take, List.length_drop]
      omega
    have hlength := @length_overwrite T data ((b.buffer.drop b.begin_).take
      (min data.length (b.buffer.length - b.begin_))) 0 (by omega)
    rcases List.mem_append.mp hm with hm | hm
    · exact wellDefined_of_mem_fetched (by dsimp only; omega) (by dsimp only; omega) m hm
    · exact wellDefined_of_mem_fetched (by dsimp only; omega) (by dsimp only; omega) m hm

/-! ## Writing -/

/-- A copy within the vector. -/
theorem forall_mem_copied_self {length n : ℕ} :
    (∀ m ∈ copied length (.self n : Source T) segment, m.WellDefined) ↔
      (segment.size ≠ 0 →
        segment.to_ + segment.size ≤ length ∧ segment.from_ + segment.size ≤ length ∧
          (segment.to_ + segment.size ≤ segment.from_ ∨
            segment.from_ + segment.size ≤ segment.to_ ∨ segment.to_ = segment.from_)) := by
  by_cases h : segment.size = 0
  · simp [copied, h]
  · simp [copied, h, Memcpy.WellDefined]

/-- A copy from the caller's data is defined if it is in range. -/
theorem wellDefined_of_mem_copied {length : ℕ} {source : Source T}
    (hsource : ∀ size, source ≠ .self size) (hto : segment.to_ + segment.size ≤ length)
    (hfrom : segment.from_ + segment.size ≤ source.size) :
    ∀ m ∈ copied length source segment, m.WellDefined := by
  intro m hm
  cases source with
  | self size => exact absurd rfl (hsource size)
  | null size => simp [copied] at hm
  | data values =>
      rw [copied] at hm
      split at hm
      · exact absurd hm List.not_mem_nil
      · rw [List.mem_singleton] at hm
        subst hm
        refine ⟨hto, hfrom, ?_⟩
        rintro ⟨_, hsrc⟩
        cases hsrc

section
variable [Zero T]

/-- Both copies of the loop are made, in a vector of the same length. -/
theorem loopCopies_eq (b : CircularBuffer T) (source : Source T) {start : ℕ}
    (hstart : start < b.buffer.length) (hsize : source.size ≤ b.buffer.length) :
    b.loopCopies source (stretch b.buffer.length start source.size) =
      copied b.buffer.length source (stretch b.buffer.length start source.size).1 ++
        copied b.buffer.length source (stretch b.buffer.length start source.size).2 := by
  rw [stretch]
  have hcopy : ∃ b', b.copy source ⟨start, 0, min source.size (b.buffer.length - start)⟩ = some b' ∧
      b'.buffer.length = b.buffer.length := by
    by_cases hzero : source.size = 0
    · refine ⟨b, ?_, rfl⟩
      rw [copy, if_pos (by dsimp only; omega)]
    · have hread := @source_read_eq T _ source b.buffer b.buffer 0
        (min source.size (b.buffer.length - start)) rfl (by omega) hsize (fun _ _ => rfl)
      rw [copy_eq (by dsimp only; omega) (by dsimp only; omega) hread]
      refine ⟨_, rfl, length_overwrite ?_⟩
      rw [List.drop_zero, List.length_take, length_elements source hsize]
      dsimp only
      omega
  obtain ⟨b', hcopy, hlength⟩ := hcopy
  rw [loopCopies, hcopy]
  dsimp only
  rw [hlength]

variable {b : CircularBuffer T} {source : Source T}

/-- The copies of `write` once there is room. -/
theorem writeCopiesWithin_of_grow {depth : ℕ} {grown : CircularBuffer T}
    (hgrow : b.grow (writeWithin depth) source = some grown) {start : ℕ}
    (hspot : Spot grown.buffer.length grown.begin_ b.size_ source.size start) :
    writeCopiesWithin (depth + 1) b source =
      b.growCopies (writeCopiesWithin depth) source ++
        (copied grown.buffer.length source (stretch grown.buffer.length start source.size).1 ++
          copied grown.buffer.length source (stretch grown.buffer.length start source.size).2) := by
  rw [writeCopiesWithin, hgrow]
  dsimp only
  rw [hspot.segments_eq, loopCopies_eq grown source hspot.lt hspot.le]

theorem growCopies_of_available {writeCopies : CircularBuffer T → Source T → List Memcpy}
    (h : source.size < b.available) : b.growCopies writeCopies source = [] := by
  rw [growCopies]
  split
  · rfl
  · rw [if_neg (by omega)]

/-- The copies of a write of the buffer into itself, for which there is room. -/
theorem writeCopiesWithin_self {buffer : List T} {begin_ end_ size_ n start : ℕ} (hn : 0 < n)
    (hroom : n < subSize buffer.length size_) (hspot : Spot buffer.length begin_ size_ n start) :
    writeCopiesWithin 1 ⟨buffer, begin_, end_, size_⟩ (.self n) =
      copied buffer.length (.self n : Source T) (stretch buffer.length start n).1 ++
        copied buffer.length (.self n : Source T) (stretch buffer.length start n).2 := by
  have hgrow : grow (writeWithin 0) ⟨buffer, begin_, end_, size_⟩ (.self n) = _ :=
    grow_of_available hn.ne' hroom
  have hnone : growCopies (writeCopiesWithin 0) ⟨buffer, begin_, end_, size_⟩ (.self n) = [] :=
    growCopies_of_available hroom
  have hcopies := writeCopiesWithin_of_grow hgrow hspot
  rw [hnone, List.nil_append] at hcopies
  exact hcopies

/-- What had wrapped is copied behind the rest, and what is left of it to the beginning: that is
defined if it is not longer than the way.  An empty buffer copies its beginning onto itself. -/
theorem selfCopies_wellDefined_iff (h : b.Valid) {n : ℕ} (hn : 0 < n)
    (hmax : b.buffer.length + n < 2 ^ 63) (hend : b.end_ ≤ b.begin_) (hpos : 0 < b.end_)
    (hshort : b.end_ < n + 2 ^ 31) :
    (∀ m ∈ writeCopiesWithin 1 ⟨b.buffer ++ List.replicate n 0, b.begin_, b.buffer.length,
      subSize b.size_ b.end_⟩ (.self b.end_), m.WellDefined) ↔ (0 < b.size_ → b.end_ ≤ 2 * n) := by
  have hlength : (b.buffer ++ List.replicate n 0).length = b.buffer.length + n := by simp
  have hsize := h.size_le
  have hbegin := h.begin_lt
  obtain ⟨start, hwhere, hroom, hstart, _⟩ := h.room hn hmax hend hpos
  rw [← hlength] at hmax hroom hstart
  rw [writeCopiesWithin_self hpos hroom ⟨hstart, by omega, hmax, by omega, by omega⟩, stretch,
    List.forall_mem_append, forall_mem_copied_self, forall_mem_copied_self]
  dsimp only
  omega

/-- **The copies of `grow` are defined** exactly if no more than twice as many elements have wrapped
as are written. -/
theorem growCopies_wellDefined_iff (h : b.Valid) (hsource : ∀ size, source ≠ .self size)
    (hsize : source.size ≠ 0) (hfits : FitsWrite b source.size) :
    (∀ m ∈ b.growCopies (writeCopiesWithin 1) source, m.WellDefined) ↔
      ApartWrite b source.size := by
  obtain ⟨_, hmax, hwrapped⟩ := hfits
  have hpositive : 0 < source.size := Nat.pos_of_ne_zero hsize
  rw [ApartWrite]
  by_cases hroom : b.available ≤ source.size
  · rw [growCopies, if_neg hsize, if_pos hroom, resize_eq hsource hmax]
    dsimp only
    split
    next hend =>
      rw [selfCopies_wellDefined_iff h hpositive hmax hend.1 hend.2 (hwrapped hroom hend.1)]
      exact ⟨fun hle _ _ _ => hle, fun hle => hle hpositive hroom hend.1⟩
    next hend =>
      -- Nothing had wrapped, and nothing is copied.
      exact iff_of_true (by simp) (by omega)
  · rw [growCopies_of_available (by omega)]
    exact iff_of_true (by simp) fun _ havailable => absurd havailable hroom

/-- A write of nothing copies nothing. -/
theorem writeCopies_nothing (h : b.Valid) (hsize : source.size = 0) :
    b.writeCopies source = [] := by
  have hcopied : ∀ {length : ℕ} {segment : Segment}, segment.size = 0 →
      copied length source segment = [] := fun hzero => if_pos hzero
  have hsegments := h.segments_zero
  rw [writeCopies, writeCopiesWithin, growCopies, if_pos hsize, grow, if_pos hsize, hsize]
  dsimp only
  rw [loopCopies, hcopied (hsegments _).1, copy, if_pos (hsegments _).1]
  exact hcopied (hsegments _).2

/-- **The copies of `write` are defined** exactly if those of `grow` are. -/
theorem writeCopies_wellDefined_iff (h : b.Valid) (hsource : ∀ size, source ≠ .self size)
    (hfits : FitsWrite b source.size) :
    (∀ m ∈ b.writeCopies source, m.WellDefined) ↔ ApartWrite b source.size := by
  by_cases hsize : source.size = 0
  · rw [writeCopies_nothing h hsize]
    exact iff_of_true (by simp) fun hpositive => absurd hsize hpositive.ne'
  · obtain ⟨grown, hgrow, hgrown⟩ := grow_eq h hsource hsize hfits
    obtain ⟨hroom, _, hmax, hstart, hmod⟩ := hgrown.room h hsize hfits
    have hshort := hfits.1
    rw [writeCopies, writeCopiesWithin_of_grow hgrow ⟨hstart, hmod, hmax, by omega, by omega⟩,
      List.forall_mem_append, growCopies_wellDefined_iff h hsource hsize hfits, and_iff_left]
    rw [stretch, List.forall_mem_append]
    exact ⟨wellDefined_of_mem_copied hsource (by dsimp only; omega) (by dsimp only; omega),
      wellDefined_of_mem_copied hsource (by dsimp only; omega) (by dsimp only; omega)⟩

/-! ## Runs -/

/-- **The copies of one call are defined** exactly if it does not copy a part of the buffer over
itself. -/
theorem defined_iff_apart {s : Option (State T)} {q : Fifo T} (h : Refines s q)
    {operation : Operation T} (hlegal : Legal s operation) (hfits : Fits s operation) :
    Defined s operation ↔ Apart s operation := by
  obtain ⟨s', rfl, hvalid, rfl⟩ := h
  have hwrite : ∀ source : Source T, (∀ size, source ≠ .self size) →
      FitsWrite s'.buffer source.size →
      ((∀ m ∈ s'.buffer.writeCopies source, m.WellDefined) ↔
        ∀ s'' ∈ some s', ApartWrite s''.buffer source.size) := by
    intro source hsource hfits
    rw [writeCopies_wellDefined_iff hvalid hsource hfits]
    simp
  cases operation with
  | write values => exact hwrite (.data values) (by simp) (hfits s' rfl)
  | writeNull size => exact hwrite (.null size) (by simp) (hfits s' rfl)
  | peek data =>
      exact iff_of_true (peekCopies_wellDefined hvalid (hlegal s' rfl) hfits) trivial
  | read data =>
      exact iff_of_true (peekCopies_wellDefined hvalid (hlegal s' rfl) hfits) trivial
  | skip size => exact iff_of_true (by simp [Defined, copies]) trivial
  | clear => exact iff_of_true (by simp [Defined, copies]) trivial

/-- **Every copy of a run is defined** exactly if, whenever a write makes the buffer grow while its
content lies around the end, at most twice as many elements have wrapped as are written. -/
theorem copies_defined (operations : List (Operation T))
    (hlegal : Along step Legal (some {}) operations)
    (hfits : Along step Fits (some {}) operations) :
    Along step Defined (some {}) operations ↔ Along step Apart (some {}) operations := by
  have hstart : ∃ q : Fifo T, Refines (some {}) q := ⟨{}, {}, rfl, valid_empty, rfl⟩
  refine along_congr (fun s => ∃ q : Fifo T, Refines s q) ?_ ?_ hstart (hlegal.and hfits)
  · rintro s operation ⟨q, h⟩ ⟨hlegal, hfits⟩
    exact ⟨_, refines_step h hlegal hfits⟩
  · rintro s operation ⟨q, h⟩ ⟨hlegal, hfits⟩
    exact defined_iff_apart h hlegal hfits

end

/-- Elements have wrapped when the buffer grows, but not too many. -/
theorem copies_defined_wrapped :
    Along step Apart (some {})
        ([.write [1, 2, 3, 4], .skip 3, .write [5, 6], .write [7, 8, 9]] : List (Operation ℕ)) ∧
      Along step Defined (some {})
        ([.write [1, 2, 3, 4], .skip 3, .write [5, 6], .write [7, 8, 9]] : List (Operation ℕ)) :=
  have hapart : Along step Apart (some {})
      ([.write [1, 2, 3, 4], .skip 3, .write [5, 6], .write [7, 8, 9]] : List (Operation ℕ)) := by
    decide +kernel
  ⟨hapart, (copies_defined _ (by decide +kernel) (by decide +kernel)).mpr hapart⟩

/-- Ten elements are written and nine skipped; then eight are written around the end, and one more
makes the buffer grow. -/
def overlapping : List (Operation ℕ) :=
  [.writeNull 10, .skip 9, .write [1, 2, 3, 4, 5, 6, 7, 8], .write [9]]

/-- Seven of the eight elements that have wrapped are copied one place down. -/
theorem copies_overlapping :
    Along step Legal (some {}) overlapping ∧ Along step Fits (some {}) overlapping ∧
      copies (run step (some {}) (overlapping.take 3)) (.write [9]) =
        [⟨.buffer, 10, 11, .buffer, 0, 11, 1⟩, ⟨.buffer, 0, 11, .buffer, 1, 11, 7⟩,
          ⟨.buffer, 7, 11, .caller, 0, 1, 1⟩] ∧
      ¬ Along step Defined (some {}) overlapping := by
  refine ⟨by decide +kernel, by decide +kernel, by decide +kernel, by decide +kernel⟩

end CircularBuffer
end MrUDP
