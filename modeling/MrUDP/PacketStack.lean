import MrUDP.Packet

/-!
# The packet as a stack

The pushes and pops of `mrudp/Packet.inl`.  They exist for raw bytes, for a value of fixed
size, and for a vector of bytes, which is pushed with its length behind it.

The byte version compares with `MAX_PACKET_SIZE - size`, an unsigned number: more bytes than
a packet can hold always pass.  The version for a value does not look at the outcome.  The
versions for a vector do two things, of which the second can fail alone.

## Main definitions

* `PacketStack.Value.push`, `PacketStack.Request.pop`: the overloads.
* `PacketStack.Pushes`, `PacketStack.Pops`: what a stack owes its user.
* `PacketStack.Value.Admitted`, `PacketStack.Request.Admitted`: where the code keeps to it.
-/

namespace MrUDP
open Wire

namespace PacketStack

/-- The overloads of `pushData` and `popData`. -/
inductive Shape
  | raw
  | fixed
  | vector
  deriving DecidableEq, Repr

/-- Something to push.  Its length is a `size_t`. -/
structure Value where
  shape : Shape
  bytes : Bytes
  length_lt : bytes.length < 2 ^ 64

/-- Something to pop: the size is the caller's, except for a vector. -/
inductive Request
  | raw (size : ℕ)
  | fixed (size : ℕ)
  | vector
  deriving DecidableEq, Repr

/-- `pushData`. -/
def Value.push (v : Value) (packet : Packet) : Bool × Packet :=
  match v.shape with
  | .raw => pushData packet v.bytes
  | .fixed => pushValue packet v.bytes
  | .vector => pushSizedData packet v.bytes

/-- `pushSize`. -/
def Value.pushSize (v : Value) : ℕ :=
  match v.shape with
  | .raw | .fixed => v.bytes.length
  | .vector => v.bytes.length + 2

/-- `popData`: what is returned, `none` for `false`, and what becomes of the packet. -/
def Request.pop (r : Request) (packet : Packet) : Option Bytes × Packet :=
  match r with
  | .raw size | .fixed size =>
      match popData packet size with
      | none => (none, packet)
      | some (data, packet) => (some data, packet)
  | .vector => popSizedData packet

/-- The pop that matches a push. -/
def Value.request (v : Value) : Request :=
  match v.shape with
  | .raw => .raw v.bytes.length
  | .fixed => .fixed v.bytes.length
  | .vector => .vector

/-! ## What is owed -/

/-- What a push owes. -/
structure Pushes (packet : Packet) (v : Value) : Prop where
  fits : (v.push packet).1 = true ↔ packet.data.length + v.pushSize ≤ maxPacketSize
  /-- What is pushed lies behind what was there, and comes off again. -/
  pushed : (v.push packet).1 = true →
    (v.push packet).2.data.length = packet.data.length + v.pushSize ∧
      packet.data <+: (v.push packet).2.data ∧
      (v.request.pop (v.push packet).2).1 = some v.bytes ∧
      (v.request.pop (v.push packet).2).2.data = packet.data ∧
      (v.request.pop (v.push packet).2).2.header = packet.header
  refused : (v.push packet).1 = false → (v.push packet).2.data = packet.data
  bounded : (v.push packet).2.data.length ≤ maxPacketSize

/-- What a pop owes. -/
structure Pops (packet : Packet) (r : Request) : Prop where
  refused : (r.pop packet).1 = none → (r.pop packet).2.data = packet.data
  bounded : (r.pop packet).2.data.length ≤ maxPacketSize

/-! ## Where the code keeps to it -/

/-- Raw bytes are no more than a packet can hold; a value fits; a vector is no more than a
packet can hold, and if it fits, so does its length behind it. -/
def Value.Admitted (v : Value) (packet : Packet) : Prop :=
  match v.shape with
  | .raw => v.bytes.length ≤ maxPacketSize
  | .fixed => packet.data.length + v.bytes.length ≤ maxPacketSize
  | .vector =>
      v.bytes.length ≤ maxPacketSize ∧
        (packet.data.length + v.bytes.length ≤ maxPacketSize →
          packet.data.length + v.bytes.length + 2 ≤ maxPacketSize)

/-- The length found on top of the packet is not more than what lies below it. -/
def Request.Admitted (r : Request) (packet : Packet) : Prop :=
  match r with
  | .raw _ | .fixed _ => True
  | .vector =>
      2 ≤ packet.data.length →
        leNat (packet.data.drop (packet.data.length - 2)) ≤ packet.data.length - 2

/-! ## The pushes -/

section
variable {packet : Packet} {data : Bytes}

/-- Bytes that do not fit are refused, if a packet can hold that many. -/
theorem pushData_of_not_fits (hsize : data.length ≤ maxPacketSize)
    (h : maxPacketSize < packet.data.length + data.length) :
    pushData packet data = (false, packet) := by
  rw [pushData, toNat_room hsize, if_pos (by omega)]

/-- More bytes than a packet can hold are never refused: the room wraps around. -/
theorem pushData_of_overlong (hsize : maxPacketSize < data.length) (hlt : data.length < 2 ^ 64)
    (h : packet.data.length ≤ maxPacketSize) : (pushData packet data).1 = true := by
  have hmod : (((maxPacketSize : ℤ) - data.length) % 2 ^ 64).toNat =
      maxPacketSize + 2 ^ 64 - data.length := by
    rw [← Int.add_emod_right, Int.emod_eq_of_lt (by omega) (by omega)]
    omega
  rw [pushData, hmod, if_neg (by omega)]

/-- A vector whose bytes do not fit is refused. -/
theorem pushSizedData_of_not_fits (hsize : data.length ≤ maxPacketSize)
    (h : maxPacketSize < packet.data.length + data.length) :
    pushSizedData packet data = (false, packet) := by
  rw [pushSizedData, pushData_of_not_fits hsize h]

/-- A vector whose bytes are not refused is reported as pushed. -/
theorem pushSizedData_of_pushData (h : (pushData packet data).1 = true) :
    (pushSizedData packet data).1 = true := by
  rw [pushSizedData]
  split
  next heq =>
    rw [heq] at h
    cases h
  next => rfl

end

section
variable {packet : Packet} {v : Value}

/-- A push that reports success without room owes too much. -/
theorem not_pushes (htrue : (v.push packet).1 = true)
    (hfits : maxPacketSize < packet.data.length + v.pushSize) : ¬ Pushes packet v := by
  intro h
  have := h.fits.mp htrue
  omega

/-- A push that is refused for want of room owes nothing. -/
theorem pushes_of_refused (h : packet.data.length ≤ maxPacketSize)
    (hpush : v.push packet = (false, packet))
    (hfits : maxPacketSize < packet.data.length + v.pushSize) : Pushes packet v where
  fits := by
    rw [hpush]
    exact ⟨fun hfalse => (Bool.false_ne_true hfalse).elim, fun hle => absurd hle (by omega)⟩
  pushed := by
    rw [hpush]
    exact fun hfalse => (Bool.false_ne_true hfalse).elim
  refused _ := by rw [hpush]
  bounded := by rwa [hpush]

/-- A push that appends what the matching pop takes off keeps its promises. -/
theorem pushes_of_append {packet' : Packet} {encoding : Bytes}
    (hpush : v.push packet = (true, packet')) (hdata : packet'.data = packet.data ++ encoding)
    (hencoding : encoding.length = v.pushSize)
    (hfits : packet.data.length + v.pushSize ≤ maxPacketSize)
    (hpop : ∃ rest, v.request.pop packet' =
      (some v.bytes, { packet' with data := packet.data, rest := rest }))
    (hheader : packet'.header = packet.header) : Pushes packet v where
  fits := by
    rw [hpush]
    exact ⟨fun _ => hfits, fun _ => rfl⟩
  pushed _ := by
    obtain ⟨rest, hpop⟩ := hpop
    rw [hpush, hpop]
    refine ⟨by rw [hdata, List.length_append, hencoding], ?_, rfl, rfl, hheader⟩
    rw [hdata]
    exact List.prefix_append _ _
  refused := by
    rw [hpush]
    exact fun hfalse => nomatch hfalse
  bounded := by
    rw [hpush, hdata, List.length_append, hencoding]
    exact hfits

/-- The matching pop of bytes that lie on top. -/
theorem pop_request_append {packet' : Packet} (hshape : v.shape ≠ .vector)
    (hdata : packet'.data = packet.data ++ v.bytes) :
    ∃ rest, v.request.pop packet' =
      (some v.bytes, { packet' with data := packet.data, rest := rest }) := by
  have hpop := popData_append packet' packet.data v.bytes hdata
  refine ⟨v.bytes ++ packet'.rest, ?_⟩
  cases hs : v.shape with
  | raw => simp only [Value.request, hs, Request.pop, hpop]
  | fixed => simp only [Value.request, hs, Request.pop, hpop]
  | vector => exact absurd hs hshape

/-- Bytes that fit, and that are pushed as raw bytes are. -/
theorem pushes_of_pushData (hshape : v.shape ≠ .vector)
    (hpush : v.push packet = pushData packet v.bytes)
    (hfits : packet.data.length + v.bytes.length ≤ maxPacketSize) : Pushes packet v := by
  have hsize : v.pushSize = v.bytes.length := by
    rw [Value.pushSize]
    split
    · rfl
    · rfl
    next hvector => exact absurd hvector hshape
  exact pushes_of_append (hpush.trans (pushData_of_fits hfits)) rfl hsize.symm (by omega)
    (pop_request_append hshape rfl) rfl

/-- Raw bytes. -/
theorem pushes_raw_iff (h : packet.data.length ≤ maxPacketSize) (hshape : v.shape = .raw) :
    Pushes packet v ↔ v.bytes.length ≤ maxPacketSize := by
  have hpush : v.push packet = pushData packet v.bytes := by simp only [Value.push, hshape]
  have hsize : v.pushSize = v.bytes.length := by simp only [Value.pushSize, hshape]
  by_cases hle : v.bytes.length ≤ maxPacketSize
  · refine ⟨fun _ => hle, fun _ => ?_⟩
    by_cases hfits : packet.data.length + v.bytes.length ≤ maxPacketSize
    · exact pushes_of_pushData (by simp [hshape]) hpush hfits
    · exact pushes_of_refused h (hpush.trans (pushData_of_not_fits hle (by omega))) (by omega)
  · refine ⟨fun hp => absurd hp (not_pushes ?_ (by omega)), fun hle' => absurd hle' hle⟩
    rw [hpush]
    exact pushData_of_overlong (by omega) v.length_lt h

/-- A value of fixed size. -/
theorem pushes_fixed_iff (hshape : v.shape = .fixed) :
    Pushes packet v ↔ packet.data.length + v.bytes.length ≤ maxPacketSize := by
  have hpush : v.push packet = pushValue packet v.bytes := by simp only [Value.push, hshape]
  have hsize : v.pushSize = v.bytes.length := by simp only [Value.pushSize, hshape]
  by_cases hfits : packet.data.length + v.bytes.length ≤ maxPacketSize
  · refine ⟨fun _ => hfits, fun _ => ?_⟩
    refine pushes_of_pushData (by simp [hshape]) ?_ hfits
    rw [hpush, pushValue, pushData_of_fits hfits]
  · refine ⟨fun hp => absurd hp (not_pushes ?_ (by omega)), fun hle => absurd hle hfits⟩
    rw [hpush]
    rfl

/-- A vector. -/
theorem pushes_vector_iff (h : packet.data.length ≤ maxPacketSize) (hshape : v.shape = .vector) :
    Pushes packet v ↔
      v.bytes.length ≤ maxPacketSize ∧
        (packet.data.length + v.bytes.length ≤ maxPacketSize →
          packet.data.length + v.bytes.length + 2 ≤ maxPacketSize) := by
  have hpush : v.push packet = pushSizedData packet v.bytes := by simp only [Value.push, hshape]
  have hsize : v.pushSize = v.bytes.length + 2 := by simp only [Value.pushSize, hshape]
  by_cases hboth : packet.data.length + v.bytes.length + 2 ≤ maxPacketSize
  · refine ⟨fun _ => ⟨by omega, fun _ => hboth⟩, fun _ => ?_⟩
    obtain ⟨rest, heq⟩ := pushSizedData_of_fits hboth
    refine pushes_of_append (hpush.trans heq) (List.append_assoc ..)
      (by rw [List.length_append, length_leBytes, hsize]) (by omega) ?_ rfl
    have hrequest : v.request = .vector := by simp only [Value.request, hshape]
    rw [hrequest]
    exact popSizedData_append _ packet.data v.bytes rfl (by simp only [maxPacketSize] at hboth; omega)
  · by_cases hrefused : v.bytes.length ≤ maxPacketSize ∧
        maxPacketSize < packet.data.length + v.bytes.length
    · obtain ⟨hle, hlt⟩ := hrefused
      exact ⟨fun _ => ⟨hle, fun hfits => absurd hfits (by omega)⟩, fun _ =>
        pushes_of_refused h (hpush.trans (pushSizedData_of_not_fits hle hlt)) (by omega)⟩
    · -- Either the bytes alone fit, or there are too many for any packet.
      constructor
      · intro hp
        refine absurd hp (not_pushes ?_ (by omega))
        rw [hpush]
        refine pushSizedData_of_pushData ?_
        by_cases hle : v.bytes.length ≤ maxPacketSize
        · rw [pushData_of_fits (by omega)]
        · exact pushData_of_overlong (by omega) v.length_lt h
      · rintro ⟨hle, himp⟩
        exact absurd (himp (by omega)) hboth

end

/-! ## The pops -/

section
variable {packet : Packet}

/-- A pop of raw bytes or of a value is refused without a trace. -/
theorem pops_of_popData (h : packet.data.length ≤ maxPacketSize) {r : Request} {size : ℕ}
    (hr : r = .raw size ∨ r = .fixed size) : Pops packet r := by
  have hpop : r.pop packet = match popData packet size with
      | none => (none, packet)
      | some (data, packet) => (some data, packet) := by
    rcases hr with rfl | rfl <;> rfl
  rw [popData] at hpop
  by_cases hlt : packet.data.length < size
  · rw [if_pos hlt] at hpop
    exact ⟨fun _ => by rw [hpop], by rwa [hpop]⟩
  · rw [if_neg hlt] at hpop
    refine ⟨fun hnone => ?_, ?_⟩
    · rw [hpop] at hnone
      cases hnone
    · rw [hpop]
      exact (List.length_take_le _ _).trans ((Nat.sub_le _ _).trans h)

/-- What a pop of a vector does. -/
theorem popSizedData_cases (packet : Packet) :
    packet.data.length < 2 ∧ popSizedData packet = (none, packet) ∨
      2 ≤ packet.data.length ∧
        ∃ out, popSizedData packet = out ∧ out.2.data.length ≤ packet.data.length - 2 ∧
          (out.1 = none ↔ packet.data.length - 2 <
            leNat (packet.data.drop (packet.data.length - 2))) := by
  rw [popSizedData, popData]
  by_cases hlt : packet.data.length < 2
  · rw [if_pos hlt]
    exact .inl ⟨hlt, rfl⟩
  · rw [if_neg hlt]
    refine .inr ⟨by omega, _, rfl, ?_⟩
    dsimp only
    rw [popData]
    have htake : (packet.data.take (packet.data.length - 2)).length = packet.data.length - 2 := by
      rw [List.length_take]
      omega
    rw [htake]
    by_cases hshort : packet.data.length - 2 <
        leNat (packet.data.drop (packet.data.length - 2))
    · rw [if_pos hshort]
      exact ⟨htake.le, iff_of_true rfl hshort⟩
    · rw [if_neg hshort]
      exact ⟨(List.length_take_le _ _).trans (Nat.sub_le _ _), iff_of_false (by simp) hshort⟩

/-- A pop of a vector. -/
theorem pops_vector_iff (h : packet.data.length ≤ maxPacketSize) :
    Pops packet .vector ↔ Request.vector.Admitted packet := by
  have hpop : Request.vector.pop packet = popSizedData packet := rfl
  rcases popSizedData_cases packet with ⟨hlt, heq⟩ | ⟨hle, out, heq, hlength, hnone⟩
  · refine ⟨fun _ htwo => absurd htwo (by omega), fun _ => ⟨fun _ => ?_, ?_⟩⟩
    · rw [hpop, heq]
    · rwa [hpop, heq]
  · rw [heq] at hpop
    refine ⟨fun hp _ => ?_, fun hadmitted => ⟨fun hnone' => ?_, ?_⟩⟩
    · by_contra hgt
      have hdata := hp.refused (hpop ▸ hnone.mpr (by omega))
      rw [hpop] at hdata
      rw [hdata] at hlength
      omega
    · have hgt := hnone.mp (hpop ▸ hnone')
      have hsmall := hadmitted hle
      omega
    · rw [hpop]
      omega

end

/-! ## The stack -/

/-- **The packet as a stack.**  A push keeps its promises exactly if it is admitted, and so does
a pop. -/
theorem packet_stack (packet : Packet) (h : packet.data.length ≤ maxPacketSize) :
    (∀ v : Value, Pushes packet v ↔ v.Admitted packet) ∧
      ∀ r : Request, Pops packet r ↔ r.Admitted packet := by
  refine ⟨fun v => ?_, fun r => ?_⟩
  · rw [Value.Admitted]
    cases hshape : v.shape with
    | raw => exact pushes_raw_iff h hshape
    | fixed => exact pushes_fixed_iff hshape
    | vector => exact pushes_vector_iff h hshape
  · cases r with
    | raw size => exact iff_of_true (pops_of_popData h (.inl rfl)) trivial
    | fixed size => exact iff_of_true (pops_of_popData h (.inr rfl)) trivial
    | vector => exact pops_vector_iff h

/-- A packet with three bytes, on which a vector of two lies. -/
theorem packet_stack_short :
    let packet : Packet := { data := [7, 8, 9] }
    let v : Value := ⟨.vector, [1, 2], by decide⟩
    packet.data.length ≤ maxPacketSize ∧ Pushes packet v ∧ ¬ Pops packet .vector := by
  intro packet v
  have h : packet.data.length ≤ maxPacketSize := by decide
  have hadmitted : v.Admitted packet := by
    rw [Value.Admitted]
    decide
  exact ⟨h, ((packet_stack packet h).1 v).mpr hadmitted, fun hp =>
    absurd (((packet_stack packet h).2 .vector).mp hp (by decide)) (by decide)⟩

/-- **A value pushed on a full packet is lost**, and reported as pushed.  A vector whose length
is larger than what lies below it is refused, and its length is gone. -/
theorem packet_stack_loses :
    let full : Packet := { data := List.replicate 1500 0 }
    full.data.length ≤ maxPacketSize ∧
      pushValue full [1, 2] = (true, full) ∧
      (popSizedData { data := [7, 5, 0] }).1 = none ∧
      (popSizedData { data := [7, 5, 0] }).2.data = [7] := by
  intro full
  have hlength : full.data.length = 1500 := List.length_replicate
  refine ⟨hlength.le, ?_, by decide, by decide⟩
  rw [pushValue, pushData_of_not_fits (by decide) (by rw [hlength]; decide)]

end PacketStack
end MrUDP
