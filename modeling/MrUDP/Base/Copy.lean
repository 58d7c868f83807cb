import MrUDP.Packet

/-!
# Copying bytes

`mrudp/base/detail/small_copy.hpp` and `mrudp/base/detail/mem_copy.hpp`.  Up to 32 bytes are copied
one at a time, by two switches whose cases fall through; more are left to `memcpy`.  Every packet is
put together and taken apart by these copies.

An address is a number, and memory is what is at the addresses.

## Main definitions

* `Memory`, `memcpy`: memory, and what the library's copy does to it.
* `Cursor.copyByte`: the statement `*d++ = *s++`.
* `smallCopyV3`, `memCopy`.
* `pushData_memCopy`, `popData_memCopy`: the bytes of a packet, in memory.
-/

namespace MrUDP
open Wire

/-! ## Memory -/

/-- The byte at every address. -/
abbrev Memory := ℕ → UInt8

/-- `memcpy`, which copies between ranges that do not overlap. -/
def memcpy (m : Memory) (d s n : ℕ) : Memory := fun a =>
  if d ≤ a ∧ a < d + n then m (s + (a - d)) else m a

/-- Two ranges of the same size do not overlap. -/
def Apart (d s n : ℕ) : Prop := d + n ≤ s ∨ s + n ≤ d

instance (d s n : ℕ) : Decidable (Apart d s n) := inferInstanceAs (Decidable (_ ∨ _))

section
variable {m : Memory} {d s n a i : ℕ}

theorem memcpy_inside (hi : i < n) : memcpy m d s n (d + i) = m (s + i) := by
  rw [memcpy, if_pos (by omega), Nat.add_sub_cancel_left]

theorem memcpy_outside (ha : ¬ (d ≤ a ∧ a < d + n)) : memcpy m d s n a = m a := if_neg ha

@[simp] theorem memcpy_zero (m : Memory) (d s : ℕ) : memcpy m d s 0 = m := by
  funext a
  exact memcpy_outside (by omega)

/-- One more byte. -/
theorem memcpy_succ (hi : i < n) (h : Apart d s n) :
    Function.update (memcpy m d s i) (d + i) (memcpy m d s i (s + i)) = memcpy m d s (i + 1) := by
  -- The byte that is read was not written before.
  have hread : memcpy m d s i (s + i) = m (s + i) := by
    rw [Apart] at h
    exact memcpy_outside (by omega)
  funext a
  by_cases ha : a = d + i
  · rw [ha, Function.update_self, hread, memcpy_inside (Nat.lt_succ_self i)]
  · rw [Function.update_of_ne ha, memcpy, memcpy]
    by_cases hin : d ≤ a ∧ a < d + i
    · rw [if_pos hin, if_pos (by omega)]
    · rw [if_neg hin, if_neg (by omega)]

end

/-! ## Small copies -/

/-- The memory, and the pointers `d` and `s`. -/
structure Cursor where
  memory : Memory
  d : ℕ
  s : ℕ

namespace Cursor

/-- `*d++ = *s++`. -/
def copyByte (c : Cursor) : Cursor :=
  ⟨Function.update c.memory c.d (c.memory c.s), c.d + 1, c.s + 1⟩

/-- Where the pointers are after some bytes. -/
def after (m : Memory) (d s i : ℕ) : Cursor := ⟨memcpy m d s i, d + i, s + i⟩

variable {m : Memory} {d s n i k : ℕ}

theorem after_zero (m : Memory) (d s : ℕ) : after m d s 0 = ⟨m, d, s⟩ := by
  rw [after, memcpy_zero, Nat.add_zero, Nat.add_zero]

theorem copyByte_after (h : Apart d s n) (hi : i < n) :
    (after m d s i).copyByte = after m d s (i + 1) := by
  rw [after, copyByte]
  dsimp only
  rw [memcpy_succ hi h]
  rfl

theorem iterate_copyByte_after (h : Apart d s n) (hk : i + k ≤ n) :
    copyByte^[k] (after m d s i) = after m d s (i + k) := by
  induction k generalizing i with
  | zero => rfl
  | succ k ih =>
      rw [Function.iterate_succ_apply, copyByte_after h (by omega), ih (by omega), Nat.add_assoc,
        Nat.add_comm 1 k]

end Cursor

open Cursor

/-- The first switch of `small_copy_v3`.  A case falls through to the one below it, and the last one
returns. -/
def smallCopySwitch (c : Cursor) (size : ℕ) : Option Cursor :=
  let case1 (c : Cursor) := c.copyByte
  let case2 (c : Cursor) := case1 c.copyByte
  let case4 (c : Cursor) := case2 c.copyByte.copyByte
  let case8 (c : Cursor) := case4 c.copyByte.copyByte.copyByte.copyByte
  match size with
  | 8 => some (case8 c)
  | 4 => some (case4 c)
  | 2 => some (case2 c)
  | 1 => some (case1 c)
  | _ => none

/-- The second switch of `small_copy_v3`, without its default. -/
def smallCopyRest (c : Cursor) (size : ℕ) : Option Cursor :=
  let case1 (c : Cursor) := c.copyByte
  let case2 (c : Cursor) := case1 c.copyByte
  let case3 (c : Cursor) := case2 c.copyByte
  let case4 (c : Cursor) := case3 c.copyByte
  match size with
  | 4 => some (case4 c)
  | 3 => some (case3 c)
  | 2 => some (case2 c)
  | 1 => some (case1 c)
  | _ => none

/-- The loop of `small_copy_v3`, which goes around at most so many times. -/
def smallCopyLoop : ℕ → Cursor → ℕ → Option Cursor
  | 0, _, _ => none
  | fuel + 1, c, size =>
      if 0 < size then
        match smallCopyRest c size with
        | some c => some c
        | none => smallCopyLoop fuel c.copyByte.copyByte.copyByte.copyByte (size - 4)
      else some c

/-- `small_copy_v3`. -/
def smallCopyV3 (fuel : ℕ) (m : Memory) (d s size : ℕ) : Option Memory :=
  match smallCopySwitch ⟨m, d, s⟩ size with
  | some c => some c.memory
  | none => (smallCopyLoop fuel ⟨m, d, s⟩ size).map Cursor.memory

/-- `maybe_small_copy`. -/
def maybeSmallCopy (fuel : ℕ) (m : Memory) (d s size : ℕ) : Option (Bool × Memory) :=
  if 32 < size then some (false, m) else (smallCopyV3 fuel m d s size).map (true, ·)

/-- `mem_copy`. -/
def memCopy (fuel : ℕ) (m : Memory) (d s size : ℕ) : Option Memory :=
  (maybeSmallCopy fuel m d s size).map fun
    | (true, m) => m
    | (false, m) => memcpy m d s size

/-! ## They copy -/

/-- A case of the first switch copies as many bytes as it says. -/
theorem eq_of_smallCopySwitch {c c' : Cursor} {size : ℕ} (h : smallCopySwitch c size = some c') :
    c' = copyByte^[size] c := by
  unfold smallCopySwitch at h
  split at h
  all_goals cases h
  all_goals rfl

/-- So does a case of the second switch, and the default is for more than four bytes. -/
theorem smallCopyRest_cases (c : Cursor) {size : ℕ} (hpos : 0 < size) :
    smallCopyRest c size = some (copyByte^[size] c) ∨
      smallCopyRest c size = none ∧ 4 < size := by
  match size, hpos with
  | 1, _ => exact .inl rfl
  | 2, _ => exact .inl rfl
  | 3, _ => exact .inl rfl
  | 4, _ => exact .inl rfl
  | n + 5, _ => exact .inr ⟨rfl, by omega⟩

section
variable {m : Memory} {d s n : ℕ}

/-- The loop copies what is left. -/
theorem smallCopyLoop_eq (h : Apart d s n) {fuel i size : ℕ} (hfuel : size < fuel)
    (hsize : i + size = n) :
    smallCopyLoop fuel (after m d s i) size = some (after m d s n) := by
  induction fuel generalizing i size with
  | zero => omega
  | succ fuel ih =>
      rw [smallCopyLoop]
      split
      next hpos =>
        rcases smallCopyRest_cases (after m d s i) hpos with hrest | ⟨hrest, hlarge⟩
        · rw [hrest, iterate_copyByte_after h hsize.le, hsize]
        · have hfour : (after m d s i).copyByte.copyByte.copyByte.copyByte = after m d s (i + 4) :=
            iterate_copyByte_after h (k := 4) (by omega)
          rw [hrest, hfour]
          exact ih (by omega) (by omega)
      next hzero =>
        have hdone : i = n := by omega
        rw [hdone]

/-- **`small_copy_v3` is `memcpy`**, for any number of bytes. -/
theorem smallCopyV3_eq (m : Memory) (h : Apart d s n) {fuel : ℕ} (hfuel : n < fuel) :
    smallCopyV3 fuel m d s n = some (memcpy m d s n) := by
  rw [smallCopyV3, ← after_zero]
  split
  next c hc =>
    rw [eq_of_smallCopySwitch hc, iterate_copyByte_after h (by omega), Nat.zero_add]
    rfl
  next => rw [smallCopyLoop_eq h hfuel (Nat.zero_add n), Option.map_some, after]

theorem memCopy_eq (m : Memory) (h : Apart d s n) {fuel : ℕ} (hfuel : n < fuel) :
    memCopy fuel m d s n = some (memcpy m d s n) := by
  rw [memCopy, maybeSmallCopy]
  split
  · rfl
  · rw [smallCopyV3_eq m h hfuel]
    rfl

/-- **Small copies are copies.**  For ranges that do not overlap, `small_copy_v3` ends, writes the
bytes of the source in their order, and touches nothing else; so `mem_copy` does what `memcpy` does
on both sides of 32 bytes. -/
theorem small_copy_agrees (m : Memory) (d s n : ℕ) (h : Apart d s n) (fuel : ℕ) (hfuel : n < fuel) :
    ∃ m', smallCopyV3 fuel m d s n = some m' ∧ (∀ i < n, m' (d + i) = m (s + i)) ∧
      (∀ a, ¬ (d ≤ a ∧ a < d + n) → m' a = m a) ∧
      m' = memcpy m d s n ∧ memCopy fuel m d s n = some m' :=
  ⟨memcpy m d s n, smallCopyV3_eq m h hfuel, fun _ hi => memcpy_inside hi,
    fun _ ha => memcpy_outside ha, rfl, memCopy_eq m h hfuel⟩

/-- Thirteen bytes, for which no case of the first switch is there. -/
theorem small_copy_agrees_thirteen :
    ∃ m', smallCopyV3 14 (UInt8.ofNat ·) 100 7 13 = some m' ∧ m' 112 = 19 ∧ m' 113 = 113 := by
  obtain ⟨m', hcopy, hinside, houtside, -, -⟩ :=
    small_copy_agrees (UInt8.ofNat ·) 100 7 13 (by decide) 14 (by decide)
  exact ⟨m', hcopy, hinside 12 (by decide), houtside 113 (by decide)⟩

end

/-! ## Packets in memory -/

/-- The bytes from an address on. -/
def Memory.bytes (m : Memory) (a n : ℕ) : Bytes := (List.range n).map fun i => m (a + i)

section
variable {m : Memory} {a d s n k fuel : ℕ}

@[simp] theorem Memory.length_bytes (m : Memory) (a n : ℕ) : (Memory.bytes m a n).length = n := by
  simp [Memory.bytes]

theorem Memory.bytes_add (m : Memory) (a k n : ℕ) :
    Memory.bytes m a (k + n) = Memory.bytes m a k ++ Memory.bytes m (a + k) n := by
  simp [Memory.bytes, List.range_add, Nat.add_assoc]

theorem Memory.bytes_congr {m' : Memory} (h : ∀ i < n, m' (d + i) = m (s + i)) :
    Memory.bytes m' d n = Memory.bytes m s n :=
  List.map_congr_left fun i hi => h i (List.mem_range.mp hi)

/-- The copy is at its place, and what lies elsewhere stays. -/
theorem bytes_memcpy : Memory.bytes (memcpy m d s n) d n = Memory.bytes m s n :=
  Memory.bytes_congr fun _ hi => memcpy_inside hi

theorem bytes_memcpy_of_apart (h : a + k ≤ d ∨ d + n ≤ a) :
    Memory.bytes (memcpy m d s n) a k = Memory.bytes m a k :=
  Memory.bytes_congr fun _ hi => memcpy_outside (by omega)

variable {packet packet' : Packet} {data : Bytes}

/-- The copy in `pushData` puts the bytes behind the live ones. -/
theorem pushData_memCopy (hlive : Memory.bytes m a packet.data.length = packet.data)
    (hdata : Memory.bytes m s data.length = data)
    (happart : Apart (a + packet.data.length) s data.length)
    (hfits : packet.data.length + data.length ≤ maxPacketSize) (hfuel : data.length < fuel) :
    ∃ m', memCopy fuel m (a + packet.data.length) s data.length = some m' ∧
      Memory.bytes m' a (pushData packet data).2.data.length = (pushData packet data).2.data := by
  refine ⟨_, memCopy_eq m happart hfuel, ?_⟩
  rw [pushData_of_fits hfits]
  dsimp only
  rw [List.length_append, Memory.bytes_add, bytes_memcpy, bytes_memcpy_of_apart (.inl le_rfl), hlive,
    hdata]

/-- The copy in `popData` takes the last bytes, and leaves the live ones. -/
theorem popData_memCopy (hlive : Memory.bytes m a packet.data.length = packet.data)
    (hpop : popData packet n = some (data, packet')) (happart : Apart d a packet.data.length)
    (hfuel : n < fuel) :
    ∃ m', memCopy fuel m d (a + packet'.data.length) n = some m' ∧ Memory.bytes m' d n = data ∧
      Memory.bytes m' a packet'.data.length = packet'.data := by
  rw [popData] at hpop
  split at hpop
  · cases hpop
  next hsize =>
    cases hpop
    rw [Apart] at happart
    have hlength : (packet.data.take (packet.data.length - n)).length = packet.data.length - n := by
      rw [List.length_take]
      omega
    have hsplit := Memory.bytes_add m a (packet.data.length - n) n
    rw [Nat.sub_add_cancel (not_lt.mp hsize), hlive] at hsplit
    have hdrop := congrArg (List.drop (packet.data.length - n)) hsplit
    have htake := congrArg (List.take (packet.data.length - n)) hsplit
    rw [List.drop_left' (Memory.length_bytes m a _)] at hdrop
    rw [List.take_left' (Memory.length_bytes m a _)] at htake
    dsimp only
    rw [hlength]
    refine ⟨_, memCopy_eq m (by rw [Apart]; omega) hfuel, ?_, ?_⟩
    · rw [bytes_memcpy, hdrop]
    · rw [bytes_memcpy_of_apart (by omega), htake]

end

end MrUDP
