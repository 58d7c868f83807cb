import Mathlib

/-!
# Wrapping serial numbers

A counter kept in a `w`-bit word names an unbounded sequence by the residues of
its indices.  Two indices less than a full turn apart are told apart by their
residues.  These are the facts every protocol with wrapping sequence numbers rests
on.

## Main definitions

* `serial w i`: the `w`-bit name of the index `i`.
* `serial_inj`: names are unambiguous within one turn.
* `serial_lt_iff`, `serial_lt_of_turn`: the names are in order within a turn, and out of order
  across its end.
-/

/-- The `w`-bit name of an unbounded index. -/
def serial (w i : ℕ) : BitVec w := BitVec.ofNat w i

variable {w : ℕ}

@[simp] theorem toNat_serial (w i : ℕ) : (serial w i).toNat = i % 2 ^ w := by
  simp [serial]

@[simp] theorem serial_add_one (w i : ℕ) : serial w i + 1 = serial w (i + 1) := by
  apply BitVec.eq_of_toNat_eq
  simp [serial, Nat.add_mod]

/-- Within one turn a name determines its index. -/
theorem serial_inj {i j : ℕ} (h : serial w i = serial w j)
    (hij : i < j + 2 ^ w) (hji : j < i + 2 ^ w) : i = j := by
  have hmod : i % 2 ^ w = j % 2 ^ w := by
    simpa using congrArg BitVec.toNat h
  rcases le_total i j with hle | hle
  · have hdvd := (Nat.modEq_iff_dvd' hle).mp hmod
    have hzero := Nat.eq_zero_of_dvd_of_lt hdvd (by omega)
    omega
  · have hdvd := (Nat.modEq_iff_dvd' hle).mp hmod.symm
    have hzero := Nat.eq_zero_of_dvd_of_lt hdvd (by omega)
    omega

/-- Indices at most a turn apart are in the same turn or in neighbouring ones. -/
theorem div_near {n i j : ℕ} (hn : 0 < n) (hij : i ≤ j + n) (hji : j ≤ i + n) :
    i / n = j / n ∨ i / n = j / n + 1 ∨ j / n = i / n + 1 := by
  have hi : i / n ≤ j / n + 1 := by
    rw [← Nat.add_div_right j hn]
    exact Nat.div_le_div_right hij
  have hj : j / n ≤ i / n + 1 := by
    rw [← Nat.add_div_right i hn]
    exact Nat.div_le_div_right hji
  omega

/-- Within a turn the names are in the order of their indices. -/
theorem serial_lt_iff {i j : ℕ} (hturn : i / 2 ^ w = j / 2 ^ w) :
    serial w i < serial w j ↔ i < j := by
  have hi := Nat.div_add_mod i (2 ^ w)
  have hj := Nat.div_add_mod j (2 ^ w)
  rw [hturn] at hi
  rw [BitVec.lt_def, toNat_serial, toNat_serial]
  omega

/-- Across the end of a turn the name of the later index is the lesser one. -/
theorem serial_lt_of_turn {i j : ℕ} (hlt : i < j) (hnear : j < i + 2 ^ w)
    (hturn : i / 2 ^ w ≠ j / 2 ^ w) : serial w j < serial w i := by
  have hi := Nat.div_add_mod i (2 ^ w)
  have hj := Nat.div_add_mod j (2 ^ w)
  have hle : i / 2 ^ w ≤ j / 2 ^ w := Nat.div_le_div_right hlt.le
  have hnext : 2 ^ w * (i / 2 ^ w + 1) ≤ 2 ^ w * (j / 2 ^ w) :=
    Nat.mul_le_mul_left _ (by omega)
  rw [Nat.mul_add, Nat.mul_one] at hnext
  rw [BitVec.lt_def, toNat_serial, toNat_serial]
  omega
