import Mathlib

/-!
# Little-endian integers in byte strings

Packed C structures are read and written by copying memory, so on the machines
this development is about an unsigned integer of `n` bytes appears in a byte
string least significant byte first.  `leBytes` writes such an integer and
`leNat` reads one back; the two are inverse on the integers that fit.

## Main definitions

* `Bytes`: a byte string.
* `leBytes n v`: the `n` low-order bytes of `v`, least significant first.
* `leNat bs`: the number a byte string denotes.
-/

/-- A byte string. -/
abbrev Bytes := List UInt8

namespace Wire

/-- The `n` low-order bytes of `v`, least significant first. -/
def leBytes : ℕ → ℕ → Bytes
  | 0, _ => []
  | n + 1, v => UInt8.ofNat v :: leBytes n (v / 256)

/-- The number a byte string denotes, least significant byte first. -/
def leNat : Bytes → ℕ
  | [] => 0
  | b :: bs => b.toNat + 256 * leNat bs

@[simp] theorem leNat_nil : leNat [] = 0 := rfl
@[simp] theorem leNat_cons (b : UInt8) (bs : Bytes) :
    leNat (b :: bs) = b.toNat + 256 * leNat bs := rfl

@[simp] theorem length_leBytes (n v : ℕ) : (leBytes n v).length = n := by
  induction n generalizing v with
  | zero => rfl
  | succ n ih => simp [leBytes, ih]

/-- Reading back what was written reduces it modulo the width. -/
theorem leNat_leBytes_mod (n v : ℕ) : leNat (leBytes n v) = v % 256 ^ n := by
  induction n generalizing v with
  | zero => simp [leBytes, Nat.mod_one]
  | succ n ih =>
      have hbyte : (UInt8.ofNat v).toNat = v % 256 := by simp
      rw [leBytes, leNat_cons, ih, hbyte, pow_succ', Nat.mod_mul]

/-- An integer that fits its width survives the wire. -/
theorem leNat_leBytes {n v : ℕ} (h : v < 256 ^ n) : leNat (leBytes n v) = v := by
  rw [leNat_leBytes_mod, Nat.mod_eq_of_lt h]

theorem leNat_lt (bs : Bytes) : leNat bs < 256 ^ bs.length := by
  induction bs with
  | nil => simp
  | cons b bs ih =>
      have hb : b.toNat < 256 := b.toNat_lt
      rw [leNat_cons, List.length_cons, pow_succ']
      omega

/-- Writing what was read gives the bytes back. -/
theorem leBytes_leNat (bs : Bytes) : leBytes bs.length (leNat bs) = bs := by
  induction bs with
  | nil => rfl
  | cons b bs ih =>
      have hb : b.toNat < 256 := b.toNat_lt
      have hlow : UInt8.ofNat (b.toNat + 256 * leNat bs) = b := by
        apply UInt8.toNat_inj.mp
        rw [UInt8.toNat_ofNat']
        omega
      have hhigh : (b.toNat + 256 * leNat bs) / 256 = leNat bs := by omega
      rw [leNat_cons, List.length_cons, leBytes, hlow, hhigh, ih]

/-- A fixed-width word survives the wire. -/
theorem ofNat_leNat_leBytes {w n : ℕ} (x : BitVec w) (h : 2 ^ w ≤ 256 ^ n) :
    BitVec.ofNat w (leNat (leBytes n x.toNat)) = x := by
  rw [leNat_leBytes (lt_of_lt_of_le x.isLt h)]
  simp

/-- Bytes survive being a word. -/
theorem leBytes_ofNat_leNat {w n : ℕ} {bs : Bytes} (hn : bs.length = n) (h : 256 ^ n ≤ 2 ^ w) :
    leBytes n (BitVec.ofNat w (leNat bs)).toNat = bs := by
  subst hn
  rw [BitVec.toNat_ofNat, Nat.mod_eq_of_lt (lt_of_lt_of_le (leNat_lt bs) h), leBytes_leNat]

end Wire
