import MrUDP.Packet

/-!
# The order of identifiers

`id_greater_than` of `mrudp/Packet.inl` compares identifiers that wrap around.  Of two identifiers
the one that is less than half a turn ahead of the other is the greater one.  When they are exactly
half a turn apart, neither is ahead, and the numbers decide.

The function is a template, but it finds half a turn by shifting an `int`: in a type of more than
32 bits it has no order.  The identifiers of the protocol have 16.

## Main results

* `idGreaterThan_iff`: the comparison by the distance of the identifiers.
* `id_order`: what the order is, up to 32 bits.
-/

namespace MrUDP

variable {w : ℕ}

/-- Half a turn, twice. -/
theorem two_pow_eq (hw : w ≠ 0) : 2 ^ w = 2 * 2 ^ (w - 1) := by
  rw [← Nat.pow_succ', Nat.succ_eq_add_one, Nat.sub_add_cancel (Nat.pos_of_ne_zero hw)]

/-- The distance of two identifiers. -/
theorem toNat_sub_eq (a b : BitVec w) :
    (a - b).toNat =
      if b.toNat ≤ a.toNat then a.toNat - b.toNat else 2 ^ w + a.toNat - b.toNat := by
  have ha := a.isLt
  have hb := b.isLt
  rw [BitVec.toNat_sub]
  split
  next hle =>
    rw [show 2 ^ w - b.toNat + a.toNat = a.toNat - b.toNat + 2 ^ w by omega, Nat.add_mod_right,
      Nat.mod_eq_of_lt (by omega)]
  next hlt =>
    rw [Nat.mod_eq_of_lt (by omega)]
    omega

/-- **The order by the distance**: less than half a turn ahead, or half a turn and the greater
number. -/
theorem idGreaterThan_iff (hw : w ≠ 0) (hint : w ≤ 32) (a b : BitVec w) :
    idGreaterThan a b = true ↔
      (0 < (a - b).toNat ∧ (a - b).toNat < 2 ^ (w - 1)) ∨
        ((a - b).toNat = 2 ^ (w - 1) ∧ b.toNat < a.toNat) := by
  have ha := a.isLt
  have hb := b.isLt
  have hpow := two_pow_eq hw
  rw [idGreaterThan, toNat_topBit hw hint, toNat_sub_eq]
  generalize 2 ^ (w - 1) = half at *
  rw [hpow] at ha hb ⊢
  generalize a.toNat = x at *
  generalize b.toNat = y at *
  by_cases hlt : y < x
  · -- The difference is the distance.
    rw [decide_eq_true hlt, if_pos rfl, if_pos hlt.le]
    by_cases hdiff : half < x - y
    · rw [if_pos hdiff, Bool.not_true]
      simp only [Bool.false_eq_true, false_iff]
      omega
    · rw [if_neg hdiff]
      simp only [true_iff]
      omega
  · -- The difference is what the distance lacks for a turn.
    rw [decide_eq_false hlt, if_neg Bool.false_ne_true]
    by_cases hdiff : half < y - x
    · rw [if_pos hdiff, Bool.not_false, if_neg (by omega)]
      simp only [true_iff]
      omega
    · rw [if_neg hdiff]
      simp only [Bool.false_eq_true, false_iff]
      split <;> omega

/-- The distance the other way around. -/
theorem toNat_sub_comm {a b : BitVec w} (h : a ≠ b) : (b - a).toNat = 2 ^ w - (a - b).toNat := by
  have ha := a.isLt
  have hb := b.isLt
  have hne : a.toNat ≠ b.toNat := fun heq => h (BitVec.eq_of_toNat_eq heq)
  rw [toNat_sub_eq, toNat_sub_eq]
  split <;> split <;> omega

/-- There is only one identifier without bits. -/
theorem width_ne_zero {a b : BitVec w} (h : a ≠ b) : w ≠ 0 := by
  rintro rfl
  exact h (BitVec.of_length_zero.trans BitVec.of_length_zero.symm)

theorem idGreaterThan_self (a : BitVec w) : idGreaterThan a a = false := by
  simp [idGreaterThan]

/-- Of two identifiers exactly one is the greater one. -/
theorem idGreaterThan_swap (hint : w ≤ 32) {a b : BitVec w} (h : a ≠ b) :
    idGreaterThan b a = !idGreaterThan a b := by
  have hw := width_ne_zero h
  have hpow := two_pow_eq hw
  have hcomm := toNat_sub_comm h
  have hlt := (a - b).isLt
  have hne : a.toNat ≠ b.toNat := fun heq => h (BitVec.eq_of_toNat_eq heq)
  have hpos : (a - b).toNat ≠ 0 := by
    rw [toNat_sub_eq]
    have hb := b.isLt
    split <;> omega
  rw [Bool.eq_iff_iff, Bool.not_eq_true', ← Bool.not_eq_true, idGreaterThan_iff hw hint,
    idGreaterThan_iff hw hint]
  omega

/-- Adding to both identifiers changes nothing, unless they are half a turn apart. -/
theorem idGreaterThan_add (hint : w ≤ 32) {a b : BitVec w} (h : (a - b).toNat ≠ 2 ^ (w - 1))
    (k : BitVec w) :
    idGreaterThan (a + k) (b + k) = idGreaterThan a b := by
  by_cases hab : a = b
  · rw [hab, idGreaterThan_self, idGreaterThan_self]
  · have hw := width_ne_zero hab
    have hsub : a + k - (b + k) = a - b := add_sub_add_right_eq_sub a b k
    rw [Bool.eq_iff_iff, idGreaterThan_iff hw hint, idGreaterThan_iff hw hint, hsub]
    omega

/-- **The order of identifiers**, at every width up to that of an `int`.  No identifier is greater
than itself; of two different ones exactly one is greater; it is the one that is less than half a
turn ahead; so the names of indices less than half a turn apart are in the order of the indices; and
unless they are half a turn apart, both may be moved by the same amount. -/
theorem id_order (w : ℕ) (hint : w ≤ 32) :
    (∀ a : BitVec w, idGreaterThan a a = false) ∧
      (∀ a b : BitVec w, a ≠ b → Xor (idGreaterThan a b = true) (idGreaterThan b a = true)) ∧
      (∀ a b : BitVec w, 1 ≤ (a - b).toNat → (a - b).toNat ≤ 2 ^ (w - 1) - 1 →
        idGreaterThan a b = true) ∧
      (∀ a b : BitVec w, 2 ^ (w - 1) + 1 ≤ (a - b).toNat → (a - b).toNat ≤ 2 ^ w - 1 →
        idGreaterThan a b = false) ∧
      (∀ i j : ℕ, j < i → i - j < 2 ^ (w - 1) →
        idGreaterThan (serial w i) (serial w j) = true) ∧
      ∀ a b k : BitVec w, (a - b).toNat ≠ 2 ^ (w - 1) →
        idGreaterThan (a + k) (b + k) = idGreaterThan a b := by
  -- Identifiers at a distance are different, so there are bits.
  have hwidth : ∀ {a b : BitVec w}, 1 ≤ (a - b).toNat → w ≠ 0 := by
    intro a b hpos
    refine @width_ne_zero w a b ?_
    rintro rfl
    simp at hpos
  refine ⟨idGreaterThan_self, ?_, ?_, ?_, ?_, fun a b k h => idGreaterThan_add hint h k⟩
  · intro a b h
    rw [idGreaterThan_swap hint h]
    cases idGreaterThan a b <;> simp [Xor]
  · intro a b hpos hle
    rw [idGreaterThan_iff (hwidth hpos) hint]
    omega
  · intro a b hge _
    rw [← Bool.not_eq_true, idGreaterThan_iff (hwidth ((Nat.le_add_left 1 _).trans hge)) hint]
    omega
  · intro i j hlt hdist
    rw [idGreaterThan_serial hint (by omega) (by omega), decide_eq_true hlt]

/-- Zero comes after the last identifier. -/
theorem id_order_zero : idGreaterThan (0 : BitVec 16) 65535 = true :=
  (id_order 16 (by decide)).2.2.1 0 65535 (by decide) (by decide)

/-- With 64 bits one comes after two, although it is two that is one step ahead. -/
theorem idGreaterThan_wide :
    ((2 : BitVec 64) - 1).toNat = 1 ∧ idGreaterThan (2 : BitVec 64) 1 = false ∧
      idGreaterThan (1 : BitVec 64) 2 = true := by
  decide

end MrUDP
