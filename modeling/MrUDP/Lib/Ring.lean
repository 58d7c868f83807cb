import Mathlib

/-!
# Lists closed to a ring

A list can be read and written as if its end were followed by its beginning.  `around l i n` are the
`n` elements from position `i` on, and `put l i data` writes `data` from position `i` on.  What was
written is read back, and what lies before it is left alone, so a stretch of a ring grows by what is
put behind it.

## Main definitions

* `Ring.overwrite l i data`: `data` in the place of the elements from `i` on.
* `Ring.around l i n`: `n` elements, around the end.
* `Ring.put l i data`: `data` written around the end.
* `Ring.around_put`: a stretch grows by what is put behind it.
-/

namespace Ring

variable {α : Type*} {l data : List α} {i j k m n : ℕ}

/-! ## Overwriting -/

/-- The list with `data` in the place of the elements from `i` on. -/
def overwrite (l : List α) (i : ℕ) (data : List α) : List α :=
  l.take i ++ (data ++ l.drop (i + data.length))

@[simp] theorem overwrite_nil (l : List α) (i : ℕ) : overwrite l i [] = l := by
  simp [overwrite]

theorem length_overwrite (h : i + data.length ≤ l.length) :
    (overwrite l i data).length = l.length := by
  simp only [overwrite, List.length_append, List.length_take, List.length_drop]
  omega

theorem getElem?_overwrite (h : i + data.length ≤ l.length) (k : ℕ) :
    (overwrite l i data)[k]? =
      if i ≤ k ∧ k < i + data.length then data[k - i]? else l[k]? := by
  have hi : (l.take i).length = i := List.length_take_of_le (by omega)
  rw [overwrite, List.getElem?_append, hi]
  split
  next hlt => rw [if_neg (by omega), List.getElem?_take, if_pos hlt]
  next hlt =>
    rw [List.getElem?_append]
    split
    next hk => rw [if_pos (by omega)]
    next hk =>
      rw [if_neg (by omega), List.getElem?_drop]
      congr 1
      omega

/-- A list that is overwritten in two parts. -/
theorem overwrite_overwrite {data' : List α} (h : data.length + data'.length = l.length) :
    overwrite (overwrite l 0 data) data.length data' = data ++ data' := by
  have hfirst : overwrite l 0 data = data ++ l.drop data.length := by
    rw [overwrite, List.take_zero, List.nil_append, Nat.zero_add]
  rw [hfirst, overwrite, List.take_left, List.drop_of_length_le, List.append_nil]
  rw [List.length_append, List.length_drop]
  omega

/-! ## Reading around the end -/

/-- The `n` elements from `i` on, around the end. -/
def around (l : List α) (i n : ℕ) : List α := (l.rotate i).take n

@[simp] theorem around_zero (l : List α) (i : ℕ) : around l i 0 = [] := List.take_zero ..

theorem length_around (h : n ≤ l.length) : (around l i n).length = n := by
  rw [around, List.length_take_of_le (by rwa [List.length_rotate])]

theorem around_mod (l : List α) (i n : ℕ) : around l (i % l.length) n = around l i n := by
  rw [around, List.rotate_mod, around]

theorem getElem?_around (hn : n ≤ l.length) (k : ℕ) :
    (around l i n)[k]? = if k < n then l[(k + i) % l.length]? else none := by
  rw [around, List.getElem?_take]
  split
  next hk => rw [List.getElem?_rotate (by omega)]
  · rfl

/-- A stretch is read in two parts. -/
theorem around_add (h : m + n ≤ l.length) :
    around l i (m + n) = around l i m ++ around l (i + m) n := by
  have hlength : (l.rotate i).length = l.length := List.length_rotate ..
  have hm : m ≤ (l.rotate i).length := by omega
  rw [around, around, around, ← List.rotate_rotate, List.take_add,
    List.rotate_eq_drop_append_take hm,
    List.take_append_of_le_length (by rw [List.length_drop]; omega)]

theorem take_around (h : m ≤ n) : (around l i n).take m = around l i m := by
  rw [around, around, List.take_take, min_eq_left h]

theorem drop_around (hm : m ≤ n) (hn : n ≤ l.length) :
    (around l i n).drop m = around l (i + m) (n - m) := by
  obtain ⟨k, rfl⟩ := Nat.exists_eq_add_of_le hm
  rw [around_add hn, List.drop_append_of_le_length (by rw [length_around (by omega)]),
    List.drop_of_length_le (by rw [length_around (by omega)]), List.nil_append,
    Nat.add_sub_cancel_left]

/-- A stretch that does not reach the end. -/
theorem around_of_le (h : i + n ≤ l.length) : around l i n = (l.drop i).take n := by
  rw [around, List.rotate_eq_drop_append_take (by omega),
    List.take_append_of_le_length (by rw [List.length_drop]; omega)]

/-- A stretch in its two parts: up to the end, and from the beginning on. -/
theorem around_eq_append (hi : i ≤ l.length) (hn : n ≤ l.length) :
    around l i n = (l.drop i).take (min n (l.length - i)) ++ l.take (n - (l.length - i)) := by
  rw [around, List.rotate_eq_drop_append_take hi, List.take_append, List.take_take,
    List.length_drop, min_eq_left (by omega), List.take_eq_take_min, List.length_drop]

/-- A stretch that reaches the end. -/
theorem around_of_ge (hi : i ≤ l.length) (h : l.length ≤ i + n) (hn : n ≤ l.length) :
    around l i n = l.drop i ++ l.take (i + n - l.length) := by
  have hrest : n - (l.length - i) = i + n - l.length := by omega
  rw [around_eq_append hi hn, hrest, List.take_of_length_le (by rw [List.length_drop]; omega)]

/-- More room behind the end does not matter to a stretch that does not reach it. -/
theorem around_append (h : i + n ≤ l.length) (more : List α) :
    around (l ++ more) i n = around l i n := by
  rw [around_of_le h, around_of_le (by rw [List.length_append]; omega),
    List.drop_append_of_le_length (by omega),
    List.take_append_of_le_length (by rw [List.length_drop]; omega)]

/-! ## Writing around the end -/

/-- The list with `data` written from `i` on, around the end. -/
def put (l : List α) (i : ℕ) (data : List α) : List α :=
  overwrite (overwrite l i (data.take (l.length - i))) 0 (data.drop (l.length - i))

/-- How far `j` is behind `i` in a ring. -/
def ahead (len i j : ℕ) : ℕ := if i ≤ j then j - i else len + j - i

section
variable (hi : i < l.length) (hdata : data.length ≤ l.length)
include hi hdata

theorem length_put : (put l i data).length = l.length := by
  have hfirst : (overwrite l i (data.take (l.length - i))).length = l.length :=
    length_overwrite (by rw [List.length_take]; omega)
  rw [put, length_overwrite (by rw [hfirst, List.length_drop]; omega), hfirst]

theorem getElem?_put (hj : j < l.length) :
    (put l i data)[j]? =
      if ahead l.length i j < data.length then data[ahead l.length i j]? else l[j]? := by
  have hfits : i + (data.take (l.length - i)).length ≤ l.length := by
    rw [List.length_take]
    omega
  have hfits' : 0 + (data.drop (l.length - i)).length ≤
      (overwrite l i (data.take (l.length - i))).length := by
    rw [length_overwrite hfits, List.length_drop]
    omega
  rw [put, getElem?_overwrite hfits', getElem?_overwrite hfits]
  simp only [List.length_drop, List.length_take, List.getElem?_drop, List.getElem?_take]
  by_cases hlt : i ≤ j
  · have hahead : ahead l.length i j = j - i := if_pos hlt
    rw [hahead, if_neg (by omega)]
    split
    next hin => rw [if_pos (by omega), if_pos (by omega)]
    next hin => rw [if_neg (by omega)]
  · have hahead : ahead l.length i j = l.length + j - i := if_neg hlt
    rw [hahead]
    split
    next hin =>
      rw [if_pos (by omega)]
      congr 1
      omega
    next hin => rw [if_neg (by omega), if_neg (by omega)]

end

/-- **A stretch of a ring grows by what is put behind it.** -/
theorem around_put (hi : i < l.length) (h : n + data.length ≤ l.length) :
    around (put l ((i + n) % l.length) data) i (n + data.length) = around l i n ++ data := by
  have hat : (i + n) % l.length < l.length := Nat.mod_lt _ (by omega)
  have hlength : (put l ((i + n) % l.length) data).length = l.length :=
    length_put hat (by omega)
  have hmod : ∀ k < 2 * l.length, k % l.length = if k < l.length then k else k - l.length := by
    intro k hk
    split
    next hlt => exact Nat.mod_eq_of_lt hlt
    next hlt => rw [Nat.mod_eq_sub_mod (by omega), Nat.mod_eq_of_lt (by omega)]
  apply List.ext_getElem?
  intro k
  rw [getElem?_around (by omega), List.getElem?_append, length_around (by omega),
    getElem?_around (by omega), hlength]
  by_cases hk : k < n + data.length
  · rw [if_pos hk, getElem?_put hat (by omega) (Nat.mod_lt _ (by omega))]
    -- How far the position of the element is behind the position of the data.
    have hahead : ahead l.length ((i + n) % l.length) ((k + i) % l.length) =
        if k < n then l.length + k - n else k - n := by
      rw [hmod _ (by omega), hmod _ (by omega), ahead]
      split_ifs <;> omega
    rw [hahead]
    by_cases hkn : k < n
    · rw [if_pos hkn, if_neg (by omega), if_pos hkn, if_pos hkn]
    · rw [if_neg hkn, if_pos (by omega), if_neg hkn]
  · rw [if_neg hk, if_neg (by omega), List.getElem?_eq_none (by omega)]

end Ring
