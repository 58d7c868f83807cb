import Mathlib.Data.List.Sort

/-!
# Ordered queues

A queue ordered by time, as a list: an element is inserted behind those that are due before it or at
the same time.

## Main definitions

* `Ordered.insert`: insert an element.
* `Ordered.Sorted`: the queue is in order.
* `Ordered.early`: the elements due before some time.
-/

namespace MrUDP
namespace Ordered

variable {α β : Type*} [LinearOrder β] (due : α → β) {a b : α} {l : List α}

/-- Insert an element behind those that are not due after it. -/
def insert (a : α) (l : List α) : List α := l.orderedInsert (fun a b => due a < due b) a

/-- The elements are in order. -/
def Sorted (l : List α) : Prop := l.Pairwise fun a b => due a ≤ due b

/-- The elements that are due before some time. -/
def early (time : β) (l : List α) : List α := l.filter fun a => due a < time

variable {due}

theorem mem_insert : b ∈ insert due a l ↔ b = a ∨ b ∈ l := List.mem_orderedInsert _

theorem perm_insert (a : α) (l : List α) : (insert due a l).Perm (a :: l) :=
  List.perm_orderedInsert _ a l

theorem insert_cons : insert due a (b :: l) =
    if due a < due b then a :: b :: l else b :: insert due a l :=
  List.orderedInsert_cons _ _ _ _

theorem Sorted.insert (h : Sorted due l) (a : α) : Sorted due (insert due a l) := by
  induction l with
  | nil => exact List.pairwise_singleton _ _
  | cons b l ih =>
      obtain ⟨hb, hl⟩ := List.pairwise_cons.mp h
      rw [insert_cons]
      split
      next hlt =>
        refine List.pairwise_cons.mpr ⟨fun c hc => ?_, h⟩
        rcases List.mem_cons.mp hc with rfl | hc
        · exact hlt.le
        · exact hlt.le.trans (hb c hc)
      next hle =>
        refine List.pairwise_cons.mpr ⟨fun c hc => ?_, ih hl⟩
        rcases mem_insert.mp hc with rfl | hc
        · exact not_lt.mp hle
        · exact hb c hc

/-- The element is first, or the first one is the same as before. -/
theorem head?_insert (a : α) (l : List α) :
    (insert due a l).head? = some a ∨ (insert due a l).head? = l.head? := by
  cases l with
  | nil => exact .inl rfl
  | cons b l =>
      rw [insert_cons]
      split
      · exact .inl rfl
      · exact .inr rfl

theorem Sorted.filter (h : Sorted due l) (p : α → Bool) : Sorted due (l.filter p) :=
  List.Pairwise.filter p h

/-- The first element is due first. -/
theorem Sorted.head_le (h : Sorted due (a :: l)) (hb : b ∈ a :: l) : due a ≤ due b := by
  rcases List.mem_cons.mp hb with rfl | hb
  · exact le_rfl
  · exact (List.pairwise_cons.mp h).1 b hb

theorem mem_early {time : β} : a ∈ early due time l ↔ a ∈ l ∧ due a < time := by
  rw [early, List.mem_filter, decide_eq_true_eq]

/-- An element that is due later is not among the early ones. -/
theorem early_insert {time : β} (h : time ≤ due a) : early due time (insert due a l) =
    early due time l := by
  have hlate : ¬ due a < time := not_lt.mpr h
  induction l with
  | nil => exact List.filter_cons_of_neg (by simpa using hlate)
  | cons b l ih =>
      rw [insert_cons]
      split
      · exact List.filter_cons_of_neg (by simpa using hlate)
      · rw [early, early, List.filter_cons, List.filter_cons]
        rw [early, early] at ih
        rw [ih]

/-- If the first element is not early, none is. -/
theorem Sorted.early_eq_nil (h : Sorted due (a :: l)) {time : β} (ha : time ≤ due a) :
    early due time (a :: l) = [] := by
  rw [early, List.filter_eq_nil_iff]
  intro b hb
  have hle := h.head_le hb
  simpa using ha.trans hle

theorem early_cons {time : β} (ha : due a < time) :
    early due time (a :: l) = a :: early due time l :=
  List.filter_cons_of_pos (by simpa using ha)

/-! ## The first element -/

section
variable {r : α → α → Prop}

/-- The first element comes before all others. -/
theorem eq_or_before_of_head? (h : l.Pairwise r) (hhead : l.head? = some a) (hb : b ∈ l) :
    b = a ∨ r a b := by
  obtain ⟨l, rfl⟩ := List.head?_eq_some_iff.mp hhead
  rcases List.mem_cons.mp hb with hb | hb
  · exact .inl hb
  · exact .inr ((List.pairwise_cons.mp h).1 b hb)

/-- An element that none comes before is the first. -/
theorem head?_eq_some_of_least (h : l.Pairwise r) (ha : a ∈ l) (hleast : ∀ b ∈ l, ¬ r b a) :
    l.head? = some a := by
  cases l with
  | nil => cases ha
  | cons b l =>
      rcases List.mem_cons.mp ha with rfl | ha
      · rfl
      · exact absurd ((List.pairwise_cons.mp h).1 a ha) (hleast b List.mem_cons_self)

end

end Ordered
end MrUDP
