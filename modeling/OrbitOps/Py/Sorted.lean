import Mathlib.Data.List.Dedup
import Mathlib.Data.List.Lex
import Mathlib.Data.List.Sort
import Mathlib.Data.Prod.Lex

/-!
# Sorting

`sorted(xs, key=...)` is the stable sort by a key, and a list that is equal to its sorted copy is a
list in order.
-/

namespace Py

section
variable {α κ : Type} [LinearOrder κ] (key : α → κ)

/-- `sorted(xs, key=key)`. -/
def sortedBy (xs : List α) : List α := xs.insertionSort fun a b => key a ≤ key b

/-- In the order of the keys. -/
def InOrder (xs : List α) : Prop := xs.Pairwise fun a b => key a ≤ key b

instance instTotalKey : Std.Total fun a b : α => key a ≤ key b := ⟨fun a b => le_total (key a) (key b)⟩

instance instIsTransKey : IsTrans α fun a b => key a ≤ key b := ⟨fun _ _ _ => le_trans⟩

theorem sortedBy_perm (xs : List α) : (sortedBy key xs).Perm xs := List.perm_insertionSort _ xs

theorem inOrder_sortedBy (xs : List α) : InOrder key (sortedBy key xs) := List.pairwise_insertionSort _ xs

variable {key}

theorem InOrder.sortedBy_eq {xs : List α} (h : InOrder key xs) : sortedBy key xs = xs :=
  List.Pairwise.insertionSort_eq h

theorem sortedBy_eq_self {xs : List α} : sortedBy key xs = xs ↔ InOrder key xs :=
  ⟨fun h => h ▸ inOrder_sortedBy key xs, InOrder.sortedBy_eq⟩

/-- Elements that their keys tell apart are in order in one way only. -/
theorem InOrder.eq_of_perm {xs ys : List α} (hkey : ∀ a ∈ xs, ∀ b ∈ xs, key a = key b → a = b) (hx : InOrder key xs)
    (hy : InOrder key ys) (h : xs.Perm ys) : xs = ys :=
  h.eq_of_pairwise (fun a b ha hb hab hba => hkey a ha b (h.mem_iff.mpr hb) (le_antisymm hab hba)) hx hy

theorem sortedBy_eq_of_perm {xs ys : List α} (hkey : ∀ a ∈ xs, ∀ b ∈ xs, key a = key b → a = b) (h : xs.Perm ys) :
    sortedBy key xs = sortedBy key ys := by
  have hperm := (sortedBy_perm key xs).trans (h.trans (sortedBy_perm key ys).symm)
  refine InOrder.eq_of_perm (fun a ha b hb => ?_) (inOrder_sortedBy key xs) (inOrder_sortedBy key ys) hperm
  exact hkey a ((sortedBy_perm key xs).mem_iff.mp ha) b ((sortedBy_perm key xs).mem_iff.mp hb)

end

section
variable {α : Type} [LinearOrder α]

theorem sortedBy_id_eq_self {xs : List α} : sortedBy id xs = xs ↔ xs.Pairwise (· ≤ ·) := sortedBy_eq_self

/-- `sorted(set(xs))`. -/
def sortedSet (xs : List α) : List α := sortedBy id xs.dedup

theorem pairwise_lt_sortedSet (xs : List α) : (sortedSet xs).Pairwise (· < ·) := by
  have hnodup : (sortedSet xs).Nodup := (sortedBy_perm id xs.dedup).nodup_iff.mpr xs.nodup_dedup
  exact (inOrder_sortedBy id xs.dedup).imp₂ (fun a b hle hne => lt_of_le_of_ne hle hne) hnodup

theorem sortedSet_eq_self {xs : List α} : sortedSet xs = xs ↔ xs.Pairwise (· < ·) := by
  constructor
  · intro h
    rw [← h]
    exact pairwise_lt_sortedSet xs
  · intro h
    rw [sortedSet, List.dedup_eq_self.mpr (h.imp ne_of_lt), sortedBy_eq_self]
    exact h.imp le_of_lt

end

end Py
