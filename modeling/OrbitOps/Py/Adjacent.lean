import Mathlib.Algebra.BigOperators.Group.List.Lemmas
import Mathlib.Algebra.Ring.Nat
import Mathlib.Data.List.Dedup

/-!
# Consecutive elements

`adjacent` is `itertools.pairwise`. In a list without repetitions every element is preceded by one
other; and a list has at most as many equal neighbours as it has repetitions.
-/

namespace Py

section
variable {α β : Type}

/-- `itertools.pairwise(xs)`. -/
def adjacent (xs : List α) : List (α × α) := xs.zip xs.tail

@[simp] theorem adjacent_nil : adjacent ([] : List α) = [] := rfl

@[simp] theorem adjacent_singleton (a : α) : adjacent [a] = [] := rfl

@[simp] theorem adjacent_cons_cons (a b : α) (xs : List α) :
    adjacent (a :: b :: xs) = (a, b) :: adjacent (b :: xs) := rfl

theorem adjacent_map (f : α → β) (xs : List α) : adjacent (xs.map f) = (adjacent xs).map (Prod.map f f) := by
  rw [adjacent, adjacent, ← List.map_tail, List.zip_map]

/-- One more element is preceded by the last one. -/
theorem adjacent_concat (xs : List α) (x : α) :
    adjacent (xs ++ [x]) = adjacent xs ++ xs.getLast?.toList.map fun y => (y, x) := by
  induction xs with
  | nil => rfl
  | cons a xs ih =>
    cases xs with
    | nil => rfl
    | cons b xs =>
      rw [List.cons_append, List.cons_append, adjacent_cons_cons, adjacent_cons_cons, ← List.cons_append, ih,
        List.getLast?_cons_cons, List.cons_append]

theorem mem_adjacent {xs : List α} {a b : α} : (a, b) ∈ adjacent xs ↔ ∃ pre post, xs = pre ++ a :: b :: post := by
  induction xs with
  | nil => simp
  | cons x xs ih =>
    constructor
    · intro h
      cases xs with
      | nil => cases h
      | cons y xs =>
        rw [adjacent_cons_cons] at h
        rcases List.mem_cons.mp h with heq | h
        · cases heq
          exact ⟨[], xs, rfl⟩
        · obtain ⟨pre, post, heq⟩ := ih.mp h
          exact ⟨x :: pre, post, by rw [heq, List.cons_append]⟩
    · rintro ⟨pre, post, heq⟩
      cases pre with
      | nil =>
        cases heq
        exact List.mem_cons_self ..
      | cons y pre =>
        obtain ⟨rfl, rfl⟩ := List.cons.inj heq
        have hmem := ih.mpr ⟨pre, post, rfl⟩
        cases pre <;> exact List.mem_cons_of_mem _ hmem

theorem rel_of_mem_adjacent {R : α → α → Prop} {xs : List α} (h : xs.Pairwise R) {a b : α} (hab : (a, b) ∈ adjacent xs) :
    R a b := by
  obtain ⟨pre, post, rfl⟩ := mem_adjacent.mp hab
  exact List.rel_of_pairwise_cons (List.pairwise_append.mp h).2.1 (List.mem_cons_self ..)

/-- Without repetitions an element is preceded by the last of the elements before it. -/
theorem mem_adjacent_of_nodup {pre post : List α} {a b : α} (h : (pre ++ b :: post).Nodup) :
    (a, b) ∈ adjacent (pre ++ b :: post) ↔ pre.getLast? = some a := by
  rw [mem_adjacent]
  constructor
  · rintro ⟨pre', post', heq⟩
    have hsplit : pre ++ b :: post = (pre' ++ [a]) ++ b :: post' := by rw [heq, List.append_assoc]; rfl
    have hlast := List.append_inj_left hsplit ?_
    · rw [hlast, List.getLast?_concat]
    · -- the position of `b` is the same on both sides
      have hb : b ∉ pre := (List.nodup_middle.mp h).notMem ∘ List.mem_append_left _
      have hb' : b ∉ pre' ++ [a] := by
        rw [hsplit] at h
        exact (List.nodup_middle.mp h).notMem ∘ List.mem_append_left _
      classical
      have hidx := congrArg (List.idxOf b) hsplit
      rwa [List.idxOf_append_of_notMem hb, List.idxOf_append_of_notMem hb', List.idxOf_cons_self, List.idxOf_cons_self,
        Nat.add_zero, Nat.add_zero] at hidx
  · intro hlast
    obtain ⟨init, rfl⟩ := List.getLast?_eq_some_iff.mp hlast
    exact ⟨init, post, by rw [List.append_assoc]; rfl⟩

end

/-! ### Repetitions -/

section
variable {α : Type} [DecidableEq α]

/-- How many elements equal the one before. -/
def repeats (xs : List α) : Nat := (adjacent xs).countP fun pair => pair.1 = pair.2

theorem repeats_add_dedup_le (xs : List α) : repeats xs + xs.dedup.length ≤ xs.length := by
  induction xs with
  | nil => rfl
  | cons x xs ih =>
    cases xs with
    | nil => simp [repeats]
    | cons y xs =>
      have hstep : repeats (x :: y :: xs) = repeats (y :: xs) + if x = y then 1 else 0 := by
        rw [repeats, adjacent_cons_cons, List.countP_cons, ← repeats]
        by_cases h : x = y <;> simp [h]
      rw [hstep, List.length_cons]
      by_cases hmem : x ∈ y :: xs
      · rw [List.dedup_cons_of_mem hmem]
        split_ifs <;> omega
      · have hne : x ≠ y := fun h => hmem (h ▸ List.mem_cons_self ..)
        rw [List.dedup_cons_of_notMem hmem, List.length_cons, if_neg hne]
        omega

/-- The repetitions of every element, and every element once, are the whole list. -/
theorem sum_repetitions_add_dedup (xs : List α) :
    (xs.dedup.map fun x => xs.count x - 1).sum + xs.dedup.length = xs.length := by
  have hsum (ys : List α) (h : ∀ y ∈ ys, y ∈ xs) :
      (ys.map fun x => xs.count x - 1).sum + ys.length = (ys.map fun x => xs.count x).sum := by
    induction ys with
    | nil => rfl
    | cons y ys ih =>
      have hpos : 0 < xs.count y := List.count_pos_iff.mpr (h y (List.mem_cons_self ..))
      have := ih fun z hz => h z (List.mem_cons_of_mem _ hz)
      rw [List.map_cons, List.map_cons, List.sum_cons, List.sum_cons, List.length_cons]
      omega
  rw [hsum xs.dedup fun y hy => List.mem_dedup.mp hy, List.sum_map_count_dedup_eq_length]

end

end Py
