import OrbitOps.Py.Jsonl

/-!
# What a growing list is

A strict loader compares each record with what it remembers of the ones before (`Grows`). Here is what
each kind of comparison says of the whole list, without a loop: positions, a field that stays, a clock,
a record that ends the list, a header. Lines and records correspond one to one, so a prefix of the lines
has a prefix of the records.
-/

namespace Py

section
variable {ε E β : Type} {next next' : List E → E → Prop} {es : List E}

theorem grows_concat {e : E} : Grows next [] (es ++ [e]) ↔ Grows next [] es ∧ next es e := by
  constructor
  · intro h
    have he := h.next_of_eq_append (show es ++ [e] = es ++ e :: [] from rfl)
    rw [List.nil_append] at he
    exact ⟨h.of_append, he⟩
  · exact fun ⟨h, he⟩ => h.snoc he

theorem grows_congr (h : ∀ acc e, next acc e ↔ next' acc e) {acc : List E} : Grows next acc es ↔ Grows next' acc es := by
  induction es generalizing acc with
  | nil => exact Iff.rfl
  | cons e es ih => exact and_congr (h acc e) ih

theorem grows_and {acc : List E} :
    Grows (fun acc e => next acc e ∧ next' acc e) acc es ↔ Grows next acc es ∧ Grows next' acc es := by
  induction es generalizing acc with
  | nil => exact ⟨fun h => ⟨h, h⟩, And.left⟩
  | cons e es ih => simp only [Grows, ih, and_and_and_comm]

/-- A comparison that is made of records of a kind, where all are of that kind or none is. -/
theorem grows_imp_iff {C : E → Prop} {c : Prop} (h : ∀ e ∈ es, C e ↔ c) {acc : List E} :
    Grows (fun acc e => C e → next acc e) acc es ↔ (c → Grows next acc es) := by
  induction es generalizing acc with
  | nil => exact iff_of_true trivial fun _ => trivial
  | cons e es ih =>
    rw [Grows, Grows, ih fun e' he' => h e' (List.mem_cons_of_mem _ he'), h e (List.mem_cons_self ..)]
    exact imp_and.symm

/-- Numbered by their positions. -/
theorem grows_index_iff {index : E → Nat} :
    Grows (fun acc e => index e = acc.length) [] es ↔ es.map index = List.range es.length := by
  induction es using List.reverseRecOn with
  | nil => exact iff_of_true trivial rfl
  | append_singleton es e ih =>
    rw [grows_concat, ih, List.map_append, List.length_append, List.length_singleton, List.range_succ]
    constructor
    · rintro ⟨h, he⟩
      rw [h, List.map_singleton, he]
    · intro h
      obtain ⟨h, he⟩ := List.append_inj' h rfl
      exact ⟨h, by simpa using he⟩

/-- A field that stays as it is in the first record. -/
theorem grows_constant_iff {field : E → β} :
    Grows (fun acc e => ∀ f ∈ acc.head?, field f = field e) [] es ↔ ∀ a ∈ es, ∀ b ∈ es, field a = field b := by
  induction es using List.reverseRecOn with
  | nil => simp [Grows]
  | append_singleton es e ih =>
    rw [grows_concat, ih]
    constructor
    · rintro ⟨h, he⟩
      have hall : ∀ a ∈ es, field a = field e := by
        rcases es with - | ⟨first, rest⟩
        · simp
        · exact fun a ha => (h a ha first (List.mem_cons_self ..)).trans (he first rfl)
      have hlast : ∀ a ∈ es ++ [e], field a = field e := by
        intro a ha
        rcases List.mem_append.mp ha with ha | ha
        · exact hall a ha
        · rw [List.mem_singleton.mp ha]
      exact fun a ha b hb => (hlast a ha).trans (hlast b hb).symm
    · intro h
      refine ⟨fun a ha b hb => h a (List.mem_append_left _ ha) b (List.mem_append_left _ hb), fun f hf => ?_⟩
      exact h f (List.mem_append_left _ (List.mem_of_head? hf)) e (List.mem_append_right _ (List.mem_singleton_self e))

/-- A clock that does not go back. -/
theorem grows_clock_iff {clock : E → Nat} :
    Grows (fun acc e => ∀ f ∈ acc.getLast?, clock f ≤ clock e) [] es ↔ es.Pairwise fun a b => clock a ≤ clock b := by
  induction es using List.reverseRecOn with
  | nil => exact iff_of_true trivial .nil
  | append_singleton es e ih =>
    rw [grows_concat, ih, List.pairwise_append]
    constructor
    · rintro ⟨h, he⟩
      refine ⟨h, List.pairwise_singleton _ _, fun a ha b hb => ?_⟩
      rw [List.mem_singleton.mp hb]
      rcases List.eq_nil_or_concat es with rfl | ⟨init, last, rfl⟩
      · cases ha
      rw [List.concat_eq_append] at h ha he
      have hlast : clock last ≤ clock e := he last (by rw [List.getLast?_concat]; rfl)
      rcases List.mem_append.mp ha with ha | ha
      · exact ((List.pairwise_append.mp h).2.2 a ha last (List.mem_singleton_self last)).trans hlast
      · rw [List.mem_singleton.mp ha]
        exact hlast
    · rintro ⟨h, -, hacross⟩
      exact ⟨h, fun f hf => hacross f (List.mem_of_getLast? hf) e (List.mem_singleton_self e)⟩

/-- Nothing follows a record of a kind. -/
theorem grows_final_iff {P : E → Prop} :
    Grows (fun acc _ => ∀ f ∈ acc, ¬P f) [] es ↔ ∀ f ∈ es.dropLast, ¬P f := by
  induction es using List.reverseRecOn with
  | nil => simp [Grows]
  | append_singleton es e ih =>
    rw [grows_concat, ih, List.dropLast_concat]
    exact ⟨And.right, fun h => ⟨fun f hf => h f (List.mem_of_mem_dropLast hf), h⟩⟩

/-- The first record is of a kind and no later one. -/
theorem grows_header_iff {P : E → Prop} :
    Grows (fun acc e => acc = [] ↔ P e) [] es ↔ (∀ f ∈ es.head?, P f) ∧ ∀ f ∈ es.tail, ¬P f := by
  induction es using List.reverseRecOn with
  | nil => simp [Grows]
  | append_singleton es e ih =>
    rw [grows_concat, ih]
    rcases es with - | ⟨first, rest⟩
    · simp
    · simp [or_imp, forall_and, and_assoc]

/-! ### Lines and records -/

section
variable {decode : Nat → String → Except ε E} {R : String → E → Prop} {n : Nat} {lines : List String}

/-- The lines that are not blank. -/
def contentLines (lines : List String) : List String := lines.filter fun line => !isBlank line

/-- Where the number of a line does not matter, the lines with content correspond to the records. -/
theorem decodes_iff_forall₂ (h : ∀ n line e, decode n line = .ok e ↔ R line e) :
    Decodes decode n lines es ↔ List.Forall₂ R (contentLines lines) es := by
  induction lines generalizing n es with
  | nil => exact List.forall₂_nil_left_iff.symm
  | cons line rest ih =>
    rw [Decodes, contentLines, List.filter_cons]
    by_cases hb : isBlank line = true
    · rw [if_pos hb, if_neg (by simp [hb])]
      exact ih
    · rw [if_neg hb, if_pos (by simp [hb]), List.forall₂_cons_left_iff]
      constructor
      · rintro ⟨e, es', rfl, hd, hrest⟩
        exact ⟨e, es', (h n line e).mp hd, ih.mp hrest, rfl⟩
      · rintro ⟨e, es', hd, hrest, rfl⟩
        exact ⟨e, es', rfl, (h n line e).mpr hd, ih.mpr hrest⟩

/-- A prefix of the lines has a prefix of the records. -/
theorem forall₂_contentLines_take (h : List.Forall₂ R (contentLines lines) es) (k : Nat) :
    ∃ j, List.Forall₂ R (contentLines (lines.take k)) (es.take j) := by
  refine ⟨(contentLines (lines.take k)).length, ?_⟩
  have hsplit : contentLines lines = contentLines (lines.take k) ++ contentLines (lines.drop k) := by
    rw [contentLines, contentLines, contentLines, ← List.filter_append, List.take_append_drop]
  rw [hsplit] at h
  have htake := List.forall₂_take (contentLines (lines.take k)).length h
  rwa [List.take_left'] at htake
  rfl

end

end

end Py
