import OrbitOps.Py.Printable

/-!
# Text made of lines

Lines joined with newlines, and when the text shows exactly these lines: no line may hold a newline
or another control character of its own.
-/

namespace Py

/-- `"\n".join(lines) + "\n"`. -/
def unlines (lines : List String) : String := join "\n" lines ++ "\n"

/-- Printable ASCII characters and newlines. -/
def PlainText (s : String) : Prop := ∀ c ∈ s.toList, isPrintable c = true ∨ c = '\n'

/-- `s.count("\n")`. -/
def newlines (s : String) : Nat := s.toList.count '\n'

theorem toList_unlines {lines : List String} (h : lines ≠ []) :
    (unlines lines).toList = lines.flatMap fun l => l.toList ++ ['\n'] := by
  induction lines with
  | nil => exact absurd rfl h
  | cons l lines ih =>
    cases lines with
    | nil => simp [unlines, join]
    | cons m rest =>
      have hrest := ih (List.cons_ne_nil m rest)
      have hsplit : unlines (l :: m :: rest) = l ++ "\n" ++ unlines (m :: rest) := by
        simp only [unlines, join, String.append_assoc]
      rw [hsplit, String.toList_append, hrest, String.toList_append, List.flatMap_cons]
      rfl

theorem newlines_unlines {lines : List String} (h : lines ≠ []) :
    newlines (unlines lines) = lines.length + (lines.map newlines).sum := by
  rw [newlines, toList_unlines h]
  clear h
  induction lines with
  | nil => rfl
  | cons l lines ih =>
    rw [List.flatMap_cons, List.count_append, List.count_append, ih, List.map_cons, List.sum_cons, List.length_cons,
      newlines, List.count_singleton_self]
    omega

theorem newlines_eq_zero {s : String} : newlines s = 0 ↔ '\n' ∉ s.toList := List.count_eq_zero

/-- The text is plain and shows as many lines as it was made of when every line is printable. -/
theorem plainText_unlines_iff {lines : List String} (h : lines ≠ []) :
    PlainText (unlines lines) ∧ newlines (unlines lines) = lines.length ↔ ∀ l ∈ lines, Printable l := by
  rw [newlines_unlines h]
  constructor
  · rintro ⟨hplain, hcount⟩ l hl c hc
    have hnone : newlines l = 0 := by
      have hle := List.single_le_sum (fun n _ => Nat.zero_le n) _ (List.mem_map_of_mem (f := newlines) hl)
      omega
    have hmem : c ∈ (unlines lines).toList := by
      rw [toList_unlines h]
      exact List.mem_flatMap.mpr ⟨l, hl, List.mem_append_left _ hc⟩
    rcases hplain c hmem with hc' | rfl
    · exact hc'
    · exact absurd hc (newlines_eq_zero.mp hnone)
  · intro hlines
    constructor
    · intro c hc
      rw [toList_unlines h] at hc
      obtain ⟨l, hl, hc⟩ := List.mem_flatMap.mp hc
      rcases List.mem_append.mp hc with hc | hc
      · exact .inl (hlines l hl c hc)
      · exact .inr (List.mem_singleton.mp hc)
    · have hzero : (lines.map newlines).sum = 0 := by
        refine List.sum_eq_zero fun n hn => ?_
        obtain ⟨l, hl, rfl⟩ := List.mem_map.mp hn
        exact newlines_eq_zero.mpr ((hlines l hl).not_mem (by decide))
      omega

/-- A joined text is printable when its parts are. -/
theorem printable_join_iff {sep : String} (hsep : Printable sep) {xs : List String} :
    Printable (join sep xs) ↔ ∀ s ∈ xs, Printable s := by
  refine ⟨fun h => ?_, printable_join hsep⟩
  induction xs with
  | nil => exact fun s hs => by cases hs
  | cons s xs ih =>
    cases xs with
    | nil => exact fun t ht => (List.mem_singleton.mp ht) ▸ h
    | cons t rest =>
      rw [join, printable_append, printable_append] at h
      intro u hu
      rcases List.mem_cons.mp hu with rfl | hu
      · exact h.1.1
      · exact ih h.2 u hu

end Py
