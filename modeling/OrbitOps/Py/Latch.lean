import Mathlib.Data.List.Induction

/-!
# Latches with hysteresis

A latch is set by some inputs and stays set while the later inputs keep it. After a list of inputs
it is set exactly when some input set it and every later one kept it.
-/

namespace Py

variable {β : Type} {set keep : β → Prop}

/-- Some input sets and every later input keeps. -/
def Latched (set keep : β → Prop) (xs : List β) : Prop :=
  ∃ pre x post, xs = pre ++ x :: post ∧ set x ∧ ∀ y ∈ post, keep y

theorem not_latched_nil : ¬Latched set keep [] := by
  rintro ⟨pre, x, post, h, -⟩
  simp at h

/-- One more input: it sets, or it keeps what was set. -/
theorem latched_concat {xs : List β} {x : β} :
    Latched set keep (xs ++ [x]) ↔ set x ∨ (Latched set keep xs ∧ keep x) := by
  constructor
  · rintro ⟨pre, y, post, h, hset, hkeep⟩
    rcases List.eq_nil_or_concat post with rfl | ⟨post, z, rfl⟩
    · obtain ⟨-, hx⟩ := List.append_inj' h rfl
      cases hx
      exact .inl hset
    · rw [List.concat_eq_append] at h hkeep
      rw [← List.cons_append, ← List.append_assoc] at h
      obtain ⟨rfl, hx⟩ := List.append_inj' h rfl
      cases hx
      exact .inr ⟨⟨pre, y, post, rfl, hset, fun w hw => hkeep w (List.mem_append_left _ hw)⟩, hkeep x (by simp)⟩
  · rintro (hset | ⟨⟨pre, y, post, rfl, hset, hkeep⟩, hx⟩)
    · exact ⟨xs, x, [], rfl, hset, by simp⟩
    · refine ⟨pre, y, post ++ [x], by simp, hset, fun w hw => ?_⟩
      rcases List.mem_append.mp hw with hw | hw
      · exact hkeep w hw
      · rw [List.mem_singleton.mp hw]; exact hx

theorem latched_map {γ : Type} (f : γ → β) (xs : List γ) :
    Latched set keep (xs.map f) ↔ Latched (fun x => set (f x)) (fun x => keep (f x)) xs := by
  induction xs using List.reverseRecOn with
  | nil => simp [not_latched_nil]
  | append_singleton xs x ih => rw [List.map_append, List.map_singleton, latched_concat, latched_concat, ih]

/-- A state that follows the inputs as a latch does is latched. -/
theorem latched_iff_of_step {σ : Type} (active : σ → Prop) {step : σ → β → σ} {start : σ} (h0 : ¬active start)
    (hstep : ∀ s x, active (step s x) ↔ set x ∨ (active s ∧ keep x)) (xs : List β) :
    active (xs.foldl step start) ↔ Latched set keep xs := by
  induction xs using List.reverseRecOn with
  | nil => simp [h0, not_latched_nil]
  | append_singleton xs x ih => rw [List.foldl_append, List.foldl_cons, List.foldl_nil, hstep, ih, latched_concat]

end Py
