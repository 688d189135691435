import OrbitOps.Py.Method

/-!
# What methods preserve

A method preserves a property of its object when the property outlives every call, also one that
raises in the middle. That is a matter of the single steps: of the attributes that are assigned and
of the methods that are called.
-/

namespace Py.Method
variable {ε σ τ α β : Type} {I : σ → Prop}

/-- A property that outlives the call, however it ends. -/
def Preserves (I : σ → Prop) (m : Method ε σ α) : Prop := ∀ s, I s → I (m s).2

theorem preserves_pure (a : α) : Preserves I (pure a : Method ε σ α) := fun _ h => h

theorem preserves_raise (e : ε) : Preserves I (raise e : Method ε σ α) := fun _ h => h

theorem preserves_get : Preserves I (get : Method ε σ σ) := fun _ h => h

theorem preserves_lift (r : Except ε α) : Preserves I (lift r : Method ε σ α) := fun _ h => h

theorem preserves_modify {f : σ → σ} (h : ∀ s, I s → I (f s)) : Preserves I (modify f : Method ε σ Unit) := h

/-- A call on an attribute that the property does not speak of. -/
theorem preserves_zoom {view : σ → τ} {put : τ → σ → σ} (h : ∀ s t, I s → I (put t s)) (m : Method ε τ α) :
    Preserves I (zoom view put m) := fun s hs => h s _ hs

theorem Preserves.bind {m : Method ε σ α} {f : α → Method ε σ β} (hm : Preserves I m) (hf : ∀ a, Preserves I (f a)) :
    Preserves I (m >>= f) := by
  intro s hs
  have hstep := hm s hs
  rcases h : m s with ⟨e | a, s'⟩
  · rw [h] at hstep
    rwa [bind_error h]
  · rw [h] at hstep
    rw [bind_ok h]
    exact hf a s' hstep

theorem preserves_forEach {f : α → Method ε σ Unit} (h : ∀ x, Preserves I (f x)) (xs : List α) :
    Preserves I (forEach f xs) := by
  induction xs with
  | nil => exact preserves_pure ()
  | cons x xs ih =>
    rw [forEach_cons]
    exact (h x).bind fun _ => ih

/-- The result of one call. -/
theorem Preserves.apply {m : Method ε σ α} (h : Preserves I m) {s s' : σ} {r : Except ε α} (hm : m s = (r, s'))
    (hs : I s) : I s' := by
  have := h s hs
  rwa [hm] at this

end Py.Method
