import Mathlib.Data.List.Forall2

/-!
# Methods that change their object and raise

A Python method reads and assigns attributes of its object and may raise in between; the
assignments made before the exception stay. `Method ε σ α` is such a method: it always gives back a
state, next to its result or its exception.
-/

namespace Py

theorem except_bind_eq_ok {ε α β : Type} {x : Except ε α} {f : α → Except ε β} {b : β} :
    (x >>= f) = .ok b ↔ ∃ a, x = .ok a ∧ f a = .ok b := by
  cases x with
  | error e => simp [bind, Except.bind]
  | ok a => simp [bind, Except.bind]

theorem except_guard_eq_ok {ε α : Type} {c : Prop} [Decidable c] {e : ε} {r : Except ε α} {a : α} :
    (if c then .error e else r) = .ok a ↔ ¬c ∧ r = .ok a := by
  by_cases h : c <;> simp [h]

/-- A loop that collects results succeeds when every call does. -/
theorem except_mapM_eq_ok {ε α β : Type} {f : α → Except ε β} {xs : List α} {ys : List β} :
    xs.mapM f = .ok ys ↔ List.Forall₂ (fun x y => f x = .ok y) xs ys := by
  induction xs generalizing ys with
  | nil => cases ys <;> simp [pure, Except.pure]
  | cons x xs ih =>
    rw [List.mapM_cons]
    constructor
    · intro h
      obtain ⟨y, hy, h⟩ := except_bind_eq_ok.mp h
      obtain ⟨ys', hys, h⟩ := except_bind_eq_ok.mp h
      cases h
      exact .cons hy (ih.mp hys)
    · intro h
      cases h with
      | cons hy hys => exact except_bind_eq_ok.mpr ⟨_, hy, except_bind_eq_ok.mpr ⟨_, ih.mpr hys, rfl⟩⟩

/-- A method of an object with state `σ` that returns an `α` or raises an `ε`. -/
def Method (ε σ α : Type) : Type := σ → Except ε α × σ

namespace Method
variable {ε σ τ α β : Type}

instance : Monad (Method ε σ) where
  pure a := fun s => (.ok a, s)
  bind m f := fun s =>
    match m s with
    | (.ok a, s') => f a s'
    | (.error e, s') => (.error e, s')

/-- `raise e`. -/
def raise (e : ε) : Method ε σ α := fun s => (.error e, s)

/-- Reading the object. -/
def get : Method ε σ σ := fun s => (.ok s, s)

/-- Assigning attributes. -/
def modify (f : σ → σ) : Method ε σ Unit := fun s => (.ok (), f s)

/-- A call that does not touch the object. -/
def lift (r : Except ε α) : Method ε σ α := fun s => (r, s)

/-- A method call on an attribute. -/
def zoom (view : σ → τ) (put : τ → σ → σ) (m : Method ε τ α) : Method ε σ α := fun s =>
  let (r, t) := m (view s)
  (r, put t s)

/-- `try: m except E as e: handler(e)`, for the exceptions that `caught` selects. -/
def tryExcept (m : Method ε σ α) (caught : ε → Bool) (handler : ε → Method ε σ α) : Method ε σ α := fun s =>
  match m s with
  | (.ok a, s') => (.ok a, s')
  | (.error e, s') => if caught e then handler e s' else (.error e, s')

/-- `try: m finally: close`. -/
def tryFinally (m : Method ε σ α) (close : Method ε σ Unit) : Method ε σ α := fun s =>
  match m s with
  | (.ok a, s') => (close >>= fun _ => pure a) s'
  | (.error e, s') => (close >>= fun _ => raise e) s'

/-- `for x in xs: f(x)`. -/
def forEach (f : α → Method ε σ Unit) : List α → Method ε σ Unit
  | [] => pure ()
  | x :: xs => do f x; forEach f xs

@[simp] theorem pure_apply (a : α) (s : σ) : (pure a : Method ε σ α) s = (.ok a, s) := rfl

@[simp] theorem raise_apply (e : ε) (s : σ) : (raise e : Method ε σ α) s = (.error e, s) := rfl

@[simp] theorem get_apply (s : σ) : (get : Method ε σ σ) s = (.ok s, s) := rfl

@[simp] theorem modify_apply (f : σ → σ) (s : σ) : (modify f : Method ε σ Unit) s = (.ok (), f s) := rfl

@[simp] theorem lift_apply (r : Except ε α) (s : σ) : (lift r : Method ε σ α) s = (r, s) := rfl

theorem lift_eq {r r' : Except ε α} (h : r = r') (s : σ) : (lift r : Method ε σ α) s = (r', s) := by rw [h]; rfl

/-- A call that changes nothing, and a value computed from its result. -/
theorem lift_map (r : Except ε α) (f : α → β) (s : σ) :
    (do let a ← lift r; return f a : Method ε σ β) s = (r.map f, s) := by
  cases r <;> rfl

theorem bind_apply (m : Method ε σ α) (f : α → Method ε σ β) (s : σ) :
    (m >>= f) s = match m s with
      | (.ok a, s') => f a s'
      | (.error e, s') => (.error e, s') := rfl

theorem bind_ok {m : Method ε σ α} {f : α → Method ε σ β} {s s' : σ} {a : α} (h : m s = (.ok a, s')) :
    (m >>= f) s = f a s' := by
  rw [bind_apply, h]

theorem bind_error {m : Method ε σ α} {f : α → Method ε σ β} {s s' : σ} {e : ε} (h : m s = (.error e, s')) :
    (m >>= f) s = (.error e, s') := by
  rw [bind_apply, h]

theorem bind_assoc_method {γ : Type} (m : Method ε σ α) (f : α → Method ε σ β) (g : β → Method ε σ γ) :
    m >>= f >>= g = m >>= fun a => f a >>= g := by
  funext s
  rcases hm : m s with ⟨e | a, s'⟩
  · rw [bind_error hm, bind_error (bind_error hm)]
  · rw [bind_ok hm, bind_apply, bind_ok hm]; rfl

theorem id_map_method (m : Method ε σ α) : id <$> m = m := by
  funext s
  show (m >>= fun a => pure (id a)) s = m s
  rcases hm : m s with ⟨e | a, s'⟩
  · rw [bind_error hm]
  · rw [bind_ok hm]; rfl

instance : LawfulMonad (Method ε σ) := LawfulMonad.mk' _ id_map_method (fun _ _ => rfl) bind_assoc_method

/-- A call that did not raise has a result. -/
theorem exists_of_toBool {m : Method ε σ α} {s : σ} (h : (m s).1.toBool = true) : ∃ a s', m s = (.ok a, s') := by
  rcases hm : m s with ⟨e | a, s'⟩
  · rw [hm] at h; cases h
  · exact ⟨a, s', rfl⟩

theorem zoom_eq {view : σ → τ} {put : τ → σ → σ} {m : Method ε τ α} {s : σ} {r : Except ε α} {t : τ}
    (h : m (view s) = (r, t)) : zoom view put m s = (r, put t s) := by
  rw [zoom, h]

theorem tryExcept_ok {m : Method ε σ α} {caught : ε → Bool} {handler : ε → Method ε σ α} {s s' : σ} {a : α}
    (h : m s = (.ok a, s')) : tryExcept m caught handler s = (.ok a, s') := by
  rw [tryExcept, h]

theorem tryExcept_error {m : Method ε σ α} {caught : ε → Bool} {handler : ε → Method ε σ α} {s s' : σ} {e : ε}
    (h : m s = (.error e, s')) (hc : caught e = true) : tryExcept m caught handler s = handler e s' := by
  rw [tryExcept, h]
  exact if_pos hc

theorem tryFinally_ok {m : Method ε σ α} {close : Method ε σ Unit} {s s' : σ} {a : α} (h : m s = (.ok a, s')) :
    tryFinally m close s = (close >>= fun _ => pure a) s' := by
  rw [tryFinally, h]

@[simp] theorem forEach_nil (f : α → Method ε σ Unit) (s : σ) : forEach f [] s = (.ok (), s) := rfl

theorem forEach_cons (f : α → Method ε σ Unit) (x : α) (xs : List α) :
    forEach f (x :: xs) = f x >>= fun _ => forEach f xs := rfl

theorem forEach_empty (f : α → Method ε σ Unit) : forEach f [] = pure () := rfl

@[simp] theorem forEach_singleton (f : α → Method ε σ Unit) (x : α) : forEach f [x] = f x := bind_pure (f x)

theorem forEach_append (f : α → Method ε σ Unit) (xs ys : List α) :
    forEach f (xs ++ ys) = forEach f xs >>= fun _ => forEach f ys := by
  induction xs with
  | nil => rfl
  | cons x xs ih => rw [List.cons_append, forEach_cons, forEach_cons, bind_assoc, ih]

theorem forEach_map {γ : Type} (f : α → Method ε σ Unit) (g : γ → α) (xs : List γ) :
    forEach f (xs.map g) = forEach (fun x => f (g x)) xs := by
  induction xs with
  | nil => rfl
  | cons x xs ih => rw [List.map_cons, forEach_cons, ih]; rfl

/-! ### What a method guarantees -/

/-- From state `s` the method either returns with `Q` or raises with `E`. -/
def wp (m : Method ε σ α) (Q : α → σ → Prop) (E : ε → σ → Prop) (s : σ) : Prop :=
  match m s with
  | (.ok a, s') => Q a s'
  | (.error e, s') => E e s'

section wp
variable {Q Q' : α → σ → Prop} {R : β → σ → Prop} {E E' : ε → σ → Prop} {s s' : σ}

theorem wp_of_ok {m : Method ε σ α} {a : α} (h : m s = (.ok a, s')) (hq : Q a s') : wp m Q E s := by
  rw [wp, h]; exact hq

theorem wp_of_error {m : Method ε σ α} {e : ε} (h : m s = (.error e, s')) (he : E e s') : wp m Q E s := by
  rw [wp, h]; exact he

theorem wp_bind {m : Method ε σ α} {f : α → Method ε σ β} (h : wp m (fun a s' => wp (f a) R E s') E s) :
    wp (m >>= f) R E s := by
  unfold wp at h ⊢
  rcases hm : m s with ⟨e | a, s'⟩
  · rw [bind_error hm]; rw [hm] at h; exact h
  · rw [bind_ok hm]; rw [hm] at h; exact h

theorem wp_mono {m : Method ε σ α} (h : wp m Q E s) (hq : ∀ a s', Q a s' → Q' a s')
    (he : ∀ e s', E e s' → E' e s') : wp m Q' E' s := by
  unfold wp at h ⊢
  rcases hm : m s with ⟨e | a, s'⟩
  · rw [hm] at h; exact he e s' h
  · rw [hm] at h; exact hq a s' h

/-- A loop with an invariant about the items still to come. -/
theorem wp_forEach {f : α → Method ε σ Unit} {I : List α → σ → Prop} {xs : List α}
    (hstep : ∀ x xs s, I (x :: xs) s → wp (f x) (fun _ s' => I xs s') E s) (h : I xs s) :
    wp (forEach f xs) (fun _ s' => I [] s') E s := by
  induction xs generalizing s with
  | nil => exact wp_of_ok (forEach_nil f s) h
  | cons x xs ih =>
    rw [forEach_cons]
    exact wp_bind (wp_mono (hstep x xs s h) (fun _ _ hs' => ih hs') fun _ _ he => he)

/-- What a guarantee says about one execution. -/
theorem wp.of_ok {m : Method ε σ α} {a : α} (h : wp m Q E s) (hm : m s = (.ok a, s')) : Q a s' := by
  rw [wp, hm] at h; exact h

theorem wp.of_error {m : Method ε σ α} {e : ε} (h : wp m Q E s) (hm : m s = (.error e, s')) : E e s' := by
  rw [wp, hm] at h; exact h

end wp

end Method

end Py
