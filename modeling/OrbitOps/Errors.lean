import OrbitOps.Py.Method
import OrbitOps.Py.Struct

/-!
# Exceptions

The exception classes that the ground station raises or catches, with the text of the exception.
-/

namespace OrbitOps
open Py

inductive ErrorClass where
  | typeError
  | valueError
  | indexError
  | keyError
  | overflowError
  | zeroDivisionError
  | runtimeError
  | assertionError
  | osError
  | protocolError
  | malformedEvidenceError
  | missionProfileParseError
  | missionProfileValidationError
  | alarmPolicyParseError
  | alarmPolicyValidationError
deriving DecidableEq, Repr

structure PyError where
  cls : ErrorClass
  message : String
deriving DecidableEq, Repr

/-- `isinstance(exc, ValueError)`: the ground station's own errors derive from it. -/
def PyError.isValueError (e : PyError) : Bool :=
  match e.cls with
  | .valueError | .protocolError | .malformedEvidenceError | .missionProfileParseError
  | .missionProfileValidationError | .alarmPolicyParseError | .alarmPolicyValidationError => true
  | _ => false

/-- Caught by `except (TypeError, ValueError)`. -/
def PyError.isTypeOrValueError (e : PyError) : Bool := e.cls = .typeError || e.isValueError

def typeError (message : String) : PyError := ⟨.typeError, message⟩
def valueError (message : String) : PyError := ⟨.valueError, message⟩
def indexError (message : String) : PyError := ⟨.indexError, message⟩
def keyError (key : String) : PyError := ⟨.keyError, key⟩
def overflowError (message : String) : PyError := ⟨.overflowError, message⟩
def zeroDivisionError (message : String) : PyError := ⟨.zeroDivisionError, message⟩
def runtimeError (message : String) : PyError := ⟨.runtimeError, message⟩
def assertionError (message : String) : PyError := ⟨.assertionError, message⟩
def protocolError (message : String) : PyError := ⟨.protocolError, message⟩

/-- The result of a call that may raise. -/
abbrev Result := Except PyError

/-- `try: ... except (TypeError, ValueError) as exc: raise handler(exc) from exc`. -/
def reraise {α : Type} (handler : PyError → PyError) : Result α → Result α
  | .ok a => .ok a
  | .error e => .error (if e.isTypeOrValueError then handler e else e)

@[simp] theorem reraise_ok {α : Type} (handler : PyError → PyError) (a : α) :
    reraise handler (.ok a) = .ok a := rfl

theorem reraise_eq_ok {α : Type} {handler : PyError → PyError} {r : Result α} {a : α} :
    reraise handler r = .ok a ↔ r = .ok a := by
  cases r <;> simp [reraise]

/-! ### Errors that `except (TypeError, ValueError)` catches -/

/-- The call raises nothing but a `TypeError` or a `ValueError`. -/
def Catchable {α : Type} (r : Result α) : Prop := ∀ e, r = .error e → e.isTypeOrValueError = true

section
variable {α β : Type}

@[simp] theorem catchable_ok (a : α) : Catchable (.ok a : Result α) := fun _ h => by cases h

@[simp] theorem catchable_pure (a : α) : Catchable (pure a : Result α) := catchable_ok a

@[simp] theorem catchable_valueError (message : String) : Catchable (.error (valueError message) : Result α) :=
  fun _ h => by cases h; rfl

@[simp] theorem catchable_typeError (message : String) : Catchable (.error (typeError message) : Result α) :=
  fun _ h => by cases h; rfl

theorem Catchable.bind {r : Result α} {f : α → Result β} (hr : Catchable r) (hf : ∀ a, Catchable (f a)) :
    Catchable (r >>= f) := by
  cases r with
  | error e => intro e' h; cases h; exact hr e rfl
  | ok a => exact hf a

/-- A sequence raises only what is caught when its first call does and its second after a result of the first. -/
theorem catchable_bind_iff {r : Result α} {f : α → Result β} :
    Catchable (r >>= f) ↔ Catchable r ∧ ∀ a, r = .ok a → Catchable (f a) := by
  cases r with
  | error e =>
    constructor
    · intro h
      exact ⟨fun e' he => h e' (by cases he; rfl), (nomatch ·, ·)⟩
    · rintro ⟨h, -⟩ e' he
      cases he
      exact h e rfl
  | ok a =>
    constructor
    · intro h
      refine ⟨catchable_ok a, fun a' ha => ?_⟩
      cases ha
      exact h
    · exact fun h => h.2 a rfl

theorem Catchable.map {r : Result α} (hr : Catchable r) (f : α → β) : Catchable (r.map f) := by
  cases r with
  | error e => intro e' h; cases h; exact hr e rfl
  | ok a => exact catchable_ok _

theorem Catchable.mapM {f : α → Result β} (hf : ∀ a, Catchable (f a)) (xs : List α) : Catchable (xs.mapM f) := by
  induction xs with
  | nil => exact catchable_ok _
  | cons x xs ih =>
    rw [List.mapM_cons]
    exact (hf x).bind fun y => ih.bind fun ys => catchable_ok _

theorem catchable_guard {c : Prop} [Decidable c] {e : PyError} {r : Result α} (he : e.isTypeOrValueError = true)
    (hr : Catchable r) : Catchable (if c then .error e else r) := by
  by_cases hc : c
  · rw [if_pos hc]
    intro e' h
    cases h
    exact he
  · rw [if_neg hc]
    exact hr

/-- Only an exception that the handler did not take comes out of a handled call. -/
theorem catchable_reraise_iff {handler : PyError → PyError} {r : Result α}
    (hh : ∀ e, (handler e).isTypeOrValueError = true) : Catchable (OrbitOps.reraise handler r) ↔ Catchable r := by
  constructor
  · intro h e he
    by_contra hne
    exact hne (h e (by rw [he, OrbitOps.reraise, if_neg hne]))
  · intro h
    cases r with
    | error e =>
      intro e' he
      rw [OrbitOps.reraise, if_pos (h e rfl)] at he
      cases he
      exact hh e
    | ok a => exact catchable_ok _

/-- What the handler makes of a caught exception is caught. -/
theorem Catchable.reraise {handler : PyError → PyError} {r : Result α} (hr : Catchable r)
    (hh : ∀ e, (handler e).isTypeOrValueError = true) : Catchable (reraise handler r) :=
  (catchable_reraise_iff hh).mpr hr

end

end OrbitOps
