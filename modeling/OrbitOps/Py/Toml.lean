import OrbitOps.Py.Json

/-!
# Parsed TOML documents

What `tomllib.loads` gives back: a mapping from keys to values, with integers of any size and floats
that may be infinite or `nan`. Dates and times are only told apart by their text.
-/

namespace Py

/-- A value of a parsed document. -/
inductive Toml where
  | str (s : String)
  | int (n : Int)
  | float (x : Float64)
  | bool (b : Bool)
  | datetime (text : String)
  | arr (items : List Toml)
  | table (items : List (String × Toml))

namespace Toml

/-- A parsed document or a table in it. -/
abbrev Table : Type := List (String × Toml)

/-- `table.get(key, default)`. -/
def Table.getD (table : Table) (key : String) (default : Toml) : Toml := (lookupKey table key).getD default

/-- The double that `float(value)` gives for an integer or a float. -/
def real? : Toml → Option Float64
  | .int n => Float64.ofInt? n
  | .float x => some x
  | _ => none

/-- An integer that no double is near: `float(value)` raises `OverflowError`. -/
def TooLarge : Toml → Prop
  | .int n => Float64.ofInt? n = none
  | _ => False

/-- Of the values that are converted in turn, the first that has no double is an integer too large. -/
def Overflows : List Toml → Prop
  | [] => False
  | v :: rest => v.TooLarge ∨ v.real?.isSome ∧ Overflows rest

theorem not_overflows_cons {v : Toml} {rest : List Toml} :
    ¬Overflows (v :: rest) ↔ ¬v.TooLarge ∧ ∀ x, v.real? = some x → ¬Overflows rest := by
  rw [Overflows, not_or, not_and, Option.isSome_iff_exists]
  refine and_congr_right fun _ => ⟨fun h x hx => h ⟨x, hx⟩, ?_⟩
  rintro h ⟨x, hx⟩
  exact h x hx

end Toml

end Py
