import OrbitOps.Errors
import OrbitOps.Py.Toml

/-!
# Reading fields of TOML tables

The mission-profile and the alarm-policy parser check key sets and read typed fields in the same
way; they differ in the error class and in what they call a field. Every reader says what it returns
and whether it can raise something that the parsers do not catch. Only `float` can: it raises
`OverflowError` for an integer that is too large.
-/

namespace OrbitOps
open Py Toml

def formatKeys (keys : List String) : String := join ", " keys

/-- The check for keys that are not allowed. -/
def rejectUnknown (invalid : String → PyError) (what : String) (allowed : List String) (table : Table) : Result Unit :=
  match extraKeys allowed table with
  | [] => .ok ()
  | unknown => .error (invalid ("unknown " ++ what ++ "key(s): " ++ formatKeys unknown))

/-- The check for missing keys. -/
def rejectMissing (invalid : String → PyError) (what : String) (required : List String) (table : Table) : Result Unit :=
  match missingKeys required table with
  | [] => .ok ()
  | missing => .error (invalid ("missing required " ++ what ++ "key(s): " ++ formatKeys missing))

def getItem (table : Table) (key : String) : Result Toml :=
  match lookupKey table key with
  | some value => .ok value
  | none => .error (keyError key)

/-- The check that a value is a table. -/
def asTable (invalid : String → PyError) (key : String) : Toml → Result Table
  | .table items => .ok items
  | _ => .error (invalid (key ++ " must be a TOML table"))

def requireString (table : Table) (key : String) : Result String := do
  match ← getItem table key with
  | .str s => .ok s
  | _ => .error (typeError (key ++ " must be a string"))

def readOptionalString (table : Table) (key : String) : Result (Option String) :=
  match lookupKey table key with
  | none => .ok none
  | some (.str s) => .ok (some s)
  | some _ => .error (typeError (key ++ " must be a string"))

/-- The check of an integer that is called `what`. -/
def asInt (what : String) : Toml → Result Int
  | .int n => .ok n
  | _ => .error (typeError (what ++ " must be an integer"))

/-- The check and conversion of a real number that is called `what`. -/
def asReal (what : String) : Toml → Result Float64
  | .int n =>
    match Float64.ofInt? n with
    | some x => .ok x
    | none => .error (overflowError "int too large to convert to float")
  | .float x => .ok x
  | _ => .error (typeError (what ++ " must be a real number"))

/-- The check of a boolean that is called `what`. -/
def asBool (what : String) : Toml → Result Bool
  | .bool b => .ok b
  | _ => .error (typeError (what ++ " must be a boolean"))

section
variable {invalid : String → PyError} {what key : String} {allowed required : List String} {table : Table}

theorem sortedStrs_eq_nil {keys : List String} : sortedStrs keys = [] ↔ keys = [] := by
  constructor
  · intro h
    have hperm : (sortedStrs keys).Perm keys.dedup := List.perm_insertionSort _ keys.dedup
    rw [h] at hperm
    exact (List.dedup_eq_nil keys).mp hperm.symm.eq_nil
  · rintro rfl
    rfl

theorem rejectUnknown_eq_ok : rejectUnknown invalid what allowed table = .ok () ↔ ∀ kv ∈ table, kv.1 ∈ allowed := by
  have hnil : extraKeys allowed table = [] ↔ ∀ kv ∈ table, kv.1 ∈ allowed := by
    rw [extraKeys, sortedStrs_eq_nil, List.filter_eq_nil_iff, List.forall_mem_map]
    simp
  rw [← hnil, rejectUnknown]
  cases extraKeys allowed table <;> simp

theorem any_key_iff {α : Type} {items : List (String × α)} :
    (items.any fun kv => kv.1 == key) = true ↔ ∃ v, lookupKey items key = some v := by
  rw [← Option.isSome_iff_exists, lookupKey, Option.isSome_map, List.find?_isSome, List.any_eq_true]

theorem rejectMissing_eq_ok :
    rejectMissing invalid what required table = .ok () ↔ ∀ k ∈ required, ∃ v, lookupKey table k = some v := by
  have hnil : missingKeys required table = [] ↔ ∀ k ∈ required, ∃ v, lookupKey table k = some v := by
    rw [missingKeys, sortedStrs_eq_nil, List.filter_eq_nil_iff]
    simp only [Bool.not_eq_true', Bool.not_eq_false, any_key_iff]
  rw [← hnil, rejectMissing]
  cases missingKeys required table <;> simp

theorem getItem_eq_ok {v : Toml} : getItem table key = .ok v ↔ lookupKey table key = some v := by
  unfold getItem
  cases lookupKey table key <;> simp

theorem asTable_eq_ok {v : Toml} {items : Table} : asTable invalid key v = .ok items ↔ v = .table items := by
  cases v <;> simp [asTable]

theorem requireString_eq_ok {s : String} : requireString table key = .ok s ↔ lookupKey table key = some (.str s) := by
  unfold requireString
  rw [except_bind_eq_ok]
  constructor
  · rintro ⟨v, hv, h⟩
    cases v <;> cases h
    exact getItem_eq_ok.mp hv
  · exact fun h => ⟨_, getItem_eq_ok.mpr h, rfl⟩

theorem readOptionalString_eq_ok {s : Option String} :
    readOptionalString table key = .ok s ↔ lookupKey table key = s.map .str := by
  unfold readOptionalString
  rcases lookupKey table key with _ | v
  · cases s <;> simp
  · cases v <;> cases s <;> simp

theorem asInt_eq_ok {v : Toml} {n : Int} : asInt what v = .ok n ↔ v = .int n := by
  cases v <;> simp [asInt]

theorem asBool_eq_ok {v : Toml} {b : Bool} : asBool what v = .ok b ↔ v = .bool b := by
  cases v <;> simp [asBool]

theorem asReal_eq_ok {v : Toml} {x : Float64} : asReal what v = .ok x ↔ v.real? = some x := by
  cases v with
  | int n => rw [asReal, real?]; cases Float64.ofInt? n <;> simp
  | _ => simp [asReal, real?]

/-! ### What the readers can raise -/

theorem catchable_rejectUnknown (h : ∀ text, (invalid text).isTypeOrValueError = true) :
    Catchable (rejectUnknown invalid what allowed table) := by
  unfold rejectUnknown
  split
  · exact catchable_ok ()
  · intro e he
    cases he
    exact h _

theorem catchable_rejectMissing (h : ∀ text, (invalid text).isTypeOrValueError = true) :
    Catchable (rejectMissing invalid what required table) := by
  unfold rejectMissing
  split
  · exact catchable_ok ()
  · intro e he
    cases he
    exact h _

theorem catchable_getItem (h : ∃ v, lookupKey table key = some v) : Catchable (getItem table key) := by
  obtain ⟨v, hv⟩ := h
  rw [getItem_eq_ok.mpr hv]
  exact catchable_ok v

theorem catchable_asTable (h : ∀ text, (invalid text).isTypeOrValueError = true) (v : Toml) :
    Catchable (asTable invalid key v) := by
  cases v with
  | table items => exact catchable_ok items
  | _ => intro e he; cases he; exact h _

theorem catchable_requireString (h : ∃ v, lookupKey table key = some v) : Catchable (requireString table key) := by
  refine (catchable_getItem h).bind fun v => ?_
  cases v with
  | str s => exact catchable_ok s
  | _ => exact catchable_typeError _

theorem catchable_readOptionalString : Catchable (readOptionalString table key) := by
  unfold readOptionalString
  split
  · exact catchable_ok none
  · exact catchable_ok _
  · exact catchable_typeError _

theorem catchable_asInt (v : Toml) : Catchable (asInt what v) := by
  cases v with
  | int n => exact catchable_ok n
  | _ => exact catchable_typeError _

theorem catchable_asBool (v : Toml) : Catchable (asBool what v) := by
  cases v with
  | bool b => exact catchable_ok b
  | _ => exact catchable_typeError _

theorem catchable_asReal_iff {v : Toml} : Catchable (asReal what v) ↔ ¬v.TooLarge := by
  cases v with
  | int n =>
    rw [asReal, TooLarge]
    cases Float64.ofInt? n with
    | some x => simp
    | none =>
      constructor
      · intro h
        exact absurd (h _ rfl) (by decide)
      · exact fun h => absurd rfl h
  | float x => simp [asReal, TooLarge]
  | _ => simp [asReal, TooLarge]

/-- The conversions of a list of values, one after the other, and what comes after them. -/
theorem catchable_asReal_bind {α : Type} {v : Toml} {rest : List Toml} {f : Float64 → Result α}
    (hf : ∀ x, v.real? = some x → (Catchable (f x) ↔ ¬Overflows rest)) :
    Catchable (asReal what v >>= f) ↔ ¬Overflows (v :: rest) := by
  rw [catchable_bind_iff, catchable_asReal_iff, not_overflows_cons]
  refine and_congr_right fun _ => forall_congr' fun x => ?_
  rw [asReal_eq_ok]
  exact forall_congr' (hf x)

end

/-! ### How a parser ends -/

/-- Of the exceptions that `except (TypeError, ValueError)` catches, the call raises those of one class only. -/
def Owned {α : Type} (cls : ErrorClass) (r : Result α) : Prop :=
  ∀ e, r = .error e → e.isTypeOrValueError = true → e.cls = cls

section
variable {α β : Type} {cls : ErrorClass} {invalid : String → PyError} {what key : String} {keys : List String}
  {table : Table}

theorem owned_ok (a : α) : Owned cls (.ok a : Result α) := fun _ h => by cases h

theorem Owned.bind {r : Result α} {f : α → Result β} (hr : Owned cls r) (hf : ∀ a, Owned cls (f a)) :
    Owned cls (r >>= f) := by
  cases r with
  | error e => intro e' h; cases h; exact hr e rfl
  | ok a => exact hf a

theorem owned_rejectUnknown (h : ∀ text, (invalid text).cls = cls) : Owned cls (rejectUnknown invalid what keys table) := by
  unfold rejectUnknown
  split
  · exact owned_ok ()
  · intro e he _
    cases he
    exact h _

theorem owned_rejectMissing (h : ∀ text, (invalid text).cls = cls) : Owned cls (rejectMissing invalid what keys table) := by
  unfold rejectMissing
  split
  · exact owned_ok ()
  · intro e he _
    cases he
    exact h _

theorem owned_asTable (h : ∀ text, (invalid text).cls = cls) (v : Toml) : Owned cls (asTable invalid key v) := by
  cases v with
  | table items => exact owned_ok items
  | _ => intro e he _; cases he; exact h _

theorem owned_getItem : Owned cls (getItem table key) := by
  unfold getItem
  split
  · exact owned_ok _
  · intro e he hcaught
    cases he
    cases hcaught

theorem owned_reraise {handler : PyError → PyError} (h : ∀ e, (handler e).cls = cls) (r : Result α) :
    Owned cls (reraise handler r) := by
  cases r with
  | ok a => exact owned_ok a
  | error e =>
    intro e' he hcaught
    by_cases hc : e.isTypeOrValueError = true
    · rw [reraise, if_pos hc] at he
      cases he
      exact h e
    · rw [reraise, if_neg hc] at he
      cases he
      exact absurd hcaught hc

/-- The call returns what is described, or nothing is described and it raises an error of its own class. -/
def Proper (Describes : α → Prop) (cls : ErrorClass) (r : Result α) : Prop :=
  (∃ a, r = .ok a ∧ Describes a) ∨ ((¬∃ a, Describes a) ∧ ∃ message, r = .error ⟨cls, message⟩)

/-- A call that turns every exception it catches into its own ends properly when it raises no other. -/
theorem proper_iff_catchable {Describes : α → Prop} {r : Result α} (hok : ∀ a, r = .ok a ↔ Describes a)
    (hcls : ∀ message, (⟨cls, message⟩ : PyError).isTypeOrValueError = true) (howned : Owned cls r) :
    Proper Describes cls r ↔ Catchable r := by
  constructor
  · rintro (⟨a, rfl, -⟩ | ⟨-, message, rfl⟩)
    · exact catchable_ok a
    · intro e he
      cases he
      exact hcls message
  · intro h
    cases r with
    | ok a => exact .inl ⟨a, rfl, (hok a).mp rfl⟩
    | error e =>
      refine .inr ⟨?_, e.message, ?_⟩
      · rintro ⟨a, ha⟩
        cases (hok a).mpr ha
      · rw [← howned e rfl (h e rfl)]

end

end OrbitOps
