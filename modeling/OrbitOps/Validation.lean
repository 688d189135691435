import OrbitOps.Errors
import OrbitOps.Py.Dict
import OrbitOps.Py.JsonRead
import OrbitOps.Py.Jsonl

/-!
# Field validation shared by the evidence formats

The event formats and the session model check their fields with the same rules: non-negative
integers, visible text without NUL, fingerprints, and attributes that map non-empty names to finite
scalars. A checked value is kept in a type that says what was checked.
-/

namespace OrbitOps
open Py

def validateNonNegativeInt (name : String) : Json → Result Nat
  | .int n => if n < 0 then .error (valueError (name ++ " must be non-negative")) else .ok n.toNat
  | _ => .error (typeError (name ++ " must be an integer"))

@[simp] theorem validateNonNegativeInt_nat (name : String) (n : Nat) :
    validateNonNegativeInt name (.int n) = .ok n := by
  simp [validateNonNegativeInt]

theorem validateNonNegativeInt_eq_ok {name : String} {j : Json} {n : Nat} :
    validateNonNegativeInt name j = .ok n ↔ j = .int n := by
  constructor
  · intro h
    cases j <;> simp only [validateNonNegativeInt, reduceCtorEq] at h
    rename_i m
    split_ifs at h with hm
    cases h
    rw [Int.toNat_of_nonneg (not_lt.mp hm)]
  · rintro rfl; exact validateNonNegativeInt_nat name n

def validateOptionalNonNegativeInt (name : String) : Json → Result (Option Nat)
  | .null => .ok none
  | j => (validateNonNegativeInt name j).map some

def optionalInt : Option Nat → Scalar
  | none => .none
  | some n => .int n

@[simp] theorem validateOptionalNonNegativeInt_optionalInt (name : String) (n : Option Nat) :
    validateOptionalNonNegativeInt name (optionalInt n).toJson = .ok n := by
  cases n with
  | none => rfl
  | some n => simp [optionalInt, Scalar.toJson, validateOptionalNonNegativeInt, Except.map]

theorem validateOptionalNonNegativeInt_eq_ok {name : String} {j : Json} {n : Option Nat} :
    validateOptionalNonNegativeInt name j = .ok n ↔ j = (optionalInt n).toJson := by
  constructor
  · intro h
    cases j with
    | null => cases h; rfl
    | int m =>
      simp only [validateOptionalNonNegativeInt] at h
      cases hm : validateNonNegativeInt name (.int m) with
      | error e => rw [hm] at h; cases h
      | ok k =>
        rw [hm] at h
        cases h
        exact validateNonNegativeInt_eq_ok.mp hm
    | _ => simp [validateOptionalNonNegativeInt, validateNonNegativeInt, Except.map] at h
  · rintro rfl; exact validateOptionalNonNegativeInt_optionalInt name n

/-! ### Text -/

/-- A text with a visible character and no NUL. -/
structure VisibleText where
  text : String
  notBlank : isBlank text = false
  noNul : hasNul text = false
deriving DecidableEq, Repr

/-- A text that is neither blank nor has a NUL, or the error of the check that it fails. -/
def requireVisible (name blank : String) (s : String) : Result VisibleText :=
  if hb : isBlank s = false then
    if hn : hasNul s = false then .ok ⟨s, hb, hn⟩
    else .error (valueError (name ++ " must not contain NUL characters"))
  else .error (valueError (name ++ blank))

def validateNonEmptyString (name : String) : Json → Result VisibleText
  | .str s => requireVisible name " must be non-empty" s
  | _ => .error (typeError (name ++ " must be a string"))

def validateOptionalNonEmptyString (name : String) : Json → Result (Option VisibleText)
  | .null => .ok none
  | .str s => (requireVisible name " must be non-empty when provided" s).map some
  | _ => .error (typeError (name ++ " must be a string or None"))

theorem requireVisible_text (name blank : String) (v : VisibleText) : requireVisible name blank v.text = .ok v := by
  simp [requireVisible, v.notBlank, v.noNul]

theorem requireVisible_eq_ok {name blank s : String} {v : VisibleText} :
    requireVisible name blank s = .ok v ↔ s = v.text := by
  constructor
  · intro h
    unfold requireVisible at h
    split_ifs at h
    cases h; rfl
  · rintro rfl; exact requireVisible_text name blank v

@[simp] theorem validateNonEmptyString_text (name : String) (v : VisibleText) :
    validateNonEmptyString name (.str v.text) = .ok v := requireVisible_text ..

theorem validateNonEmptyString_eq_ok {name : String} {j : Json} {v : VisibleText} :
    validateNonEmptyString name j = .ok v ↔ j = .str v.text := by
  constructor
  · intro h
    cases j <;> simp only [validateNonEmptyString, reduceCtorEq] at h
    rw [requireVisible_eq_ok.mp h]
  · rintro rfl; exact validateNonEmptyString_text name v

def optionalText : Option VisibleText → Scalar
  | none => .none
  | some v => .str v.text

@[simp] theorem validateOptionalNonEmptyString_text (name : String) (v : Option VisibleText) :
    validateOptionalNonEmptyString name (optionalText v).toJson = .ok v := by
  cases v with
  | none => rfl
  | some v => simp [optionalText, Scalar.toJson, validateOptionalNonEmptyString, requireVisible_text, Except.map]

theorem validateOptionalNonEmptyString_eq_ok {name : String} {j : Json} {v : Option VisibleText} :
    validateOptionalNonEmptyString name j = .ok v ↔ j = (optionalText v).toJson := by
  constructor
  · intro h
    cases j with
    | null => cases h; rfl
    | str s =>
      rw [validateOptionalNonEmptyString] at h
      rcases hs : requireVisible name " must be non-empty when provided" s with err | t
      · rw [hs] at h; cases h
      · rw [hs] at h
        cases h
        exact congrArg Json.str (requireVisible_eq_ok.mp hs)
    | _ => cases h
  · rintro rfl; exact validateOptionalNonEmptyString_text name v

@[simp] theorem isFinite_optionalInt (n : Option Nat) : (optionalInt n).isFinite = true := by
  cases n <;> rfl

@[simp] theorem isFinite_optionalText (v : Option VisibleText) : (optionalText v).isFinite = true := by
  cases v <;> rfl

/-- `re.fullmatch(r"sha256:[0-9a-f]{64}", s)`. -/
def isFingerprint (s : String) : Bool :=
  s.toList.take 7 == "sha256:".toList && (s.toList.drop 7).length == 64 &&
    (s.toList.drop 7).all fun c => ('0' ≤ c && c ≤ '9') || ('a' ≤ c && c ≤ 'f')

/-! ### Attributes -/

/-- A non-empty name with a finite scalar. -/
def ValidItem (kv : String × Scalar) : Prop := kv.1 ≠ "" ∧ kv.2.isFinite = true

instance (kv : String × Scalar) : Decidable (ValidItem kv) := inferInstanceAs (Decidable (_ ∧ _))

structure Attributes where
  dict : Dict Scalar
  valid : ∀ kv ∈ dict.items, ValidItem kv
deriving DecidableEq

namespace Attributes

/-- The attributes that a list of items builds. -/
def ofItems (l : List (String × Scalar)) (h : ∀ kv ∈ l, ValidItem kv) : Attributes :=
  ⟨Dict.ofItems l, fun kv hkv => h kv (Dict.mem_ofItems hkv)⟩

def get (a : Attributes) (key : String) : Scalar := (a.dict.get? key).getD .none

/-- `dict(attributes)` as a JSON value. -/
def toJson (a : Attributes) : Json := .obj (a.dict.items.map fun kv => (kv.1, kv.2.toJson))

theorem ext {a b : Attributes} (h : a.dict = b.dict) : a = b := by
  cases a; cases b; cases h; rfl

theorem eq_iff_items {a b : Attributes} : a = b ↔ a.dict.items = b.dict.items :=
  ⟨fun h => h ▸ rfl, fun h => ext (Dict.ext h)⟩

theorem items_ofItems_of_keys {l : List (String × Scalar)} {h : ∀ kv ∈ l, ValidItem kv} (keys : List String)
    (hk : l.map Prod.fst = keys) (hs : keys.Pairwise (· < ·)) : (ofItems l h).dict.items = l :=
  Dict.items_ofItems_of_keys keys hk hs

@[simp] theorem sortKeys_toJson (a : Attributes) : a.toJson.sortKeys = a.toJson := by
  refine Json.sortKeys_obj (a.dict.items.map Prod.fst) (by simp) (List.pairwise_map.mpr a.dict.sorted) fun kv hkv => ?_
  obtain ⟨item, -, rfl⟩ := List.mem_map.mp hkv
  exact Json.sortKeys_toJson item.2

@[simp] theorem ofItems_items (a : Attributes) : ofItems a.dict.items a.valid = a := ext (Dict.ofItems_items a.dict)

end Attributes

def validateItem (kv : String × Json) : Result { kv : String × Scalar // ValidItem kv } :=
  if hk : kv.1 = "" then .error (valueError "attribute names must be non-empty strings")
  else
    match kv.2.scalar? with
    | none => .error (typeError ("attribute " ++ reprText kv.1 ++ " has an unsupported value"))
    | some v =>
      if hv : v.isFinite = true then .ok ⟨(kv.1, v), hk, hv⟩
      else .error (valueError ("attribute " ++ reprText kv.1 ++ " must be finite"))

def validateAttributes : Json → Result Attributes
  | .obj items => (items.mapM validateItem).map fun l =>
      .ofItems (l.map Subtype.val) fun _ h => by
        obtain ⟨kv, -, rfl⟩ := List.mem_map.mp h
        exact kv.2
  | _ => .error (typeError "attributes must be a mapping")

/-- A list of scalar items as a JSON object. -/
def scalarObj (l : List (String × Scalar)) : Json := .obj (l.map fun kv => (kv.1, kv.2.toJson))

theorem Attributes.toJson_eq (a : Attributes) : a.toJson = scalarObj a.dict.items := rfl

/-- An object of finite scalars with distinct keys. -/
theorem readable_scalarObj {l : List (String × Scalar)} (hkeys : (l.map Prod.fst).Nodup)
    (h : ∀ kv ∈ l, kv.2.isFinite = true) : (scalarObj l).Readable := by
  refine .obj (by rwa [List.map_map]) fun kv hkv => ?_
  obtain ⟨item, hitem, rfl⟩ := List.mem_map.mp hkv
  exact Json.readable_finite (h item hitem)

theorem Attributes.readable (a : Attributes) : a.toJson.Readable :=
  readable_scalarObj a.dict.nodup_keys fun kv hkv => (a.valid kv hkv).2

theorem readable_optionalInt (n : Option Nat) : (optionalInt n).toJson.Readable :=
  Json.readable_finite (isFinite_optionalInt n)

theorem validateItem_eq_ok {kv : String × Json} {r : { kv : String × Scalar // ValidItem kv }} :
    validateItem kv = .ok r ↔ kv = (r.1.1, r.1.2.toJson) := by
  obtain ⟨⟨k', v'⟩, hk', hv'⟩ := r
  obtain ⟨k, j⟩ := kv
  constructor
  · intro h
    unfold validateItem at h
    dsimp only at h
    split_ifs at h with hk
    cases hj : j.scalar? with
    | none => rw [hj] at h; cases h
    | some v =>
      rw [hj] at h
      dsimp only at h
      split_ifs at h
      cases h
      exact Prod.ext rfl (Json.toJson_of_scalar? hj).symm
  · intro h
    cases h
    simp [validateItem, show k' ≠ "" from hk', show v'.isFinite = true from hv']

/-- Validation accepts exactly the objects of valid items. -/
theorem validateAttributes_eq_ok {j : Json} {a : Attributes} :
    validateAttributes j = .ok a ↔ ∃ l h, j = scalarObj l ∧ a = .ofItems l h := by
  constructor
  · intro h
    cases j with
    | obj items =>
      simp only [validateAttributes] at h
      cases hl : items.mapM validateItem with
      | error e => rw [hl] at h; cases h
      | ok l =>
        rw [hl] at h
        cases h
        refine ⟨l.map Subtype.val, _, congrArg Json.obj ?_, rfl⟩
        have hall := except_mapM_eq_ok.mp hl
        clear hl
        induction hall with
        | nil => rfl
        | cons hkv _ ih => rw [validateItem_eq_ok.mp hkv, ih]; rfl
    | _ => simp [validateAttributes] at h
  · rintro ⟨l, h, rfl, rfl⟩
    obtain ⟨l', hl', hall⟩ : ∃ l' : List { kv : String × Scalar // ValidItem kv }, l'.map Subtype.val = l ∧
        (l.map fun kv => (kv.1, kv.2.toJson)).mapM validateItem = .ok l' := by
      induction l with
      | nil => exact ⟨[], rfl, rfl⟩
      | cons kv l ih =>
        obtain ⟨l', hl', hall⟩ := ih fun kv hkv => h kv (List.mem_cons_of_mem _ hkv)
        refine ⟨⟨kv, h kv (List.mem_cons_self ..)⟩ :: l', congrArg (kv :: ·) hl', except_mapM_eq_ok.mpr ?_⟩
        exact .cons (validateItem_eq_ok.mpr rfl) (except_mapM_eq_ok.mp hall)
    subst hl'
    simp only [validateAttributes, scalarObj, hall, Except.map]

@[simp] theorem validateAttributes_scalarObj {l : List (String × Scalar)} (h : ∀ kv ∈ l, ValidItem kv) :
    validateAttributes (scalarObj l) = .ok (.ofItems l h) := validateAttributes_eq_ok.mpr ⟨l, h, rfl, rfl⟩

@[simp] theorem validateAttributes_toJson (a : Attributes) : validateAttributes a.toJson = .ok a := by
  rw [Attributes.toJson_eq, validateAttributes_scalarObj a.valid, Attributes.ofItems_items]

/-! ### What the checks raise -/

theorem catchable_validateNonNegativeInt (name : String) (j : Json) : Catchable (validateNonNegativeInt name j) := by
  cases j <;> simp only [validateNonNegativeInt, catchable_typeError]
  split_ifs <;> simp

theorem catchable_validateOptionalNonNegativeInt (name : String) (j : Json) :
    Catchable (validateOptionalNonNegativeInt name j) := by
  unfold validateOptionalNonNegativeInt
  split
  · exact catchable_ok _
  · exact (catchable_validateNonNegativeInt name j).map _

theorem catchable_requireVisible (name blank s : String) : Catchable (requireVisible name blank s) := by
  unfold requireVisible
  split_ifs <;> simp

theorem catchable_validateNonEmptyString (name : String) (j : Json) : Catchable (validateNonEmptyString name j) := by
  cases j <;> simp only [validateNonEmptyString, catchable_typeError]
  exact catchable_requireVisible _ _ _

theorem catchable_validateOptionalNonEmptyString (name : String) (j : Json) :
    Catchable (validateOptionalNonEmptyString name j) := by
  cases j <;> simp only [validateOptionalNonEmptyString, catchable_typeError, catchable_ok]
  exact (catchable_requireVisible _ _ _).map _

theorem catchable_validateAttributes (j : Json) : Catchable (validateAttributes j) := by
  have hitem (kv : String × Json) : Catchable (validateItem kv) := by
    unfold validateItem
    split_ifs
    · simp
    · split
      · simp
      · split_ifs <;> simp
  cases j <;> simp only [validateAttributes, catchable_typeError]
  exact (Catchable.mapM hitem _).map _

theorem catchable_foldLines {σ : Type} {step : Nat → String → σ → Result σ} (hstep : ∀ n line s, Catchable (step n line s))
    (n : Nat) (lines : List String) (s : σ) : Catchable (foldLines step n lines s) := by
  induction lines generalizing n s with
  | nil => exact catchable_ok s
  | cons line rest ih =>
    rw [foldLines]
    split_ifs
    · exact ih (n + 1) s
    · exact (hstep n line s).bind fun s' => ih (n + 1) s'

/-- A strict loader raises what its steps raise. -/
theorem catchable_fold {σ : Type} {step : Nat → String → σ → Result σ} (hstep : ∀ n line s, Catchable (step n line s))
    (file : TextFile) (s : σ) : Catchable (file.fold valueError step s) := by
  refine (catchable_foldLines hstep 1 file.lines s).bind fun s' => ?_
  split <;> simp

end OrbitOps
