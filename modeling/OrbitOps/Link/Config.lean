import OrbitOps.Errors
import OrbitOps.Py.Json

/-!
# Link configuration

A `LinkConfig` can only hold what its constructor accepts. A rate is an integer or a float between
zero and one; its exact value is the rational that `float(rate).as_integer_ratio()` gives.
-/

namespace OrbitOps.Link
open Py

def maxSeed : Nat := 2 ^ 64 - 1
def maxReorderWindow : Nat := 65535

/-- `1.0`. -/
def oneFloat : Float64 := ⟨0x3FF0000000000000#64⟩

/-- A real number as written in a configuration. -/
inductive Number where
  | int (n : Int)
  | float (x : Float64)
deriving DecidableEq, Repr

/-- `float(value)`; nothing stands for `OverflowError`. -/
def Number.float? : Number → Option Float64
  | .int n => Float64.ofInt? n
  | .float x => some x

/-- A probability: the number given and its double. -/
structure Rate where
  given : Number
  value : Float64
  value_eq : given.float? = some value
  finite : value.isFinite = true
  nonneg : Float64.zero.le value = true
  le_one : value.le oneFloat = true

def validateRate (name : String) (value : Json) : Result Rate :=
  let check (given : Number) : Result Rate :=
    match h : given.float? with
    | none => .error (overflowError "int too large to convert to float")
    | some x =>
      if hf : x.isFinite = true then
        if hr : Float64.zero.le x = true ∧ x.le oneFloat = true then .ok ⟨given, x, h, hf, hr.1, hr.2⟩
        else .error (valueError (name ++ " must be between 0.0 and 1.0"))
      else .error (valueError (name ++ " must be finite"))
  match value with
  | .int n => check (.int n)
  | .float x => check (.float x)
  | _ => .error (typeError (name ++ " must be a real number"))

structure LinkConfig where
  seed : Nat
  lossRate : Rate
  duplicateRate : Rate
  corruptRate : Rate
  latencyMs : Nat
  jitterMs : Nat
  reorderWindow : Nat
  seed_le : seed ≤ maxSeed
  reorderWindow_le : reorderWindow ≤ maxReorderWindow

/-- `_validate_non_negative_int` with a maximum. -/
def LinkConfig.validateNonNegativeInt (name : String) (value : Json) (maximum : Option Nat) :
    Result { n : Nat // ∀ m, maximum = some m → n ≤ m } :=
  match value with
  | .int n =>
    if n < 0 then .error (valueError (name ++ " must be non-negative"))
    else if h : ∀ m ∈ maximum, n.toNat ≤ m then .ok ⟨n.toNat, fun m hm => h m hm⟩
    else .error (valueError s!"{name} must be at most {maximum.getD 0}")
  | _ => .error (typeError (name ++ " must be an integer"))

def LinkConfig.new (seed lossRate duplicateRate corruptRate latencyMs jitterMs reorderWindow : Json) :
    Result LinkConfig := do
  let seed ← LinkConfig.validateNonNegativeInt "seed" seed (some maxSeed)
  let lossRate ← validateRate "loss_rate" lossRate
  let duplicateRate ← validateRate "duplicate_rate" duplicateRate
  let corruptRate ← validateRate "corrupt_rate" corruptRate
  let latencyMs ← LinkConfig.validateNonNegativeInt "latency_ms" latencyMs none
  let jitterMs ← LinkConfig.validateNonNegativeInt "jitter_ms" jitterMs none
  let reorderWindow ← LinkConfig.validateNonNegativeInt "reorder_window" reorderWindow (some maxReorderWindow)
  return {
    seed := seed.1
    lossRate := lossRate
    duplicateRate := duplicateRate
    corruptRate := corruptRate
    latencyMs := latencyMs.1
    jitterMs := jitterMs.1
    reorderWindow := reorderWindow.1
    seed_le := seed.2 _ rfl
    reorderWindow_le := reorderWindow.2 _ rfl }

def Rate.zero : Rate :=
  ⟨.float .zero, .zero, rfl, by decide +kernel, by decide +kernel, by decide +kernel⟩

def Rate.one : Rate :=
  ⟨.float oneFloat, oneFloat, rfl, by decide +kernel, by decide +kernel, by decide +kernel⟩

def Rate.half : Rate :=
  ⟨.float ⟨0x3FE0000000000000#64⟩, ⟨0x3FE0000000000000#64⟩, rfl, by decide +kernel, by decide +kernel,
    by decide +kernel⟩

def LinkConfig.default : LinkConfig where
  seed := 0
  lossRate := .zero
  duplicateRate := .zero
  corruptRate := .zero
  latencyMs := 0
  jitterMs := 0
  reorderWindow := 0
  seed_le := Nat.zero_le _
  reorderWindow_le := Nat.zero_le _

/-- A link on which everything happens. -/
def LinkConfig.busy : LinkConfig where
  seed := 4
  lossRate := .half
  duplicateRate := .half
  corruptRate := .half
  latencyMs := 2
  jitterMs := 1
  reorderWindow := 3
  seed_le := by decide
  reorderWindow_le := by decide

/-! ### What the constructor accepts -/

/-- The argument that a number is. -/
def Number.toJson : Number → Json
  | .int n => .int n
  | .float x => .float x

theorem Rate.ext_given {r r' : Rate} (h : r.given = r'.given) : r = r' := by
  obtain ⟨given, value, hv, _, _, _⟩ := r
  obtain ⟨given', value', hv', _, _, _⟩ := r'
  cases h
  cases Option.some.inj (hv.symm.trans hv')
  rfl

theorem validateRate_toJson {name : String} {given : Number} {rate : Rate} :
    validateRate name given.toJson = .ok rate ↔ given = rate.given := by
  constructor
  · intro h
    rcases given with n | x
    all_goals
      simp only [Number.toJson, validateRate] at h
      split at h
      · cases h
      · split_ifs at h
        cases h
        rfl
  · rintro hg
    have hv : given.float? = some rate.value := hg ▸ rate.value_eq
    have hrange : Float64.zero.le rate.value = true ∧ rate.value.le oneFloat = true := ⟨rate.nonneg, rate.le_one⟩
    rcases given with n | x
    all_goals
      simp only [Number.toJson, validateRate]
      split
      · rename_i hnone
        cases hnone.symm.trans hv
      · rename_i x hx
        cases Option.some.inj (hx.symm.trans hv)
        rw [dif_pos rate.finite, dif_pos hrange]
        exact congrArg Except.ok (Rate.ext_given hg)

theorem validateRate_eq_ok {name : String} {value : Json} {rate : Rate} :
    validateRate name value = .ok rate ↔ value = rate.given.toJson := by
  constructor
  · intro h
    cases value with
    | int n =>
      have hg : validateRate name (Number.int n).toJson = .ok rate := h
      rw [← validateRate_toJson.mp hg]
      rfl
    | float x =>
      have hg : validateRate name (Number.float x).toJson = .ok rate := h
      rw [← validateRate_toJson.mp hg]
      rfl
    | _ => cases h
  · rintro rfl
    exact validateRate_toJson.mpr rfl

theorem LinkConfig.validateNonNegativeInt_eq_ok {name : String} {value : Json} {maximum : Option Nat}
    {r : { n : Nat // ∀ m, maximum = some m → n ≤ m }} :
    LinkConfig.validateNonNegativeInt name value maximum = .ok r ↔ value = .int r.1 := by
  constructor
  · intro h
    cases value with
    | int n =>
      simp only [LinkConfig.validateNonNegativeInt] at h
      split_ifs at h with hneg hmax
      cases h
      exact congrArg Json.int (Int.toNat_of_nonneg (not_lt.mp hneg)).symm
    | _ => cases h
  · intro h
    obtain ⟨n, hn⟩ := r
    subst h
    simp only [LinkConfig.validateNonNegativeInt]
    rw [if_neg (not_lt.mpr (Int.natCast_nonneg n)), dif_pos (show ∀ m ∈ maximum, (n : Int).toNat ≤ m from hn)]
    rfl

theorem LinkConfig.new_eq_ok {seed lossRate duplicateRate corruptRate latencyMs jitterMs reorderWindow : Json}
    {config : LinkConfig} :
    LinkConfig.new seed lossRate duplicateRate corruptRate latencyMs jitterMs reorderWindow = .ok config ↔
      seed = .int config.seed ∧ lossRate = config.lossRate.given.toJson ∧
      duplicateRate = config.duplicateRate.given.toJson ∧ corruptRate = config.corruptRate.given.toJson ∧
      latencyMs = .int config.latencyMs ∧ jitterMs = .int config.jitterMs ∧
      reorderWindow = .int config.reorderWindow := by
  constructor
  · intro h
    obtain ⟨seed, hs, h⟩ := except_bind_eq_ok.mp h
    obtain ⟨loss, hl, h⟩ := except_bind_eq_ok.mp h
    obtain ⟨duplicate, hd, h⟩ := except_bind_eq_ok.mp h
    obtain ⟨corrupt, hc, h⟩ := except_bind_eq_ok.mp h
    obtain ⟨latency, hla, h⟩ := except_bind_eq_ok.mp h
    obtain ⟨jitter, hj, h⟩ := except_bind_eq_ok.mp h
    obtain ⟨window, hr, h⟩ := except_bind_eq_ok.mp h
    cases h
    exact ⟨LinkConfig.validateNonNegativeInt_eq_ok.mp hs, validateRate_eq_ok.mp hl, validateRate_eq_ok.mp hd,
      validateRate_eq_ok.mp hc, LinkConfig.validateNonNegativeInt_eq_ok.mp hla,
      LinkConfig.validateNonNegativeInt_eq_ok.mp hj, LinkConfig.validateNonNegativeInt_eq_ok.mp hr⟩
  · rintro ⟨hs, hl, hd, hc, hla, hj, hr⟩
    have seedBound (m : Nat) (h : some maxSeed = some m) : config.seed ≤ m := Option.some.inj h ▸ config.seed_le
    have windowBound (m : Nat) (h : some maxReorderWindow = some m) : config.reorderWindow ≤ m :=
      Option.some.inj h ▸ config.reorderWindow_le
    refine except_bind_eq_ok.mpr ⟨⟨config.seed, seedBound⟩, LinkConfig.validateNonNegativeInt_eq_ok.mpr hs, ?_⟩
    refine except_bind_eq_ok.mpr ⟨_, validateRate_eq_ok.mpr hl, ?_⟩
    refine except_bind_eq_ok.mpr ⟨_, validateRate_eq_ok.mpr hd, ?_⟩
    refine except_bind_eq_ok.mpr ⟨_, validateRate_eq_ok.mpr hc, ?_⟩
    refine except_bind_eq_ok.mpr ⟨⟨config.latencyMs, fun _ h => by cases h⟩,
      LinkConfig.validateNonNegativeInt_eq_ok.mpr hla, ?_⟩
    refine except_bind_eq_ok.mpr ⟨⟨config.jitterMs, fun _ h => by cases h⟩,
      LinkConfig.validateNonNegativeInt_eq_ok.mpr hj, ?_⟩
    exact except_bind_eq_ok.mpr
      ⟨⟨config.reorderWindow, windowBound⟩, LinkConfig.validateNonNegativeInt_eq_ok.mpr hr, rfl⟩

theorem catchable_validateRate_float (name : String) (x : Float64) : Catchable (validateRate name (.float x)) := by
  simp only [validateRate]
  split
  · rename_i h
    cases h
  · split_ifs
    · exact catchable_ok _
    · exact catchable_valueError _
    · exact catchable_valueError _

theorem LinkConfig.catchable_validateNonNegativeInt (name : String) (value : Json) (maximum : Option Nat) :
    Catchable (LinkConfig.validateNonNegativeInt name value maximum) := by
  cases value with
  | int n =>
    simp only [LinkConfig.validateNonNegativeInt]
    split_ifs
    · exact catchable_valueError _
    · exact catchable_ok _
    · exact catchable_valueError _
  | _ => exact catchable_typeError _

theorem LinkConfig.catchable_new (seed latencyMs jitterMs reorderWindow : Json) (loss duplicate corrupt : Float64) :
    Catchable (LinkConfig.new seed (.float loss) (.float duplicate) (.float corrupt) latencyMs jitterMs
      reorderWindow) :=
  (LinkConfig.catchable_validateNonNegativeInt _ _ _).bind fun _ =>
    (catchable_validateRate_float _ _).bind fun _ => (catchable_validateRate_float _ _).bind fun _ =>
    (catchable_validateRate_float _ _).bind fun _ =>
    (LinkConfig.catchable_validateNonNegativeInt _ _ _).bind fun _ =>
    (LinkConfig.catchable_validateNonNegativeInt _ _ _).bind fun _ =>
    (LinkConfig.catchable_validateNonNegativeInt _ _ _).bind fun _ => catchable_ok _

end OrbitOps.Link
