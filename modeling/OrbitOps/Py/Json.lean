import OrbitOps.Py.FloatText

/-!
# JSON values and their text

A decoded JSON document (`Json`) is also the model of a Python object whose type a validator still
has to test. `dumps` is `json.dumps` with `ensure_ascii`, compact separators and sorted keys.
-/

namespace Py

/-- A JSON value. Objects keep the order in which their keys were read. -/
inductive Json where
  | null
  | bool (b : Bool)
  | int (n : Int)
  | float (x : Float64)
  | str (s : String)
  | arr (items : List Json)
  | obj (items : List (String × Json))
deriving Repr, Inhabited

/-- `str | int | float | bool | None`. -/
inductive Scalar where
  | none
  | bool (b : Bool)
  | int (n : Int)
  | float (x : Float64)
  | str (s : String)
deriving DecidableEq, Repr

namespace Scalar

def toJson : Scalar → Json
  | none => .null
  | bool b => .bool b
  | int n => .int n
  | float x => .float x
  | str s => .str s

/-- Not a float, or a finite one. -/
def isFinite : Scalar → Bool
  | float x => x.isFinite
  | _ => true

@[simp] theorem isFinite_none : Scalar.none.isFinite = true := rfl
@[simp] theorem isFinite_bool (b : Bool) : (Scalar.bool b).isFinite = true := rfl
@[simp] theorem isFinite_int (n : Int) : (Scalar.int n).isFinite = true := rfl
@[simp] theorem isFinite_float (x : Float64) : (Scalar.float x).isFinite = x.isFinite := rfl
@[simp] theorem isFinite_str (s : String) : (Scalar.str s).isFinite = true := rfl

end Scalar

/-- `value is None`. -/
def Json.isNull : Json → Bool
  | .null => true
  | _ => false

/-- The scalar a JSON value is, if it is one. -/
def Json.scalar? : Json → Option Scalar
  | .null => some .none
  | .bool b => some (.bool b)
  | .int n => some (.int n)
  | .float x => some (.float x)
  | .str s => some (.str s)
  | .arr _ | .obj _ => none

@[simp] theorem Json.scalar?_toJson (v : Scalar) : v.toJson.scalar? = some v := by
  cases v <;> rfl

theorem Json.toJson_of_scalar? {j : Json} {v : Scalar} (h : j.scalar? = some v) : v.toJson = j := by
  cases j <;> simp only [scalar?, Option.some.injEq, reduceCtorEq] at h <;> subst h <;> rfl

/-! ### Text -/

/-- The escape `\uxxxx` of a 16-bit code unit. -/
def unicodeEscape (n : Nat) : List Char :=
  ['\\', 'u', hexDigit (n / 4096 % 16), hexDigit (n / 256 % 16), hexDigit (n / 16 % 16), hexDigit (n % 16)]

/-- One character inside a JSON string with `ensure_ascii`. -/
def escapeChar (c : Char) : List Char :=
  if c = '"' ∨ c = '\\' then ['\\', c]
  else if c = '\n' then ['\\', 'n']
  else if c = '\r' then ['\\', 'r']
  else if c = '\t' then ['\\', 't']
  else if c.toNat = 8 then ['\\', 'b']
  else if c.toNat = 12 then ['\\', 'f']
  else if 32 ≤ c.toNat ∧ c.toNat ≤ 126 then [c]
  else if c.toNat < 0x10000 then unicodeEscape c.toNat
  else
    let v := c.toNat - 0x10000
    unicodeEscape (0xD800 + v / 0x400) ++ unicodeEscape (0xDC00 + v % 0x400)

/-- `json.dumps` of a text. -/
def quoteStr (s : String) : String := String.ofList ('"' :: s.toList.flatMap escapeChar ++ ['"'])

/-- `json.dumps` of a float. -/
def dumpsFloat (x : Float64) : String :=
  if x.isNan then "NaN"
  else if x.isInf then (if x.signBit then "-Infinity" else "Infinity")
  else x.repr

/-- `json.dumps` of a scalar. -/
def Scalar.dumps : Scalar → String
  | none => "null"
  | bool b => if b then "true" else "false"
  | int n => intText n
  | float x => dumpsFloat x
  | str s => quoteStr s

/-- The items of an object in the order of their keys. -/
def sortItems {α : Type} (items : List (String × α)) : List (String × α) :=
  items.insertionSort fun a b => a.1 ≤ b.1

mutual

/-- `json.dumps(value, separators=(",", ":"), sort_keys=True)` of a value that is `Writable`. -/
def Json.dumps : Json → String
  | .null => Scalar.none.dumps
  | .bool b => (Scalar.bool b).dumps
  | .int n => (Scalar.int n).dumps
  | .float x => (Scalar.float x).dumps
  | .str s => (Scalar.str s).dumps
  | .arr items => "[" ++ join "," (Json.dumpsList items) ++ "]"
  | .obj items =>
    "\x7b" ++ join "," ((sortItems (Json.dumpsItems items)).map fun kv => quoteStr kv.1 ++ ":" ++ kv.2) ++ "\x7d"

def Json.dumpsList : List Json → List String
  | [] => []
  | v :: rest => v.dumps :: Json.dumpsList rest

def Json.dumpsItems : List (String × Json) → List (String × String)
  | [] => []
  | (k, v) :: rest => (k, v.dumps) :: Json.dumpsItems rest

end

/-- A line break and the indentation of a level. -/
def lineBreak (level : Nat) : String := "\n" ++ String.ofList (List.replicate (2 * level) ' ')

mutual

/-- `json.dumps(value, indent=2, sort_keys=True)` of a value that is `Writable`, at a level of nesting. -/
def Json.pretty (level : Nat) : Json → String
  | .arr [] => "[]"
  | .arr (v :: rest) => "[" ++ lineBreak (level + 1) ++ join ("," ++ lineBreak (level + 1))
      (v.pretty (level + 1) :: Json.prettyList (level + 1) rest) ++ lineBreak level ++ "]"
  | .obj [] => "\x7b\x7d"
  | .obj ((k, v) :: rest) => "\x7b" ++ lineBreak (level + 1) ++ join ("," ++ lineBreak (level + 1))
      ((sortItems ((k, v.pretty (level + 1)) :: Json.prettyItems (level + 1) rest)).map fun kv =>
        quoteStr kv.1 ++ ": " ++ kv.2) ++ lineBreak level ++ "\x7d"
  | .null => Scalar.none.dumps
  | .bool b => (Scalar.bool b).dumps
  | .int n => (Scalar.int n).dumps
  | .float x => (Scalar.float x).dumps
  | .str s => (Scalar.str s).dumps

def Json.prettyList (level : Nat) : List Json → List String
  | [] => []
  | v :: rest => v.pretty level :: Json.prettyList level rest

def Json.prettyItems (level : Nat) : List (String × Json) → List (String × String)
  | [] => []
  | (k, v) :: rest => (k, v.pretty level) :: Json.prettyItems level rest

end

mutual

/-- The value that reading `dumps` gives back: every object with its keys sorted. -/
def Json.sortKeys : Json → Json
  | .arr items => .arr (Json.sortKeysList items)
  | .obj items => .obj (sortItems (Json.sortKeysItems items))
  | v => v

def Json.sortKeysList : List Json → List Json
  | [] => []
  | v :: rest => v.sortKeys :: Json.sortKeysList rest

def Json.sortKeysItems : List (String × Json) → List (String × Json)
  | [] => []
  | (k, v) :: rest => (k, v.sortKeys) :: Json.sortKeysItems rest

end

/-- `json.dumps(value, ..., sort_keys=True) + "\n"`, one line of a JSONL file. -/
def Json.line (v : Json) : String := v.dumps ++ "\n"

/-! ### Integers that are too long -/

/-- `sys.get_int_max_str_digits()`. -/
def maxStrDigits : Nat := 4300

/-- The first number that `str` and `int` refuse. -/
def strLimit : Nat := 10 ^ maxStrDigits

theorem lt_strLimit {n : Nat} (h : n < 2 ^ 64) : n < strLimit :=
  h.trans_le ((Nat.pow_le_pow_left (by decide) 64).trans (Nat.pow_le_pow_right (by decide) (by decide)))

mutual

/-- The integers of a value. -/
def Json.integers : Json → List Int
  | .int n => [n]
  | .arr items => Json.integersList items
  | .obj items => Json.integersItems items
  | .null | .bool _ | .float _ | .str _ => []

def Json.integersList : List Json → List Int
  | [] => []
  | v :: rest => v.integers ++ Json.integersList rest

def Json.integersItems : List (String × Json) → List Int
  | [] => []
  | (_, v) :: rest => v.integers ++ Json.integersItems rest

end

/-- `json.dumps` writes the value: it holds no integer of more digits than `str` writes. -/
def Json.Writable (v : Json) : Prop := ∀ n ∈ v.integers, n.natAbs < strLimit

instance (v : Json) : Decidable v.Writable := inferInstanceAs (Decidable (∀ n ∈ v.integers, n.natAbs < strLimit))

/-! ### Reading back -/

/-- `json.loads` gives back, with sorted keys, the value whose line was written. -/
def ReadsBack (loads : String → Option Json) (v : Json) : Prop := loads v.line = some v.sortKeys

theorem isBlank_line_obj (items : List (String × Json)) : isBlank (Json.obj items).line = false := by
  refine not_isBlank_of_mem (c := Char.ofNat 123) ?_ (by decide)
  simp [Json.line, Json.dumps]

theorem Json.sortKeys_toJson (v : Scalar) : v.toJson.sortKeys = v.toJson := by
  cases v <;> simp [Scalar.toJson, Json.sortKeys]

theorem Json.sortKeysItems_eq_self {items : List (String × Json)} (h : ∀ kv ∈ items, kv.2.sortKeys = kv.2) :
    Json.sortKeysItems items = items := by
  induction items with
  | nil => simp [Json.sortKeysItems]
  | cons kv rest ih =>
    obtain ⟨k, v⟩ := kv
    rw [Json.sortKeysItems, ih fun kv hkv => h kv (List.mem_cons_of_mem _ hkv), h (k, v) (List.mem_cons_self ..)]

/-- An object whose keys are sorted, at every level, is read back as it was written. -/
theorem Json.sortKeys_obj {items : List (String × Json)} (keys : List String) (hk : items.map Prod.fst = keys)
    (hs : keys.Pairwise (· < ·)) (h : ∀ kv ∈ items, kv.2.sortKeys = kv.2) :
    (Json.obj items).sortKeys = .obj items := by
  subst hk
  rw [Json.sortKeys, Json.sortKeysItems_eq_self h, sortItems, List.Pairwise.insertionSort_eq]
  exact (List.pairwise_map.mp hs).imp fun h => h.le

/-! ### Object access -/

/-- `payload[key]`. -/
def lookupKey {α : Type} (items : List (String × α)) (key : String) : Option α :=
  (items.find? fun kv => kv.1 == key).map Prod.snd

/-- `payload[key]` once the keys were checked; a missing key reads as `None`. -/
def getKey (items : List (String × Json)) (key : String) : Json := (lookupKey items key).getD .null

/-- `set(payload) == expected`. -/
def hasKeys {α : Type} (expected : List String) (items : List (String × α)) : Bool :=
  (expected.all fun k => items.any fun kv => kv.1 == k) && items.all fun kv => expected.contains kv.1

/-- `sorted(expected - set(payload))`. -/
def missingKeys {α : Type} (expected : List String) (items : List (String × α)) : List String :=
  sortedStrs (expected.filter fun k => !items.any fun kv => kv.1 == k)

/-- `sorted(set(payload) - expected)`. -/
def extraKeys {α : Type} (expected : List String) (items : List (String × α)) : List String :=
  sortedStrs ((items.map Prod.fst).filter fun k => !expected.contains k)

end Py
