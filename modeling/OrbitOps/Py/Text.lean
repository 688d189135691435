import Mathlib.Data.String.Basic
import Mathlib.Data.List.DropRight
import Mathlib.Data.List.Sort

/-!
# Text helpers of the Python runtime

The parts of `str` and `bytes` that validators and formatters rely on: blank tests, hexadecimal
digits, padding and the `!r` conversion. Text is a sequence of Unicode scalar values.
-/

namespace Py

/-- A character that `str.strip` removes. -/
def isSpace (c : Char) : Bool :=
  let n := c.toNat
  (9 ≤ n && n ≤ 13) || (28 ≤ n && n ≤ 32) || n == 0x85 || n == 0xA0 || n == 0x1680 ||
    (0x2000 ≤ n && n ≤ 0x200A) || n == 0x2028 || n == 0x2029 || n == 0x202F || n == 0x205F ||
    n == 0x3000

/-- `not s.strip()`. -/
def isBlank (s : String) : Bool := s.toList.all isSpace

/-- `s.strip()`. -/
def strip (s : String) : String := String.ofList (s.toList.rdropWhile isSpace |>.dropWhile isSpace)

/-- `"\x00" in s`. -/
def hasNul (s : String) : Bool := s.toList.contains (Char.ofNat 0)

theorem isBlank_append (a b : String) : isBlank (a ++ b) = (isBlank a && isBlank b) := by
  simp [isBlank]

theorem hasNul_append (a b : String) : hasNul (a ++ b) = (hasNul a || hasNul b) := by
  simp [hasNul]

/-- A text with a visible character is not blank. -/
theorem not_isBlank_of_mem {s : String} {c : Char} (hc : c ∈ s.toList) (hs : isSpace c = false) :
    isBlank s = false := by
  simp only [isBlank, List.all_eq_false]
  exact ⟨c, hc, by simp [hs]⟩

/-- Neither blank nor with a NUL. -/
def IsVisible (s : String) : Prop := isBlank s = false ∧ hasNul s = false

instance (s : String) : Decidable (IsVisible s) := inferInstanceAs (Decidable (_ ∧ _))

theorem IsVisible.append {a b : String} (ha : IsVisible a) (hb : hasNul b = false) : IsVisible (a ++ b) := by
  refine ⟨?_, ?_⟩
  · rw [isBlank_append, ha.1, Bool.false_and]
  · rw [hasNul_append, ha.2, hb, Bool.or_false]

/-! ### Digits and padding -/

/-- The lower-case hexadecimal digit of `n < 16`. -/
def hexDigit (n : Nat) : Char := if n < 10 then Char.ofNat (48 + n) else Char.ofNat (87 + n)

/-- The value of a hexadecimal digit of either case. -/
def hexValue? (c : Char) : Option Nat :=
  let n := c.toNat
  if 48 ≤ n ∧ n ≤ 57 then some (n - 48)
  else if 97 ≤ n ∧ n ≤ 102 then some (n - 87)
  else if 65 ≤ n ∧ n ≤ 70 then some (n - 55)
  else none

theorem hexValue?_hexDigit : ∀ n < 16, hexValue? (hexDigit n) = some n := by decide

/-- Left padding of a text to a width. -/
def padLeft (fill : Char) (width : Nat) (s : String) : String :=
  String.ofList (List.replicate (width - s.toList.length) fill) ++ s

/-- Right padding with spaces, the `<` alignment. -/
def padRight (width : Nat) (s : String) : String :=
  s ++ String.ofList (List.replicate (width - s.toList.length) ' ')

/-- The `:0{width}X` conversion of a natural number. -/
def hexUpper (width n : Nat) : String :=
  padLeft '0' width (String.ofList ((Nat.toDigits 16 n).map Char.toUpper))

/-- `str.join` of the pieces with a separator. -/
def join (sep : String) : List String → String
  | [] => ""
  | [s] => s
  | s :: t :: rest => s ++ sep ++ join sep (t :: rest)

/-! ### The `!r` conversion -/

/-- The two hexadecimal digits of a byte. -/
def hexByte (b : UInt8) : List Char := [hexDigit (b.toNat / 16), hexDigit (b.toNat % 16)]

/-- One byte inside `repr(bytes)` with the given quote character. -/
def reprByte (quote : Char) (b : UInt8) : List Char :=
  let c := Char.ofNat b.toNat
  if c = quote ∨ c = '\\' then ['\\', c]
  else if c = '\t' then ['\\', 't']
  else if c = '\n' then ['\\', 'n']
  else if c = '\r' then ['\\', 'r']
  else if b.toNat < 32 ∨ 127 ≤ b.toNat then '\\' :: 'x' :: hexByte b
  else [c]

/-- `repr(bytes)`. -/
def reprBytes (bs : List UInt8) : String :=
  let quote := if bs.contains 39 && !bs.contains 34 then '"' else '\''
  String.ofList ('b' :: quote :: bs.flatMap (reprByte quote) ++ [quote])

/-- One character inside `repr(str)`; characters above `U+00A0` are taken as printable. -/
def reprChar (quote : Char) (c : Char) : List Char :=
  if c = quote ∨ c = '\\' then ['\\', c]
  else if c = '\t' then ['\\', 't']
  else if c = '\n' then ['\\', 'n']
  else if c = '\r' then ['\\', 'r']
  else if c.toNat < 32 ∨ (127 ≤ c.toNat ∧ c.toNat ≤ 0xA0) then
    '\\' :: 'x' :: [hexDigit (c.toNat / 16), hexDigit (c.toNat % 16)]
  else [c]

/-- `repr(str)`. -/
def reprText (s : String) : String :=
  let cs := s.toList
  let quote := if cs.contains '\'' && !cs.contains '"' then '"' else '\''
  String.ofList (quote :: cs.flatMap (reprChar quote) ++ [quote])

/-- `sorted` on a list of texts. -/
def sortedStrs (xs : List String) : List String := xs.dedup.insertionSort (· ≤ ·)

/-- The `str` of a list of texts. -/
def reprTexts (xs : List String) : String := "[" ++ join ", " (xs.map reprText) ++ "]"

end Py
