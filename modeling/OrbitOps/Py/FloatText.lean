import OrbitOps.Py.Float64

/-!
# Decimal and hexadecimal text of doubles

`repr` is the shortest decimal that rounds back to the double (the closest one of that length),
`fixed k` is the `.{k}f` conversion, which rounds the exact value half to even, and `hex` is
`float.hex`.
-/

namespace Py

/-- The decimal digits of a natural number. -/
def natDigits (n : Nat) : List Char := Nat.toDigits 10 n

/-- `str(n)` of an integer. -/
def intText (n : Int) : String :=
  String.ofList (if n < 0 then '-' :: natDigits n.natAbs else natDigits n.natAbs)

/-- `n / d` written with `k` decimals, rounded half to even. -/
def fixedFraction (neg : Bool) (n d k : Nat) : String :=
  let v := Float64.divRoundHalfEven (n * 10 ^ k) d
  let frac := padLeft '0' k (String.ofList (natDigits (v % 10 ^ k)))
  (if neg then "-" else "") ++ String.ofList (natDigits (v / 10 ^ k)) ++ (if k = 0 then "" else "." ++ frac)

namespace Float64

/-- The `.{k}f` conversion. -/
def fixed (k : Nat) (x : Float64) : String :=
  if x.isNan then "nan"
  else if x.isInf then (if x.signBit then "-inf" else "inf")
  else fixedFraction x.signBit x.units (2 ^ 1074) k

/-- The position of the decimal point: `10 ^ (p - 1) ≤ n / d < 10 ^ p`. -/
def decimalPoint (n d : Nat) : Int :=
  if d ≤ n then (natDigits (n / d)).length else 1 - (natDigits ((d + n - 1) / n - 1)).length

/-- The double's word for the decimal `c * 10 ^ (-s)`. -/
def decimalMag (c : Nat) (s : Int) : Nat :=
  if 0 ≤ s then roundMag c (10 ^ s.toNat) else roundMag (c * 10 ^ (-s).toNat) 1

/-- A decimal of `k` digits that rounds back to the word `mag` of `n / d`, as `(c, s)`. -/
def decimalAt (mag n d : Nat) (k : Nat) : Option (Nat × Int) :=
  let s : Int := k - decimalPoint n d
  let num := if 0 ≤ s then n * 10 ^ s.toNat else n
  let den := if 0 ≤ s then d else d * 10 ^ (-s).toNat
  let lo := num / den
  let near := divRoundHalfEven num den
  let far := if near = lo then lo + 1 else lo
  if decimalMag near s = mag then some (near, s)
  else if decimalMag far s = mag then some (far, s)
  else none

/-- The shortest decimal of a positive finite double, as digits and decimal point. -/
def shortestDecimal (x : Float64) : List Char × Int :=
  let n := x.units
  let d := 2 ^ 1074
  let found := ((List.range 17).findSome? fun k => decimalAt x.magBits n d (k + 1)).getD (0, 0)
  let digits := natDigits found.1
  ((digits.reverse.dropWhile (· == '0')).reverse, digits.length - found.2)

/-- `float.__repr__`. -/
def repr (x : Float64) : String :=
  if x.isNan then "nan"
  else
    let sign := if x.signBit then "-" else ""
    if x.isInf then sign ++ "inf"
    else if x.units = 0 then sign ++ "0.0"
    else
      let (digits, point) := x.shortestDecimal
      let zeros := fun (n : Int) => List.replicate n.toNat '0'
      let body :=
        if -4 < point ∧ point ≤ 16 then
          if point ≤ 0 then '0' :: '.' :: zeros (-point) ++ digits
          else if digits.length ≤ point then digits ++ zeros (point - digits.length) ++ ['.', '0']
          else digits.take point.toNat ++ '.' :: digits.drop point.toNat
        else
          let expo := point - 1
          let rest := digits.drop 1
          digits.take 1 ++ (if rest.isEmpty then [] else '.' :: rest) ++
            'e' :: (if expo < 0 then '-' else '+') ::
              (padLeft '0' 2 (String.ofList (natDigits expo.natAbs))).toList
      sign ++ String.ofList body

/-- `float.hex`. -/
def hex (x : Float64) : String :=
  if x.isNan then "nan"
  else
    let sign := if x.signBit then "-" else ""
    if x.isInf then sign ++ "inf"
    else if x.units = 0 then sign ++ "0x0.0p+0"
    else
      let expo : Nat := x.magBits / 2 ^ 52
      let frac := padLeft '0' 13 (String.ofList (Nat.toDigits 16 (x.magBits % 2 ^ 52)))
      let power : Int := if expo = 0 then -1022 else (expo : Int) - 1023
      sign ++ (if expo = 0 then "0x0." else "0x1.") ++ frac ++ "p" ++
        (if power < 0 then "" else "+") ++ intText power

end Float64

end Py
