import OrbitOps.Py.FloatText

/-!
# Numbers that code calls floats

Code that only adds, subtracts, compares and prints floats reads the same over doubles and over
exact rationals. `FloatLike` is what it uses of them.
-/

namespace Py

/-- What a `float` is used for. -/
class FloatLike (α : Type) where
  zero : α
  add : α → α → α
  sub : α → α → α
  le : α → α → Bool
  lt : α → α → Bool
  isFinite : α → Bool
  /-- An integer divided by a whole `float` literal. -/
  scaled : Int → Nat → α
  /-- The `.{k}f` conversion. -/
  fixed : Nat → α → String

namespace FloatLike

instance : FloatLike Float64 where
  zero := .zero
  add := Float64.add
  sub := Float64.sub
  le := Float64.le
  lt := Float64.lt
  isFinite := Float64.isFinite
  scaled := Float64.scaled
  fixed := Float64.fixed

/-- Exact rationals. -/
instance : FloatLike ℚ where
  zero := 0
  add a b := a + b
  sub a b := a - b
  le a b := decide (a ≤ b)
  lt a b := decide (a < b)
  isFinite _ := true
  scaled n d := n / d
  fixed k q := fixedFraction (q < 0) q.num.natAbs q.den k

section Rational
variable (a b : ℚ)

@[simp] theorem zero_rat : (zero : ℚ) = 0 := rfl
@[simp] theorem add_rat : add a b = a + b := rfl
@[simp] theorem sub_rat : sub a b = a - b := rfl
@[simp] theorem le_rat : le a b = decide (a ≤ b) := rfl
@[simp] theorem lt_rat : lt a b = decide (a < b) := rfl
@[simp] theorem isFinite_rat : isFinite a = true := rfl

end Rational

end FloatLike

end Py
