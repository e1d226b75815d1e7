/-!
# Scalars

Times, speeds, volumes and pixel distances share one arithmetic. Every operation of the library
is written over `Scalar`, so that one definition runs on doubles and is reasoned about on exact
rationals.
-/

namespace Montage

/-- The arithmetic and the comparisons that editing needs. -/
class Scalar (α : Type) extends
    Zero α, One α, Add α, Sub α, Mul α, Div α, Neg α, LT α, LE α, BEq α where
  /-- Distance from zero. -/
  abs : α → α
  /-- Whether the value is a number on the line, neither undefined nor unbounded. -/
  isFinite : α → Bool
  /-- A total order that refines `≤`: it also places undefined values and tells zeros apart. -/
  totalLe : α → α → Bool
  decideLt : ∀ a b : α, Decidable (a < b)
  decideLe : ∀ a b : α, Decidable (a ≤ b)

namespace Scalar

variable {α : Type} [Scalar α]

instance : DecidableLT α := Scalar.decideLt

instance : DecidableLE α := Scalar.decideLe

/-- The greater of two values; an undefined one gives way, and of equals the second is taken. -/
def larger (a b : α) : α :=
  if b < a then a else if b == b then b else a

/-- The lesser of two values; an undefined one gives way, and of equals the second is taken. -/
def smaller (a b : α) : α :=
  if a < b then a else if b == b then b else a

end Scalar

/-! ## Doubles -/

/-- The place of a double in the total order: the bit pattern, counted downwards below zero. -/
def doubleRank (x : Float) : Int :=
  let bits := x.toBits.toNat
  if bits < 0x8000000000000000 then bits else 0x7FFFFFFFFFFFFFFF - (bits : Int)

instance : Scalar Float where
  zero := 0
  one := 1
  abs := Float.abs
  isFinite := Float.isFinite
  totalLe a b := decide (doubleRank a ≤ doubleRank b)
  decideLt a b := inferInstanceAs (Decidable (a < b))
  decideLe a b := inferInstanceAs (Decidable (a ≤ b))

/-! ## Exact rationals -/

instance : Scalar Rat where
  zero := 0
  one := 1
  beq a b := @decide (a = b) (instDecidableEqRat a b)
  abs := Rat.abs
  isFinite _ := true
  totalLe a b := decide (a ≤ b)
  decideLt a b := inferInstanceAs (Decidable (a < b))
  decideLe a b := inferInstanceAs (Decidable (a ≤ b))

end Montage
