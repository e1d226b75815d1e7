import Montage.Decimal.Numeral

/-!
# Shortest decimal of a double

A finite double is `significand · 2 ^ power` exactly. Of the decimals that read back to it, the
one with the fewest digits is chosen, and of those the nearest to it. The search works on whole
numbers only: on each grid of powers of ten it looks at the two points beside the double.
-/

namespace Montage.Decimal

/-! ## Exact value -/

/-- A finite double, taken apart: `±significand · 2 ^ power`. -/
structure Binary where
  negative : Bool
  significand : Nat
  power : Int
deriving DecidableEq, Repr

namespace Binary

/-- The least significand of 53 bits: a one and the 52 bits that a double keeps of a fraction. -/
def leastNormal : Nat := 0x10000000000000

/-- Takes a double apart; the result names its value when it is finite. -/
def ofDouble (x : Float) : Binary :=
  let bits := x.toBits.toNat
  let negative : Bool := 0x8000000000000000 ≤ bits
  let fraction : Nat := bits % leastNormal
  let exponent : Nat := bits / leastNormal % 0x800
  if exponent = 0 then ⟨negative, fraction, -1074⟩
  else ⟨negative, leastNormal + fraction, (exponent : Int) - 1075⟩

/-- The power of two as a fraction. -/
def unit (b : Binary) : Nat × Nat :=
  (Nat.pow 2 b.power.toNat, Nat.pow 2 (-b.power).toNat)

end Binary

/-- The power of ten as a fraction. -/
def tenPower (e : Int) : Nat × Nat :=
  (Nat.pow 10 e.toNat, Nat.pow 10 (-e).toNat)

/-- The greatest power of ten, of three candidates around an estimate, that is no greater. -/
def Binary.decade (b : Binary) : Int :=
  let (num, den) := b.unit
  let reached (e : Int) : Bool :=
    let (tn, td) := tenPower e
    tn * den ≤ b.significand * num * td
  let estimate := ((b.significand.log2 : Int) + b.power) * 30103 / 100000
  if reached (estimate + 1) then estimate + 1
  else if reached estimate then estimate
  else estimate - 1

/-! ## The search -/

/-- Which of two equally near decimals is chosen. -/
inductive Tie
  | even
  | up
deriving DecidableEq, Repr

namespace Binary

/--
The point of the grid of step `10 ^ e` that reads back to the double, if there is one.

All numbers are counted in quarters of the double's unit, where the decimals that read back lie
within two quarters of it, and within one below a power of two.
-/
def onGrid? (tie : Tie) (b : Binary) (e : Int) : Option Nat :=
  let (num, den) := b.unit
  let (tn, td) := tenPower e
  let step := 4 * tn * den
  let value := 4 * b.significand * num * td
  let quarter := num * td
  let below := if b.significand = leastNormal && b.power > -1074 then quarter else 2 * quarter
  let inside (c : Nat) : Bool :=
    if b.significand % 2 = 0 then value - below ≤ c * step && c * step ≤ value + 2 * quarter
    else value - below < c * step && c * step < value + 2 * quarter
  let c := value / step
  match inside c, inside (c + 1) with
  | false, false => none
  | true, false => some c
  | false, true => some (c + 1)
  | true, true =>
      let middle := (2 * c + 1) * step
      if 2 * value < middle then some c
      else if middle < 2 * value then some (c + 1)
      else match tie with
        | .even => some (c + c % 2)
        | .up => some (c + 1)

/-- The first of `fuel` finer and finer grids, from `10 ^ e` down, that has a point to read back. -/
def search (tie : Tie) (b : Binary) : Nat → Int → Numeral
  | 0, e => ⟨b.negative, 0, e, false⟩
  | fuel + 1, e =>
      match b.onGrid? tie e with
      | some c => ⟨b.negative, c, e, false⟩
      | none => b.search tie fuel (e - 1)

end Binary

/-- The shortest numeral that reads back to a finite double: at most seventeen digits. -/
def shortest (tie : Tie) (x : Float) : Numeral :=
  let b := Binary.ofDouble x
  if b.significand = 0 then ⟨b.negative, 0, 0, false⟩
  else b.search tie 19 (b.decade + 1)

end Montage.Decimal
