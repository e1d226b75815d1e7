import Montage.Decimal.Shortest

/-!
# Written numbers

How a number is written is a value: where positional notation ends, what marks a whole number,
and which way a tie goes. Stored documents and messages each have their style.
-/

namespace Montage.Decimal

/-- How the digits of a number are laid out. -/
structure Style where
  /-- The places that the leading digit may take in positional notation; `none` is no limit. -/
  positional : Option (Int × Int)
  /-- What a whole number ends with. -/
  wholeMark : String
  /-- Which of two equally near shortest decimals is written. -/
  tie : Tie

namespace Style

/--
In stored documents the notation is positional from a hundred-thousandth up to ten to the
sixteenth, and a whole number keeps one decimal.
-/
def stored : Style := ⟨some (-5, 15), ".0", .even⟩

/-- In messages the notation is always positional, and a whole number has no decimals. -/
def message : Style := ⟨none, "", .up⟩

/-- The digits with a point after `place + 1` of them, and zeros where there are none. -/
def placed (style : Style) (digits : List Char) (place : Int) : String :=
  if place < 0 then
    "0." ++ String.ofList (List.replicate (-place - 1).toNat '0' ++ digits)
  else
    let before := place.toNat + 1
    if digits.length ≤ before then
      String.ofList (digits ++ List.replicate (before - digits.length) '0') ++ style.wholeMark
    else
      String.ofList (digits.take before) ++ "." ++ String.ofList (digits.drop before)

/-- The digits with a point after the first one, and a signed power of ten. -/
def powered (digits : List Char) (place : Int) : String :=
  let head := String.ofList (digits.take 1)
  let tail := digits.drop 1
  let fraction := if tail.isEmpty then "" else "." ++ String.ofList tail
  let sign := if place < 0 then "-" else "+"
  head ++ fraction ++ "e" ++ sign ++ String.ofList (digitsOf place.natAbs)

/-- The text of a numeral. -/
def render (style : Style) (n : Numeral) : String :=
  let sign := if n.negative then "-" else ""
  if n.coefficient = 0 then sign ++ "0" ++ style.wholeMark
  else
    let digits := digitsOf n.coefficient
    let place : Int := digits.length + n.exponent - 1
    match style.positional with
    | none => sign ++ style.placed digits place
    | some (least, most) =>
        if least ≤ place && place ≤ most then sign ++ style.placed digits place
        else sign ++ powered digits place

end Style

/-! ## Numbers in messages -/

/-- What stands for a value that is not finite. -/
def nonFiniteText (x : Float) : String :=
  if x.isNaN then "NaN" else if x < 0 then "-inf" else "inf"

/-- A double in a message. -/
def messageText (x : Float) : String :=
  if x.isFinite then Style.message.render (shortest Style.message.tie x) else nonFiniteText x

/-! ## Fixed places -/

/-- The quotient rounded to the nearest whole number; a half goes to the even neighbour. -/
def roundDiv (num den : Nat) : Nat :=
  let q := num / den
  let r := num % den
  if 2 * r < den then q
  else if den < 2 * r then q + 1
  else q + q % 2

/-- A double with the given number of decimals, rounded from its exact value. -/
def fixed (places : Nat) (x : Float) : String :=
  if x.isFinite then
    let b := Binary.ofDouble x
    let (num, den) := b.unit
    let digits := digitsOf (roundDiv (b.significand * num * Nat.pow 10 places) den)
    let padded := List.replicate (places + 1 - digits.length) '0' ++ digits
    let before := padded.length - places
    let fraction := if places = 0 then "" else "." ++ String.ofList (padded.drop before)
    (if b.negative then "-" else "") ++ String.ofList (padded.take before) ++ fraction
  else nonFiniteText x

/-- A double with the given number of decimals, and a sign also when it is not negative. -/
def signedFixed (places : Nat) (x : Float) : String :=
  let text := fixed places x
  if x.isNaN || text.startsWith "-" then text else "+" ++ text

end Montage.Decimal
