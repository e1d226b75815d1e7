/-!
# Decimal numerals

A numeral is what a number literal says: a sign, a coefficient and a power of ten. It keeps apart
what a double would confuse, such as `2` and `2.0`, and it may name numbers no double can hold.
-/

namespace Montage.Decimal

/-! ## Runs of digits -/

/-- The number that a run of decimal digits names. -/
def valueOfDigits (digits : List Char) : Nat :=
  digits.foldl (fun value c => 10 * value + (c.toNat - '0'.toNat)) 0

/-- The decimal digits of a number, without leading zeros. -/
def digitsOf (n : Nat) : List Char :=
  Nat.toDigits 10 n

/-- A non-empty run of digits at the head, and what follows it. -/
def takeDigits? (cs : List Char) : Option (List Char × List Char) :=
  match cs.takeWhile Char.isDigit with
  | [] => none
  | run => some (run, cs.dropWhile Char.isDigit)

/-! ## Numerals -/

/-- The number `±coefficient · 10 ^ exponent`, and whether it was written as a whole number. -/
structure Numeral where
  negative : Bool
  coefficient : Nat
  exponent : Int
  whole : Bool
deriving DecidableEq, Repr, Inhabited

namespace Numeral

/-- The numeral of a whole number. -/
def ofInt (n : Int) : Numeral :=
  ⟨n < 0, n.natAbs, 0, true⟩

/-- The number, if it was written as a whole number; a negative zero is none. -/
def toInt? (n : Numeral) : Option Int :=
  match n.whole, n.negative with
  | false, _ => none
  | true, false => some n.coefficient
  | true, true => if n.coefficient = 0 then none else some (-(n.coefficient : Int))

/-! ## Reading -/

/-- A signed run of digits that is the whole text. -/
def exponent? (cs : List Char) : Option Int :=
  match cs with
  | '-' :: rest => magnitude rest |>.map (- ·)
  | '+' :: rest => magnitude rest
  | rest => magnitude rest
where
  magnitude (cs : List Char) : Option Int :=
    match takeDigits? cs with
    | some (run, []) => some (valueOfDigits run)
    | _ => none

/-- The numeral of a run of digits times a power of ten; zeros at its end go into the power. -/
def ofDigits (negative : Bool) (digits : List Char) (exponent : Int) : Numeral :=
  let kept := (digits.reverse.dropWhile (· = '0')).reverse
  if kept.isEmpty then ⟨negative, 0, 0, false⟩
  else ⟨negative, valueOfDigits kept, exponent + (digits.length - kept.length), false⟩

/-- The numeral with the given sign and digits before and after the point, and what follows. -/
def scaled? (negative : Bool) (before after : List Char) (point : Bool) (rest : List Char) :
    Option Numeral :=
  match rest with
  | [] =>
      if point then some (ofDigits negative (before ++ after) (-after.length))
      else some ⟨negative, valueOfDigits before, 0, true⟩
  | c :: tail =>
      if c = 'e' || c = 'E' then
        (exponent? tail).map fun e => ofDigits negative (before ++ after) (e - after.length)
      else none

/-- A numeral without its sign: no leading zeros, digits on both sides of a point. -/
def unsigned? (negative : Bool) (cs : List Char) : Option Numeral := do
  let (before, rest) ← takeDigits? cs
  if before.head? = some '0' && before.length > 1 then none
  match rest with
  | '.' :: tail => do
      let (after, rest) ← takeDigits? tail
      scaled? negative before after true rest
  | _ => scaled? negative before [] false rest

/-- Reads a JSON number literal. -/
def parse? (cs : List Char) : Option Numeral :=
  match cs with
  | '-' :: rest => unsigned? true rest
  | rest => unsigned? false rest

/-! ## The nearest double -/

/-- The double nearest to the number; infinite beyond the greatest one. -/
def toDouble (n : Numeral) : Float :=
  let magnitude : Int := (digitsOf n.coefficient).length + n.exponent
  let size :=
    if n.coefficient = 0 || magnitude < -400 then 0
    else if magnitude > 400 then 1 / 0
    else if n.exponent < 0 then Float.ofScientific n.coefficient true n.exponent.natAbs
    else Float.ofScientific n.coefficient false n.exponent.natAbs
  if n.negative then -size else size

end Numeral

end Montage.Decimal
