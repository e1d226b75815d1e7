import Montage.Decimal.Numeral

/-!
# Numbers on the command line

Users may write a number with a sign, without digits on one side of the point, and by name when it
is not finite.
-/

namespace Montage

open Decimal (Numeral valueOfDigits)

/-- The values that have names; upper and lower case mean the same. -/
def namedNumber? (text : List Char) : Option Float :=
  match String.ofList (text.map Char.toLower) with
  | "nan" => some (0 / 0)
  | "inf" | "infinity" => some (1 / 0)
  | _ => none

/-- A number without its sign: digits before or after the point, or on both sides. -/
def enteredNumeral? (negative : Bool) (text : List Char) : Option Numeral :=
  let before := text.takeWhile Char.isDigit
  let rest := text.dropWhile Char.isDigit
  let (point, tail) := match rest with
    | '.' :: tail => (true, tail)
    | _ => (false, rest)
  let after := if point then tail.takeWhile Char.isDigit else []
  let rest := if point then tail.dropWhile Char.isDigit else rest
  if before.isEmpty && after.isEmpty then none
  else Numeral.scaled? negative before after point rest

/-- The double nearest to the number that a user wrote. -/
def enteredNumber? (text : String) : Option Float :=
  match text.toList with
  | '-' :: rest => (namedNumber? rest).map (- ·) <|> finite? true rest
  | '+' :: rest => namedNumber? rest <|> finite? false rest
  | rest => namedNumber? rest <|> finite? false rest
where
  finite? (negative : Bool) (rest : List Char) : Option Float :=
    (enteredNumeral? negative rest).map Numeral.toDouble

end Montage
