import Montage.Clip

/-!
# Fresh ids

New clips and projects need names that nothing else has. A supply is an endless sequence of names
and how many of them have been taken.
-/

namespace Montage

/-- An endless sequence of names, the first `used` of which are taken. -/
structure IdSupply where
  name : Nat → String
  used : Nat

namespace IdSupply

/-- The next name. -/
def next (ids : IdSupply) : String :=
  ids.name ids.used

/-- The supply after some more names are taken. -/
def skip (ids : IdSupply) (count : Nat) : IdSupply :=
  { ids with used := ids.used + count }

/-- Takes the next name. -/
def take (ids : IdSupply) : String × IdSupply :=
  (ids.next, ids.skip 1)

/-- No name comes twice, and none that is still to come is in use. -/
structure Fresh (ids : IdSupply) (inUse : String → Prop) : Prop where
  injective : ∀ m n, ids.name m = ids.name n → m = n
  unused : ∀ n, ids.used ≤ n → ¬ inUse (ids.name n)

/-- The names that number the ids of one run, in the layout of a random id of version four. -/
def numbered (used : Nat) : IdSupply where
  name n :=
    let digits := Nat.toDigits 10 n
    "00000000-0000-4000-8000-" ++ String.ofList (List.replicate (12 - digits.length) '0' ++ digits)
  used := used

/-- The last so many hexadecimal digits of a number. -/
def hexDigits (count n : Nat) : List Char :=
  let digits := Nat.toDigits 16 (n % Nat.pow 16 count)
  List.replicate (count - digits.length) '0' ++ digits

/-- The names that count on from a number, which had better be random, in the same layout. -/
def seeded (seed : Nat) : IdSupply where
  name n :=
    let digits := hexDigits 30 (seed + n)
    let part (start count : Nat) := String.ofList ((digits.drop start).take count)
    part 0 8 ++ "-" ++ part 8 4 ++ "-4" ++ part 12 3 ++ "-8" ++ part 15 3 ++ "-" ++ part 18 12
  used := 0

end IdSupply

end Montage
