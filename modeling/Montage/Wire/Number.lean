import Montage.Decimal.Shortest
import Montage.Json.Value

/-!
# Numbers in documents
-/

namespace Montage

/-- Numbers that documents can hold. -/
class WireNumber (α : Type) where
  toJson : α → Json
  ofJson? : Json → Option α

/-- A finite double is its shortest numeral, and any other is `null`, which is read as none. -/
instance : WireNumber Float where
  toJson x := if x.isFinite then .number (Decimal.shortest .even x) else .null
  ofJson? j := do
    let x := (← j.numeral?).toDouble
    if x.isFinite then some x else none

end Montage
