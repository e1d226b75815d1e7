import Montage.Decimal.Numeral

/-!
# JSON documents

A document keeps everything that its text says: the order of members, repeated names, and number
literals in full. A string literal whose escapes hold half of a surrogate pair is well-formed JSON
but names no text; it may stand where nobody asks for its content.
-/

namespace Montage

open Decimal (Numeral)

/-- What a string literal names; `none` when half of a surrogate pair stands alone in it. -/
abbrev Literal := Option String

/-- A JSON document. -/
inductive Json
  | null
  | bool (value : Bool)
  | number (value : Numeral)
  | string (value : Literal)
  | array (items : List Json)
  | object (members : List (Literal × Json))
deriving Repr, Inhabited

namespace Json

/-- A string with the given content. -/
def str (s : String) : Json := .string (some s)

/-- A whole number. -/
def int (n : Int) : Json := .number (Numeral.ofInt n)

/-- An object with well-formed names. -/
def record (members : List (String × Json)) : Json :=
  .object (members.map fun (name, value) => (some name, value))

/-! ## Typed readings -/

/-- The content of a string. -/
def text? : Json → Option String
  | .string s => s
  | _ => none

/-- A truth value. -/
def bool? : Json → Option Bool
  | .bool b => some b
  | _ => none

/-- A number literal. -/
def numeral? : Json → Option Numeral
  | .number n => some n
  | _ => none

/-- A whole number from the given range; `2.0` is not whole. -/
def intIn? (least greatest : Int) (j : Json) : Option Int := do
  let n ← (← j.numeral?).toInt?
  if least ≤ n && n ≤ greatest then some n else none

/-- A whole number of 32 bits. -/
def word32? (j : Json) : Option UInt32 :=
  (j.intIn? 0 0xFFFFFFFF).map fun n => .ofNat n.toNat

/-- A whole number of 64 bits. -/
def word64? (j : Json) : Option UInt64 :=
  (j.intIn? 0 0xFFFFFFFFFFFFFFFF).map fun n => .ofNat n.toNat

/-- A signed whole number of 32 bits. -/
def signed32? (j : Json) : Option Int32 :=
  (j.intIn? (-0x80000000) 0x7FFFFFFF).map .ofInt

/-- An array whose items can all be read. -/
def list? {β : Type} (read? : Json → Option β) : Json → Option (List β)
  | .array items => items.mapM read?
  | _ => none

/-- Any value or `null`. -/
def nullable? {β : Type} (read? : Json → Option β) : Json → Option (Option β)
  | .null => some none
  | j => (read? j).map some

/--
The name of a case without content: a string, or an object with that single name and a `null`.
-/
def caseName? : Json → Option String
  | .string s => s
  | .object [(name, .null)] => name
  | _ => none

/-! ## Records -/

/-- The known fields that a document gives, each at most once. -/
abbrev Fields := List (String × Json)

/--
The fields of a record: an object in which no known name is repeated, unknown names being skipped,
or an array of the fields' values in order.
-/
def fields? (names : List String) : Json → Option Fields
  | .object members => do
      let named ← members.mapM fun (name, value) => name.map (·, value)
      let known := named.filter fun (name, _) => names.contains name
      if (known.map Prod.fst).Nodup then some known else none
  | .array items => if items.length ≤ names.length then some (names.zip items) else none
  | _ => none

namespace Fields

variable {β : Type}

/-- A field that has to be there. -/
def need (fields : Fields) (name : String) (read? : Json → Option β) : Option β :=
  fields.lookup name >>= read?

/-- A field with a value to fall back on when it is not there. -/
def orElse (fields : Fields) (name : String) (default : β) (read? : Json → Option β) : Option β :=
  match fields.lookup name with
  | none => some default
  | some value => read? value

end Fields

end Json

end Montage
