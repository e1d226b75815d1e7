import Montage.Json.Value

/-!
# Reading JSON

Reading is two machines in a row, each a fold over its input: one gathers characters into tokens,
the other gathers tokens into a document with a stack of the brackets that are open. Nesting
therefore has no limit.
-/

namespace Montage.Json

open Decimal (Numeral)

/-! ## Tokens -/

/-- The smallest parts of a document. -/
inductive Token
  | openArray
  | closeArray
  | openObject
  | closeObject
  | comma
  | colon
  | null
  | bool (value : Bool)
  | number (value : Numeral)
  | string (value : Literal)
deriving DecidableEq, Repr

/--
The characters named by code points in which surrogates stand for themselves: a high one must be
followed by a low one, and the two name one character. The first characters are given in reverse.
-/
def charsOfUnits (first : List Char) : List Nat → Option (List Char)
  | [] => some first.reverse
  | unit :: rest =>
      if 0xD800 ≤ unit && unit ≤ 0xDBFF then
        match rest with
        | low :: rest =>
            if 0xDC00 ≤ low && low ≤ 0xDFFF then
              let c := Char.ofNat (0x10000 + (unit - 0xD800) * 0x400 + (low - 0xDC00))
              charsOfUnits (c :: first) rest
            else none
        | [] => none
      else if 0xDC00 ≤ unit && unit ≤ 0xDFFF then none
      else charsOfUnits (Char.ofNat unit :: first) rest

/-- The text that code points name, if they name one. -/
def textOfUnits (units : List Nat) : Literal :=
  (charsOfUnits [] units).map String.ofList

/-- What the character after a backslash stands for, `u` apart. -/
def escaped? : Char → Option Nat
  | '"' => some 0x22
  | '\\' => some 0x5C
  | '/' => some 0x2F
  | 'b' => some 0x08
  | 'f' => some 0x0C
  | 'n' => some 0x0A
  | 'r' => some 0x0D
  | 't' => some 0x09
  | _ => none

/-- The value of a hexadecimal digit. -/
def hexDigit? (c : Char) : Option Nat :=
  if c.isDigit then some (c.toNat - '0'.toNat)
  else if 'a' ≤ c && c ≤ 'f' then some (c.toNat - 'a'.toNat + 10)
  else if 'A' ≤ c && c ≤ 'F' then some (c.toNat - 'A'.toNat + 10)
  else none

/-- Where the lexer stands; what has been gathered is kept with its last part first. -/
inductive Lexing
  | between
  | word (letters : List Char)
  | number (literal : List Char)
  | string (units : List Nat)
  | escape (units : List Nat)
  | code (units : List Nat) (value : Nat) (missing : Nat)
deriving Repr

namespace Lexing

/-- The white space that JSON allows between tokens. -/
def isSpace (c : Char) : Bool :=
  c = ' ' || c = '\n' || c = '\t' || c = '\r'

/-- The characters that number literals are made of. -/
def isNumberPart (c : Char) : Bool :=
  c.isDigit || c = '+' || c = '-' || c = '.' || c = 'e' || c = 'E'

/-- A character between tokens: it is a token, or it begins one. -/
def start? (c : Char) : Option (Lexing × List Token) :=
  match c with
  | '[' => some (.between, [.openArray])
  | ']' => some (.between, [.closeArray])
  | '\x7b' => some (.between, [.openObject])
  | '\x7d' => some (.between, [.closeObject])
  | ',' => some (.between, [.comma])
  | ':' => some (.between, [.colon])
  | '"' => some (.string [], [])
  | c =>
      if isSpace c then some (.between, [])
      else if c.isDigit || c = '-' then some (.number [c], [])
      else if c.isAlpha then some (.word [c], [])
      else none

/-- The token that a run of letters is. -/
def wordToken? (letters : List Char) : Option Token :=
  match String.ofList letters with
  | "null" => some .null
  | "true" => some (.bool true)
  | "false" => some (.bool false)
  | _ => none

/-- The token that ends where the lexer stands, if it may end there. -/
def close? : Lexing → Option (List Token)
  | .between => some []
  | .word letters => (wordToken? letters.reverse).map ([·])
  | .number literal => (Numeral.parse? literal.reverse).map ([.number ·])
  | _ => none

/-- One character: the new standing, and the tokens that it completes. -/
def step? (at_ : Lexing) (c : Char) : Option (Lexing × List Token) :=
  match at_ with
  | .string units =>
      if c = '"' then some (.between, [.string (textOfUnits units.reverse)])
      else if c = '\\' then some (.escape units, [])
      else if c.toNat < 0x20 then none
      else some (.string (c.toNat :: units), [])
  | .escape units =>
      if c = 'u' then some (.code units 0 4, [])
      else (escaped? c).map fun unit => (.string (unit :: units), [])
  | .code units value missing =>
      (hexDigit? c).map fun digit =>
        let value := 16 * value + digit
        if missing ≤ 1 then (.string (value :: units), [])
        else (.code units value (missing - 1), [])
  | .word letters => if c.isAlpha then some (.word (c :: letters), []) else next at_ c
  | .number literal => if isNumberPart c then some (.number (c :: literal), []) else next at_ c
  | .between => start? c
where
  next (at_ : Lexing) (c : Char) : Option (Lexing × List Token) := do
    let done ← at_.close?
    let (lexing, tokens) ← start? c
    return (lexing, done ++ tokens)

end Lexing

/-- The tokens of a text. -/
def tokens? (cs : List Char) : Option (List Token) := do
  let (lexing, done) ← cs.foldlM feed (Lexing.between, ([] : List Token))
  let last ← lexing.close?
  return (last.reverse ++ done).reverse
where
  feed (state : Lexing × List Token) (c : Char) : Option (Lexing × List Token) := do
    let (lexing, tokens) ← state.1.step? c
    return (lexing, tokens.reverse ++ state.2)

/-! ## Documents -/

/-- A bracket that is open, with what stands in it so far, last part first. -/
inductive Open
  | array (items : List Json)
  | object (members : List (Literal × Json)) (label : Literal)

/-- What may come next. -/
inductive Reading
  /-- A value, or the end of an array that is still empty. -/
  | value (stack : List Open) (mayClose : Bool)
  /-- A member's name, or the end of an object that is still empty. -/
  | member (stack : List Open) (members : List (Literal × Json)) (mayClose : Bool)
  /-- The colon after a member's name. -/
  | colon (stack : List Open) (members : List (Literal × Json)) (label : Literal)
  /-- Whatever may follow a complete value. -/
  | complete (stack : List Open) (value : Json)

namespace Reading

/-- One token: what may come after it. -/
def step? (state : Reading) (token : Token) : Option Reading :=
  match state, token with
  | .value stack _, .null => some (.complete stack .null)
  | .value stack _, .bool b => some (.complete stack (.bool b))
  | .value stack _, .number n => some (.complete stack (.number n))
  | .value stack _, .string s => some (.complete stack (.string s))
  | .value stack _, .openArray => some (.value (.array [] :: stack) true)
  | .value stack _, .openObject => some (.member stack [] true)
  | .value (.array items :: stack) true, .closeArray =>
      some (.complete stack (.array items.reverse))
  | .member stack members _, .string s => some (.colon stack members s)
  | .member stack members true, .closeObject => some (.complete stack (.object members.reverse))
  | .colon stack members label, .colon => some (.value (.object members label :: stack) false)
  | .complete (.array items :: stack) v, .comma => some (.value (.array (v :: items) :: stack) false)
  | .complete (.array items :: stack) v, .closeArray =>
      some (.complete stack (.array (v :: items).reverse))
  | .complete (.object members label :: stack) v, .comma =>
      some (.member stack ((label, v) :: members) false)
  | .complete (.object members label :: stack) v, .closeObject =>
      some (.complete stack (.object ((label, v) :: members).reverse))
  | _, _ => none

/-- The document, once it is complete and no bracket is open. -/
def result? : Reading → Option Json
  | .complete [] v => some v
  | _ => none

end Reading

/-- The document that a sequence of tokens is. -/
def ofTokens? (tokens : List Token) : Option Json := do
  (← tokens.foldlM Reading.step? (.value [] false)).result?

/-- The document that a text is; nothing but white space may stand around it. -/
def parse? (text : String) : Option Json :=
  tokens? text.toList >>= ofTokens?

end Montage.Json
