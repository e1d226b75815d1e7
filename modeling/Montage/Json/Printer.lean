import Montage.Decimal.Style
import Montage.Json.Value

/-!
# Writing JSON

Documents are written compactly, or with one item a line and two spaces for each open bracket.
-/

namespace Montage.Json

open Decimal (Numeral Style)

/-! ## Strings -/

/-- The hexadecimal digits of a number below 256, always two. -/
def hexPair (n : Nat) : String :=
  String.ofList [Nat.digitChar (n / 16), Nat.digitChar (n % 16)]

/-- How a character stands in a string literal: only what has to be escaped is. -/
def escape (c : Char) : String :=
  match c with
  | '"' => "\\\""
  | '\\' => "\\\\"
  | '\n' => "\\n"
  | '\r' => "\\r"
  | '\t' => "\\t"
  | c =>
      if c.toNat = 0x08 then "\\b"
      else if c.toNat = 0x0C then "\\f"
      else if c.toNat < 0x20 then "\\u00" ++ hexPair c.toNat
      else c.toString

/-- A string literal. -/
def quote (s : String) : String :=
  "\"" ++ s.toList.foldl (fun done c => done ++ escape c) "" ++ "\""

/-- The literal of a string; one that names no text is written as the empty string. -/
def quoteLiteral (s : Literal) : String :=
  quote (s.getD "")

/-- A number literal. -/
def renderNumber (n : Numeral) : String :=
  if n.whole then
    (if n.negative then "-" else "") ++ String.ofList (Decimal.digitsOf n.coefficient)
  else Style.stored.render n

/-! ## Documents -/

mutual

/-- A document without any white space. -/
def compact : Json → String
  | .null => "null"
  | .bool b => if b then "true" else "false"
  | .number n => renderNumber n
  | .string s => quoteLiteral s
  | .array items => "[" ++ compactItems items ++ "]"
  | .object members => "\x7b" ++ compactMembers members ++ "\x7d"

/-- Items with commas between them. -/
def compactItems : List Json → String
  | [] => ""
  | [item] => compact item
  | item :: rest => compact item ++ "," ++ compactItems rest

/-- Members with commas between them. -/
def compactMembers : List (Literal × Json) → String
  | [] => ""
  | [(name, value)] => quoteLiteral name ++ ":" ++ compact value
  | (name, value) :: rest =>
      quoteLiteral name ++ ":" ++ compact value ++ "," ++ compactMembers rest

end

/-- A new line, indented for the given number of open brackets. -/
def newLine (depth : Nat) : String :=
  "\n" ++ String.ofList (List.replicate (2 * depth) ' ')

mutual

/-- A document inside `depth` open brackets, with one item a line. -/
def prettyAt (depth : Nat) : Json → String
  | .array [] => "[]"
  | .array (item :: rest) => "[" ++ prettyItems depth (item :: rest) ++ newLine depth ++ "]"
  | .object [] => "\x7b\x7d"
  | .object (member :: rest) =>
      "\x7b" ++ prettyMembers depth (member :: rest) ++ newLine depth ++ "\x7d"
  | .null => "null"
  | .bool b => if b then "true" else "false"
  | .number n => renderNumber n
  | .string s => quoteLiteral s

/-- Items, each on a line of its own. -/
def prettyItems (depth : Nat) : List Json → String
  | [] => ""
  | [item] => newLine (depth + 1) ++ prettyAt (depth + 1) item
  | item :: rest =>
      newLine (depth + 1) ++ prettyAt (depth + 1) item ++ "," ++ prettyItems depth rest

/-- Members, each on a line of its own. -/
def prettyMembers (depth : Nat) : List (Literal × Json) → String
  | [] => ""
  | [(name, value)] =>
      newLine (depth + 1) ++ quoteLiteral name ++ ": " ++ prettyAt (depth + 1) value
  | (name, value) :: rest =>
      newLine (depth + 1) ++ quoteLiteral name ++ ": " ++ prettyAt (depth + 1) value ++ "," ++
        prettyMembers depth rest

end

/-- A document with one item a line. -/
def pretty (j : Json) : String :=
  prettyAt 0 j

end Montage.Json
