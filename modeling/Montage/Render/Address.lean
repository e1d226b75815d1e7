/-!
# Addresses

The addresses that requests go to. Whatever spelling an address came in, it is shown in one form:
small letters in the scheme and the host, no port that goes without saying, no dots that lead
nowhere, and escapes for what an address cannot hold.
-/

namespace Montage

/-- A place that speaks HTTP. -/
structure Address where
  /-- Whether the exchange is encrypted. -/
  secure : Bool
  host : String
  /-- The port, unless it is the usual one. -/
  port? : Option Nat
  /-- The parts of the path, escaped. -/
  path : List String
  /-- What follows the path from its `?` or `#` on, escaped. -/
  detail : String
deriving DecidableEq, Repr

/-- Why no request can go to what a text names. -/
inductive AddressFault
  /-- The text names a place only within another. -/
  | relative
  | emptyHost
  | badHost
  | badPort
  /-- The place speaks something else than HTTP. -/
  | otherScheme (address : String)
deriving DecidableEq, Repr

/-- What the request's sender says about it. -/
def AddressFault.message : AddressFault → String
  | relative => "builder error: relative URL without a base"
  | emptyHost => "builder error: empty host"
  | badHost => "builder error: invalid international domain name"
  | badPort => "builder error: invalid port number"
  | otherScheme address => s!"builder error for url ({address}): URL scheme is not allowed"

namespace Address

/-! ## Escapes -/

/-- One byte as an escape. -/
def escape (byte : UInt8) : List Char :=
  let digit (n : Nat) : Char := (n.digitChar).toUpper
  ['%', digit (byte.toNat / 16), digit (byte.toNat % 16)]

/-- A text whose control characters, letters beyond ASCII and characters of a set are escaped. -/
def escaped (set : List Char) (text : List Char) : String :=
  String.ofList (text.flatMap fun c =>
    if c.toNat < 0x20 || 0x7E < c.toNat || c ∈ set then c.toString.toUTF8.toList.flatMap escape
    else [c])

/-- What a path cannot hold. -/
def pathSet : List Char := [' ', '"', '#', '<', '>', '?', '`', '\x7b', '\x7d']

/-- What a query cannot hold. -/
def querySet : List Char := [' ', '"', '#', '<', '>', '\'']

/-- What a fragment cannot hold. -/
def fragmentSet : List Char := [' ', '"', '<', '>', '`']

/-! ## Paths -/

/-- Whether a part of a path leads back to the folder above. -/
def leadsUp (part : String) : Bool :=
  part.toLower ∈ ["..", ".%2e", "%2e.", "%2e%2e"]

/-- Whether a part of a path leads nowhere. -/
def staysHere (part : String) : Bool :=
  part.toLower ∈ [".", "%2e"]

/-- The parts of a path without those that only lead around; the parts above them come backwards.
A path that ends in such a part ends in a slash. -/
def resolve (above : List String) : List String → List String
  | [] => above.reverse
  | part :: rest =>
      let after := if leadsUp part then above.tail else if staysHere part then above
        else part :: above
      if rest.isEmpty && (leadsUp part || staysHere part) then ("" :: after).reverse
      else resolve after rest

/-- Whether a character ends a part of a path. -/
def isSlash (c : Char) : Bool := c = '/' || c = '\\'

/-- The parts of a path as it is written. -/
def pathOf (text : List Char) : List String :=
  let parts := (text.splitOnP isSlash).map (escaped pathSet)
  resolve [] (if (text.head?.map isSlash).getD false then parts.drop 1 else parts)

/-- What follows a path, as it is written. -/
def detailOf (text : List Char) : String :=
  let (query, fragment) := (text.takeWhile (· ≠ '#'), text.dropWhile (· ≠ '#'))
  let shown (mark : Char) (set text : List Char) : String :=
    if text.isEmpty then "" else mark.toString ++ escaped set (text.drop 1)
  shown '?' querySet query ++ shown '#' fragmentSet fragment

/-! ## Reading and writing -/

/-- The port that goes without saying. -/
def usualPort (secure : Bool) : Nat := if secure then 443 else 80

/-- The port that follows a host, unless it is the usual one. -/
def portOf (secure : Bool) (text : List Char) : Except AddressFault (Option Nat) :=
  let digits := text.drop 1
  let port := digits.foldl (fun n c => n * 10 + (c.toNat - '0'.toNat)) 0
  if !digits.all Char.isDigit || 65535 < port then .error .badPort
  else .ok (if digits.isEmpty || port = usualPort secure then none else some port)

/-- What no host can hold. -/
def hostSet : List Char := [' ', '%', '<', '>', '[', ']', '^', '|']

/-- The address that follows a scheme. -/
def ofRest (secure : Bool) (text : List Char) : Except AddressFault Address := do
  let text := text.dropWhile isSlash
  let endsPlace (c : Char) : Bool := isSlash c || c = '?' || c = '#'
  let (place, rest) := (text.takeWhile (!endsPlace ·), text.dropWhile (!endsPlace ·))
  let place := (place.reverse.takeWhile (· ≠ '@')).reverse
  let (host, port) := (place.takeWhile (· ≠ ':'), place.dropWhile (· ≠ ':'))
  if host.isEmpty then throw .emptyHost
  if host.any fun c => c.toNat < 0x20 || c.toNat = 0x7F || c ∈ hostSet then throw .badHost
  let port? ← portOf secure port
  let endsPath (c : Char) : Bool := c = '?' || c = '#'
  return ⟨secure, (String.ofList host).toLower, port?, pathOf (rest.takeWhile (!endsPath ·)),
    detailOf (rest.dropWhile (!endsPath ·))⟩

/-- The characters of a text that count in an address. -/
def counting (text : String) : List Char :=
  let blank (c : Char) : Bool := c.toNat ≤ 0x20
  let trimmed := ((text.toList.dropWhile blank).reverse.dropWhile blank).reverse
  trimmed.filter fun c => c ≠ '\t' && c ≠ '\n' && c ≠ '\r'

/-- The address that a text names. -/
def ofText (text : String) : Except AddressFault Address :=
  let text := counting text
  let inScheme (c : Char) : Bool := c.isAlphanum || c = '+' || c = '-' || c = '.'
  let scheme := (String.ofList (text.takeWhile inScheme)).toLower
  match text.head?.map Char.isAlpha, text.dropWhile inScheme with
  | some true, ':' :: rest =>
      if scheme = "http" then ofRest false rest
      else if scheme = "https" then ofRest true rest
      else .error (.otherScheme (scheme ++ ":" ++ escaped [] rest))
  | _, _ => .error .relative

/-- The one form in which an address is shown. -/
def text (address : Address) : String :=
  (if address.secure then "https" else "http") ++ "://" ++ address.host
    ++ (address.port?.map fun port => ":" ++ Nat.repr port).getD ""
    ++ "/" ++ "/".intercalate address.path ++ address.detail

example : resolve [] ["a", "..", "b", "."] = ["b", ""] := by cbv

example : escaped pathSet ['a', ' ', 'é'] = "a%20%C3%A9" := by cbv

end Address

end Montage
