/-!
# Paths

Paths are texts with slashes. Empty parts and single dots in them say nothing.
-/

namespace Montage.Text

/-- A text without the given character at its end. -/
def trimRight (drop : Char) (text : String) : String :=
  String.ofList (text.toList.reverse.dropWhile (· = drop)).reverse

/-- A text without the given character at its head. -/
def trimLeft (drop : Char) (text : String) : String :=
  String.ofList (text.toList.dropWhile (· = drop))

namespace Path

/-- The parts of a path that say something, `..` included. -/
def parts (path : String) : List String :=
  (path.splitOn "/").filter fun part => part ≠ "" && part ≠ "."

/-- Whether a path starts at the root. -/
def isAbsolute (path : String) : Bool :=
  path.startsWith "/"

/-- One path under another; an absolute one stands by itself. -/
def join (base path : String) : String :=
  if isAbsolute path || base = "" then path
  else if base.endsWith "/" then base ++ path
  else base ++ "/" ++ path

/-- The last part of a path, unless that leads upwards. -/
def fileName? (path : String) : Option String :=
  match (parts path).getLast? with
  | some ".." => none
  | last => last

/-- The part of a file name after its last dot, unless that dot leads the name. -/
def extension? (path : String) : Option String := do
  let name ← fileName? path
  let after := name.toList.reverse.takeWhile (· ≠ '.')
  if after.length + 1 < name.length then some (String.ofList after.reverse) else none

/-- The path that is made of the given parts. -/
def ofParts (absolute : Bool) (parts : List String) : String :=
  (if absolute then "/" else "") ++ "/".intercalate parts

/-- The path of the folder that holds a path. -/
def parent (path : String) : String :=
  ofParts (isAbsolute path) (parts path).dropLast

/-- The paths of the folders that lead to a path, nearest first. -/
def ancestors (path : String) : List String :=
  let kept := (parts path).dropLast
  (List.range kept.length).map fun n => ofParts (isAbsolute path) (kept.take (kept.length - n))

end Path

end Montage.Text
