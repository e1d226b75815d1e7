import Montage.Failure
import Montage.Text.Path

/-!
# File trees

Files and folders as values, with the refusals that a file system gives. A path is followed step by
step, and every step has to start from a folder. Which refusal comes first when several apply is
part of the rules.
-/

namespace Montage

/-- What stands at a path. -/
inductive Entry
  | folder
  | file (text : String)
deriving DecidableEq, Repr

/-- Files and folders, each under the names that lead to it from the root, which is always there. -/
structure FileTree where
  entries : List (List String × Entry)
  /-- The names of the folder that a path starts from unless it starts with a slash. -/
  here : List String := []
deriving Repr

namespace FileTree

/-- A tree with nothing in it. -/
def empty : FileTree := { entries := [] }

/-- What stands under the given names. -/
def entry? (tree : FileTree) (names : List String) : Option Entry :=
  if names.isEmpty then some .folder else tree.entries.lookup names

/-- Puts an entry under the given names. -/
def put (tree : FileTree) (names : List String) (entry : Entry) : FileTree :=
  { tree with entries := place tree.entries }
where
  place : List (List String × Entry) → List (List String × Entry)
    | [] => [(names, entry)]
    | held :: rest => if held.1 = names then (names, entry) :: rest else held :: place rest

/-! ## Following paths -/

/-- The greatest number of bytes that a name may have. -/
def nameLimit : Nat := 255

/-- The greatest number of bytes that a path may have. -/
def pathLimit : Nat := 4095

/-- Refuses a text that cannot be a path. -/
def checkPath (path : String) : Except FileFault Unit :=
  if path.toList.contains '\x00' then .error .nulInPath
  else if path = "" then .error .notFound
  else if pathLimit < path.utf8ByteSize then .error .nameTooLong
  else .ok ()

/-- Refuses names under which no folder stands. -/
def expectFolder (tree : FileTree) (names : List String) : Except FileFault Unit :=
  match tree.entry? names with
  | none => .error .notFound
  | some (.file _) => .error .notFolder
  | some .folder => .ok ()

/-- The names after one more step; the last of them need not be there. -/
def step (tree : FileTree) (names : List String) (step : String) :
    Except FileFault (List String) := do
  tree.expectFolder names
  if step = "" || step = "." then return names
  else if step = ".." then return names.dropLast
  else if nameLimit < step.utf8ByteSize then throw .nameTooLong
  else return names ++ [step]

/-- The names after some steps from where a path starts. -/
def follow (tree : FileTree) (path : String) (steps : List String) :
    Except FileFault (List String) :=
  steps.foldlM tree.step (if Text.Path.isAbsolute path then [] else tree.here)

/-- The names that a path leads to. What stands before a slash has to be a folder. -/
def locate (tree : FileTree) (path : String) : Except FileFault (List String) := do
  checkPath path
  tree.follow path (path.splitOn "/")

/-- What stands at a path. -/
def at? (tree : FileTree) (path : String) : Option Entry :=
  match tree.locate path with
  | .ok names => tree.entry? names
  | .error _ => none

/-- The text of a file. -/
def read (tree : FileTree) (path : String) : Except FileFault String := do
  match tree.entry? (← tree.locate path) with
  | none => throw .notFound
  | some .folder => throw .isFolder
  | some (.file text) => return text

/-! ## Making files and folders -/

/--
The names of something new at a path. A path that ends with a dot, or with a slash where none may
stand, names a folder, which is refused in the given way.
-/
def claim (tree : FileTree) (path : String) (slashes : Bool) (refusal : FileFault) :
    Except FileFault (List String) := do
  checkPath path
  let steps := (path.splitOn "/").filter (· ≠ "")
  let folder ← tree.follow path steps.dropLast
  tree.expectFolder folder
  match steps.getLast? with
  | none | some "." | some ".." => throw refusal
  | some name =>
      if !slashes && path.endsWith "/" then throw refusal
      tree.step folder name

/-- The names of the file that writing to a path fills. -/
def target (tree : FileTree) (path : String) : Except FileFault (List String) := do
  let names ← tree.claim path false .isFolder
  if tree.entry? names = some .folder then throw .isFolder
  return names

/-- Fills a file, which need not be there yet. -/
def write (tree : FileTree) (path text : String) : Except FileFault FileTree := do
  return tree.put (← tree.target path) (.file text)

/-- Makes sure that a file is there, and leaves it as it is. -/
def touch (tree : FileTree) (path : String) : Except FileFault FileTree := do
  let names ← tree.target path
  return if (tree.entry? names).isSome then tree else tree.put names (.file "")

/-- Makes a folder where nothing stands yet, in a folder that is there. -/
def makeFolder (tree : FileTree) (path : String) : Except FileFault FileTree := do
  let names ← tree.claim path true .alreadyExists
  if (tree.entry? names).isSome then throw .alreadyExists
  return tree.put names .folder

/-! ## Listing -/

/-- The texts of the files below the folder that paths start from, with their paths from there. -/
def texts (tree : FileTree) : List (String × String) :=
  tree.entries.filterMap fun (names, entry) =>
    match entry with
    | .folder => none
    | .file text =>
        if tree.here.isPrefixOf names then
          some ("/".intercalate (names.drop tree.here.length), text)
        else none

end FileTree

end Montage
