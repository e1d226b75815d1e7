import Montage.Storage.FileTree
import Montage.Storage.Host

/-!
# Machines as values

A host whose whole state is a value, so that a run of the program is a function from one machine to
the next.
-/

namespace Montage

/-- All that the program can see and change. -/
structure Machine where
  files : FileTree
  /-- The paths that may be read but not written. -/
  guarded : List String
  environment : List (String × String)
  /-- The time, which stands still. -/
  clock : String
  /-- What comes of a request. -/
  network : Request → Reply
  output : String
  complaints : String

namespace Machine

/-- A machine with some files, where nothing has run and the network leads nowhere. -/
def ofFiles (files : FileTree) (clock : String) : Machine where
  files := files
  guarded := []
  environment := []
  clock := clock
  network := unreachable
  output := ""
  complaints := ""

/--
Changes the files, unless the change is refused. A change that is refused is taken to leave the files
as they were, where a real one may have emptied its file before it failed.
-/
def change (next : Machine → Except FileFault FileTree) : StateM Machine (Except FileFault Unit) :=
  fun machine =>
    match next machine with
    | .error fault => (.error fault, machine)
    | .ok files => (.ok (), { machine with files })

/-- Fills a file that is not guarded, with the whole text or, if that is refused, not at all. -/
def write (path text : String) (machine : Machine) : Except FileFault FileTree :=
  if machine.guarded.contains path then .error .denied else machine.files.write path text

end Machine

instance : Host (StateM Machine) where
  readText path := do return (← get).files.read path
  readContent path := do return ((← get).files.read path).map String.toUTF8
  writeText path text := Machine.change (Machine.write path text)
  touch path := Machine.change fun machine => machine.files.touch path
  makeFolder path := Machine.change fun machine => machine.files.makeFolder path
  has path := do return ((← get).files.at? path).isSome
  isFolder path := do return (← get).files.at? path = some .folder
  environment? name := do return (← get).environment.lookup name
  now := do return (← get).clock
  post request := do return (← get).network request
  say line := modify fun machine => { machine with output := machine.output ++ line ++ "\n" }
  complain line :=
    modify fun machine => { machine with complaints := machine.complaints ++ line ++ "\n" }

end Montage
