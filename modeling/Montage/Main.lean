import Montage.Command.Run
import Std.Time.Format

/-!
# The program

The host is the machine that the program runs on. It carries no network, so that every request to
the render service is lost.
-/

namespace Montage

/-- The number of a system error, which may be given with its sign turned. -/
def errorNumber (code : UInt32) : UInt32 :=
  if code < 0x80000000 then code else 0 - code

/-- Why the file system refused, as far as the program tells the reasons apart. -/
def faultOf (error : IO.Error) : FileFault :=
  match error with
  | .noFileOrDirectory _ _ _ => .notFound
  | .alreadyExists _ _ _ => .alreadyExists
  | .permissionDenied _ _ _ => .denied
  | .inappropriateType _ code _ => if errorNumber code = 21 then .isFolder else .notFolder
  | .invalidArgument _ code details =>
      if errorNumber code = 36 then .nameTooLong else .other details
  | other => .other (toString other)

/-- Does something at a path, and tells why the file system refused if it did. -/
def attempt {β : Type} (path : String) (act : IO β) : IO (Except FileFault β) :=
  if path.toList.contains '\x00' then return .error .nulInPath
  else try return .ok (← act) catch error => return .error (faultOf error)

instance : Host IO where
  readText path := do
    match ← attempt path (IO.FS.readBinFile path) with
    | .error fault => return .error fault
    | .ok content =>
        match String.fromUTF8? content with
        | some text => return .ok text
        | none => return .error .notText
  readContent path := attempt path (IO.FS.readBinFile path)
  writeText path text := attempt path (IO.FS.writeFile path text)
  touch path := attempt path do
    let _ ← IO.FS.Handle.mk path .append
  makeFolder path := attempt path (IO.FS.createDir path)
  has path := return (← attempt path (IO.FS.realPath path)).toBool
  isFolder path := do
    match ← attempt path (IO.FS.realPath path) with
    | .ok found => found.isDir
    | .error _ => return false
  environment? name := IO.getEnv name
  now := do
    let time := Std.Time.DateTime.ofTimestampWithZone (← Std.Time.Timestamp.now) .UTC
    return time.format "uuuu-MM-dd'T'HH:mm:ss.SSSSSSSSSxxx"
  post request := return unreachable request
  say line := IO.println line
  complain line := IO.eprintln line

/-- A number that nobody can guess. -/
def randomSeed : IO Nat := do
  return (← IO.getRandomBytes 15).toList.foldl (fun n byte => 256 * n + byte.toNat) 0

end Montage

/-- Runs the command line. -/
def main (words : List String) : IO UInt32 := do
  Montage.runWords words (.seeded (← Montage.randomSeed))
