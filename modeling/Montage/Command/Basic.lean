import Montage.Editing.Placement

/-!
# Commands
-/

namespace Montage

/-- Where a user wants a new clip. -/
structure Target where
  track : Option TrackId
  instant : Option Float
deriving Repr

/-- The drop that a target asks for: without an instant the clip goes after all others. -/
def Target.drop (target : Target) : Drop Float :=
  match target.instant with
  | some instant => .instant instant
  | none => .append

/-- What the program is told to do. A path that comes first is that of the project's folder. -/
inductive Command
  | init (name folder : String)
  | info (path : String) (asJson : Bool)
  | validate (path : String)
  | upload (path file : String) (target : Target)
  | place (path : String) (asset : AssetId) (target : Target)
  | move (path : String) (clip : ClipId) (pixels : Float)
  | split (path : String) (clip : ClipId) (instant : Float)
  | delete (path : String) (clips : List ClipId)
  | volume (path : String) (clip : ClipId) (value : Float)
  | speed (path : String) (clip : ClipId) (value : Float)
  | merge (path : String) (track : TrackId) (clips : List ClipId)
  | preview (path : String)
  | exportVideo (path : String)
  | config (save : Bool)
deriving Repr

/-- A command with what holds for all commands. -/
structure Invocation where
  verbose : Bool
  /-- The file to read the settings from, instead of the user's. -/
  settings : Option String
  command : Command
deriving Repr

end Montage
