import Montage.Storage.Host
import Montage.Wire.Settings

/-!
# The settings file

The user's settings stand in one file of the configuration folder.
-/

namespace Montage

/-- The folder that holds the configuration of programs. -/
def configurationFolder (configured home : Option String) : String :=
  configured.getD (Text.Path.join (home.getD "/tmp") ".config")

namespace Settings

variable {m : Type → Type} [Monad m] [Host m] {α : Type} [Scalar α] [WireNumber α]

/-- The path of the settings file. -/
def standardPath : m String := do
  let folder := configurationFolder (← Host.environment? "XDG_CONFIG_HOME") (← Host.environment? "HOME")
  return Text.Path.join (Text.Path.join folder "trackcut") "config.json"

/-- Reads the settings in a file, and checks them. -/
def read (path : String) : ExceptT Failure m (Settings α) := do
  let text ← (ExceptT.mk (Host.readText path)).adapt Failure.file
  match Json.parse? text >>= ofJson? with
  | none => throw .malformed
  | some settings =>
      ExceptT.mk (pure settings.editor.check)
      return settings

/-- The user's settings; when there are none to read, all is as standard. -/
def load : m (Settings α) := do
  let path ← standardPath
  if ← Host.has path then
    return (← (read path : ExceptT Failure m (Settings α)).run).toOption.getD .standard
  else return .standard

/-- Writes the user's settings. -/
def save (settings : Settings α) : ExceptT FileFault m Unit := do
  let path ← (standardPath : m String)
  ExceptT.mk (Host.makeFolders (Text.Path.parent path))
  ExceptT.mk (Host.writeText path settings.toJson.pretty)

end Settings

end Montage
