import Montage.Render.Server

/-!
# Hosts

What the program asks of the machine that it runs on: files, the time, the network, and a place to
write to.
-/

namespace Montage

/-- The effects of the program. -/
class Host (m : Type → Type) where
  /-- The text of a file. -/
  readText : String → m (Except FileFault String)
  /-- The content of a file. -/
  readContent : String → m (Except FileFault ByteArray)
  /-- Fills a file with a text, whatever was in it. -/
  writeText : String → String → m (Except FileFault Unit)
  /-- Makes sure that a file is there. -/
  touch : String → m (Except FileFault Unit)
  /-- Makes a folder where nothing stands yet, in a folder that is there. -/
  makeFolder : String → m (Except FileFault Unit)
  /-- Whether something stands at a path. -/
  has : String → m Bool
  /-- Whether a folder stands at a path. -/
  isFolder : String → m Bool
  /-- A variable of the environment. -/
  environment? : String → m (Option String)
  /-- The time as documents write it. -/
  now : m String
  /-- Posts a request and waits for what comes of it. -/
  post : Request → m Reply
  /-- Writes a line of output. -/
  say : String → m Unit
  /-- Writes a line about something that went wrong. -/
  complain : String → m Unit

/-! ## Folders -/

namespace Host

variable {m : Type → Type} [Monad m] [Host m]

/-- Makes a folder unless it is there already. -/
def ensureFolder (path : String) : m (Except FileFault Unit) := do
  match ← makeFolder path with
  | .ok () => return .ok ()
  | .error fault => return if ← isFolder path then .ok () else .error fault

/-- Makes a folder, and before it those of the folders that lead to it, nearest first, that it lacks. -/
def ensureBelow (path : String) : List String → m (Except FileFault Unit)
  | [] => ensureFolder path
  | above :: further => do
      match ← ensureFolder path with
      | .error .notFound =>
          match ← ensureBelow above further with
          | .error fault => return .error fault
          | .ok () => ensureFolder path
      | result => return result

/-- Makes the folders of a path that are not there. -/
def makeFolders (path : String) : m (Except FileFault Unit) :=
  if path = "" then return .ok () else ensureBelow path (Text.Path.ancestors path)

end Host

end Montage
