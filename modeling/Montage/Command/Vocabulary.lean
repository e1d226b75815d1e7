import Montage.Command.Grammar

/-!
# The commands of the program
-/

namespace Montage

/-! ## Options and operands -/

/-- The operand that names the folder of a project. -/
def projectOperand : Operand :=
  { name := "PATH", kind := .path, about := "Path to the project directory" }

/-- The options that say where a new clip goes. -/
def targetFlags : List Flag :=
  [{ short := some 't', long := "track", parameter := some { name := "TRACK", kind := .text }
     about := "Track to place on (defaults to the first compatible track)" },
   { long := "at", parameter := some { name := "AT", kind := .number }
     about := "Start time in seconds (defaults to appending after the last clip)" }]

/-- The target that the options name. -/
def Matched.target (m : Matched) : Target :=
  ⟨m.text? "track", m.number? "at"⟩

/-- The options that every command takes. -/
def globalFlags : List Flag :=
  [{ short := some 'v', long := "verbose", about := "Enable verbose logging" },
   { long := "config", parameter := some { name := "CONFIG", kind := .path }
     about := "Config file (defaults to the user config directory)" }]

/-- The option that asks for help. -/
def helpFlag : Flag :=
  { short := some 'h', long := "help", about := "Print help" }

/-- The option that asks for the version. -/
def versionFlag : Flag :=
  { short := some 'V', long := "version", about := "Print version" }

/-! ## Commands -/

/-- A command on one clip with a number. -/
def clipForm (name about : String) (clip value : Operand)
    (command : String → ClipId → Float → Command) : Form where
  name := name
  about := about
  operands := [projectOperand, clip, value]
  flags := []
  command? m :=
    match m.operands with
    | [path, clip, value] => (enteredNumber? value).map (command path clip)
    | _ => none

/-- A command on a project alone. -/
def projectForm (name about : String) (flags : List Flag)
    (command : String → Matched → Command) : Form where
  name := name
  about := about
  operands := [projectOperand]
  flags := flags
  command? m :=
    match m.operands with
    | [path] => some (command path m)
    | _ => none

/-- All commands. -/
def forms : List Form :=
  [{ name := "init"
     about := "Create a new empty project"
     operands := [{ name := "NAME", kind := .text, about := "Project name" }]
     flags :=
       [{ short := some 'o', long := "output"
          parameter := some { name := "OUTPUT", kind := .path, default := some "." }
          about := "Output directory" }]
     command? m :=
       match m.operands with
       | [name] => some (.init name ((m.text? "output").getD "."))
       | _ => none },
   projectForm "info" "Show project information"
     [{ long := "json", about := "Print the render description as JSON instead" }]
     fun path m => .info path (m.isSet "json"),
   projectForm "validate" "Validate a project bundle" [] fun path _ => .validate path,
   { name := "upload"
     about := "Upload a media file to the backend and place it on the timeline"
     operands :=
       [projectOperand, { name := "FILE", kind := .path, about := "Media file to upload" }]
     flags := targetFlags
     command? m :=
       match m.operands with
       | [path, file] => some (.upload path file m.target)
       | _ => none },
   { name := "place"
     about := "Place an asset from the project library"
     operands := [projectOperand, { name := "ASSET", kind := .text, about := "Asset id" }]
     flags := targetFlags
     command? m :=
       match m.operands with
       | [path, asset] => some (.place path asset m.target)
       | _ => none },
   { name := "move"
     about := "Drag a clip horizontally by a pixel displacement"
     operands := [projectOperand, { name := "CLIP", kind := .text, about := "Clip to grab" }]
     flags :=
       [{ long := "dx"
          parameter := some { name := "DX", kind := .number, hyphens := true, required := true }
          about := "Horizontal pointer displacement in pixels" }]
     command? m :=
       match m.operands with
       | [path, clip] => (m.number? "dx").map (.move path clip)
       | _ => none },
   clipForm "split" "Split a clip (and its linked partner) at a timeline instant"
     { name := "CLIP", kind := .text, about := "Clip to split" }
     { name := "AT", kind := .number, about := "Split instant in seconds" } .split,
   { name := "delete"
     about := "Delete clips along with their linked partners"
     operands :=
       [projectOperand,
        { name := "CLIPS", kind := .text, many := true, about := "Clips to delete" }]
     flags := []
     command? m :=
       match m.operands with
       | path :: clips => some (.delete path clips)
       | _ => none },
   clipForm "volume" "Set a clip's volume" { name := "CLIP", kind := .text }
     { name := "VALUE", kind := .number, about := "Gain, 1.0 = unchanged" } .volume,
   clipForm "speed" "Set a clip's playback speed (applies to its linked partner too)"
     { name := "CLIP", kind := .text }
     { name := "VALUE", kind := .number, about := "Playback rate, 1.0 = normal" } .speed,
   { name := "merge"
     about := "Render a run of clips into one clip"
     operands :=
       [projectOperand,
        { name := "TRACK", kind := .text, about := "Track holding the clips" },
        { name := "CLIPS", kind := .text, many := true
          about := "Clips to merge (at least two)" }]
     flags := []
     command? m :=
       match m.operands with
       | path :: track :: clips => some (.merge path track clips)
       | _ => none },
   projectForm "preview" "Render a quick preview of the timeline" [] fun path _ => .preview path,
   projectForm "export" "Render the timeline at full quality" []
     fun path _ => .exportVideo path,
   { name := "config"
     about := "Print the effective configuration"
     operands := []
     flags := [{ long := "save", about := "Write it to the user config directory" }]
     command? m := some (.config (m.isSet "save")) }]

/-- What may stand before the name of a command. -/
def programLevel : Level :=
  ⟨none, [], globalFlags ++ [helpFlag, versionFlag]⟩

/-- What may stand after the name of a command. -/
def Form.level (form : Form) : Level :=
  ⟨some form.name, form.operands, form.flags ++ globalFlags ++ [helpFlag]⟩

/-! ## Whole command lines -/

/-- Reads the words after the name of a command; its own options win over those before it. -/
def Form.read (form : Form) (before : Matched) (words : List String) :
    Except Notice Invocation := do
  let level := form.level
  let reading ← words.foldlM (fun r word => Reading.word r level word) {}
  let m ← reading.finish level
  match form.command? m with
  | none => throw (.misuse "the following required arguments were not provided")
  | some command =>
      return {
        verbose := m.isSet "verbose" || before.isSet "verbose"
        settings := m.text? "config" <|> before.text? "config"
        command }

/-- Reads the words after a request for help. -/
def readHelp : List String → Notice
  | [] => .help none
  | [name] =>
      if name = "help" || forms.any (·.name = name) then .help (some name)
      else .misuse s!"unrecognized subcommand '{name}'"
  | _ :: name :: _ => .misuse s!"unrecognized subcommand '{name}'"

/-- Reads words up to the name of a command, and then the rest by its form. -/
def readWords (r : Reading) : List String → Except Notice Invocation
  | [] =>
      match r.waiting with
      | some (flag, _) => .error (Reading.word.missing flag)
      | none => .error (.misuse "a subcommand is required")
  | word :: rest =>
      if r.waiting.isNone && !r.trailing then
        if word = "help" then .error (readHelp rest)
        else
          match forms.find? (·.name = word) with
          | some form => form.read r.matched rest
          | none => further word rest
      else further word rest
where
  further (word : String) (rest : List String) : Except Notice Invocation := do
    readWords (← r.word programLevel word) rest

/-- What a command line asks for. -/
def Invocation.ofWords (words : List String) : Except Notice Invocation :=
  readWords {} words

end Montage
