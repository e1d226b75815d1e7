import Montage.Command.Vocabulary

/-!
# Help
-/

namespace Montage

/-- The name of the program. -/
def programName : String := "trackcut"

/-- What the program is. -/
def programAbout : String := "Non-destructive multi-track timeline editing"

/-- The version of the program. -/
def programVersion : String := "0.1.0"

namespace Help

/-! ## Tables -/

/-- A text with blanks after it up to a width. -/
def padded (width : Nat) (text : String) : String :=
  text ++ String.ofList (List.replicate (width - text.length) ' ')

/-- Rows of two columns under a title. -/
def table (title : String) (rows : List (String × String)) : List String :=
  let width := (rows.map fun row => row.1.length).foldl max 0
  if rows.isEmpty then []
  else ["", title ++ ":"] ++ rows.map fun (left, right) => s!"  {padded width left}  {right}"

/-! ## Options -/

/-- An option as users write it. -/
def flagText (flag : Flag) : String :=
  let short := match flag.short with
    | some c => s!"-{c}, "
    | none => "    "
  let value := match flag.parameter with
    | some parameter => s!" <{parameter.name}>"
    | none => ""
  short ++ "--" ++ flag.long ++ value

/-- What an option is for, and what holds without it. -/
def flagAbout (flag : Flag) : String :=
  match flag.parameter.bind Parameter.default with
  | some value => s!"{flag.about} [default: {value}]"
  | none => flag.about

/-- Where an option stands among those of one place: by its letter, the small one first. -/
def flagKey (flag : Flag) : String :=
  match flag.short with
  | some c => String.ofList [c.toLower, if c.isLower then '0' else '1']
  | none => flag.long

/-- Options in the order of their places, each list counting its own. -/
def arranged (flags : List (List Flag)) : List Flag :=
  let placed := flags.flatMap fun list => list.zipIdx.map fun (flag, place) => (place, flag)
  let sorted := placed.mergeSort fun a b =>
    decide (a.1 < b.1) || (a.1 == b.1 && decide (flagKey a.2 ≤ flagKey b.2))
  sorted.map Prod.snd

/-- Options with what they are for; those that end the program come last. -/
def flagTable (flags : List (List Flag)) (last : List Flag) : List String :=
  table "Options" ((arranged flags ++ last).map fun flag => (flagText flag, flagAbout flag))

/-! ## Pages -/

/-- An operand as users write it. -/
def operandText (operand : Operand) : String :=
  s!"<{operand.name}>" ++ if operand.many then "..." else ""

/-- How a command is written. -/
def usage (form : Form) : String :=
  let required := (form.flags.filter fun flag => flag.parameter.any Parameter.required).map
    fun flag => flagText { flag with short := none }
  let words := ["[OPTIONS]"] ++ required.map (Text.trimLeft ' ') ++ form.operands.map operandText
  s!"Usage: {programName} {form.name} " ++ " ".intercalate words

/-- The page of one command. -/
def formPage (form : Form) : List String :=
  [form.about, "", usage form] ++
    table "Arguments" (form.operands.map fun o => (operandText o, o.about)) ++
    flagTable [form.flags, globalFlags] [helpFlag]

/-- What the command is for that shows these pages. -/
def helpAbout : String := "Print this message or the help of the given subcommand(s)"

/-- The page of that command itself. -/
def helpPage : List String :=
  [helpAbout, "", s!"Usage: {programName} help [COMMAND]..."] ++
    table "Arguments" [("[COMMAND]...", "Print help for the subcommand(s)")]

/-- The page of the program. -/
def programPage : List String :=
  let commands := forms.map fun form => (form.name, form.about)
  [programAbout, "", s!"Usage: {programName} [OPTIONS] <COMMAND>"] ++
    table "Commands" (commands ++ [("help", helpAbout)]) ++
    flagTable [globalFlags] [helpFlag, versionFlag]

/-- The page of a command, or of the program. -/
def page (command : Option String) : List String :=
  match command, command.bind fun name => forms.find? (·.name = name) with
  | _, some form => formPage form
  | some _, none => helpPage
  | none, none => programPage

end Help

end Montage
