import Montage.Command.Basic
import Montage.Command.Number

/-!
# The grammar of command lines

A command line is a list of words. Words that begin with a hyphen name options, until a word of two
hyphens says that none will follow. What may stand where is said by forms.
-/

namespace Montage

/-! ## Forms -/

/-- What a value may be. -/
inductive ValueKind
  | text
  | path
  | number
deriving DecidableEq, Repr

/-- Whether a word is such a value. -/
def ValueKind.admits : ValueKind → String → Bool
  | text, _ => true
  | path, word => word ≠ ""
  | number, word => (enteredNumber? word).isSome

/-- The value that an option takes. -/
structure Parameter where
  name : String
  kind : ValueKind
  /-- Whether the value may begin with a hyphen. -/
  hyphens : Bool := false
  required : Bool := false
  default : Option String := none

/-- An option of a command. One without a parameter is a switch. -/
structure Flag where
  short : Option Char := none
  long : String
  parameter : Option Parameter := none
  about : String

/-- A value that is known by its place. -/
structure Operand where
  name : String
  kind : ValueKind
  /-- Whether more values may follow. -/
  many : Bool := false
  about : String := ""

/-- The options and operands that stand on a command line. -/
structure Matched where
  /-- The options by their long names, a switch with an empty value. -/
  flags : List (String × String) := []
  operands : List String := []

namespace Matched

/-- Whether a switch is set. -/
def isSet (m : Matched) (long : String) : Bool :=
  (m.flags.lookup long).isSome

/-- The value of an option. -/
def text? (m : Matched) (long : String) : Option String :=
  m.flags.lookup long

/-- The number that an option is given. -/
def number? (m : Matched) (long : String) : Option Float :=
  m.text? long >>= enteredNumber?

end Matched

/-- How a command is written, and what it means. -/
structure Form where
  name : String
  about : String
  operands : List Operand
  flags : List Flag
  command? : Matched → Option Command

/-! ## Reading words -/

/-- Why there is nothing to run. -/
inductive Notice
  /-- The user asks for help with the command of that name, or with all. -/
  | help (command : Option String)
  | version
  | misuse (message : String)
deriving DecidableEq, Repr

/-- What may stand on one level of a command line: the program itself, or one of its commands. -/
structure Level where
  command : Option String
  operands : List Operand
  flags : List Flag

/-- How far a command line has been read. -/
structure Reading where
  matched : Matched := {}
  /-- The option whose value comes next. -/
  waiting : Option (Flag × Parameter) := none
  /-- Whether all further words are operands. -/
  trailing : Bool := false

namespace Reading

/-- Sets an option, which may be done only once. -/
def give (r : Reading) (flag : Flag) (value : String) : Except Notice Reading :=
  if r.matched.isSet flag.long then
    .error (.misuse s!"the argument '--{flag.long}' cannot be used multiple times")
  else
    .ok { r with
      matched := { r.matched with flags := r.matched.flags ++ [(flag.long, value)] }
      waiting := none }

/-- Sets an option to a value that it may have. -/
def giveValue (r : Reading) (flag : Flag) (parameter : Parameter) (value : String) :
    Except Notice Reading :=
  if parameter.kind.admits value then r.give flag value
  else .error (.misuse s!"invalid value '{value}' for '--{flag.long} <{parameter.name}>'")

/-- Adds an operand, if there is a place for it. -/
def addOperand (r : Reading) (level : Level) (word : String) : Except Notice Reading :=
  let place := level.operands[r.matched.operands.length]? <|>
    level.operands.getLast?.filter Operand.many
  match place with
  | none => .error (.misuse s!"unexpected argument '{word}' found")
  | some operand =>
      if operand.kind.admits word then
        .ok { r with
          matched := { r.matched with operands := r.matched.operands ++ [word] } }
      else .error (.misuse s!"invalid value '{word}' for '<{operand.name}>'")

/-- An option is named, perhaps with a value attached to it. -/
def name (r : Reading) (level : Level) (flag : Flag) (attached : Option String) :
    Except Notice Reading :=
  match flag.parameter, attached with
  | some parameter, some value => r.giveValue flag parameter value
  | some parameter, none => .ok { r with waiting := some (flag, parameter) }
  | none, some value =>
      .error (.misuse s!"unexpected value '{value}' for '--{flag.long}' found")
  | none, none =>
      if flag.long = "help" then .error (.help level.command)
      else if flag.long = "version" then .error .version
      else r.give flag ""

/-- A word of two hyphens and a long name, perhaps with a value after an equals sign. -/
def long (r : Reading) (level : Level) (word : List Char) : Except Notice Reading :=
  let name := String.ofList (word.takeWhile (· ≠ '='))
  let attached := match word.dropWhile (· ≠ '=') with
    | _ :: value => some (String.ofList value)
    | [] => none
  match level.flags.find? (·.long = name) with
  | some flag => r.name level flag attached
  | none => .error (.misuse s!"unexpected argument '--{name}' found")

/-- A word of one hyphen and short names; a value may follow the last one directly. -/
def shorts (r : Reading) (level : Level) : List Char → Except Notice Reading
  | [] => .ok r
  | c :: rest =>
      match level.flags.find? (·.short = some c) with
      | none => .error (.misuse s!"unexpected argument '-{c}' found")
      | some flag =>
          if flag.parameter.isSome then
            match rest with
            | [] => r.name level flag none
            | '=' :: value => r.name level flag (some (String.ofList value))
            | value => r.name level flag (some (String.ofList value))
          else do
            let r ← r.name level flag none
            r.shorts level rest

/-- A word that is not the value of an option. -/
def plain (r : Reading) (level : Level) (word : String) : Except Notice Reading :=
  match word.toList with
  | ['-', '-'] => .ok { r with trailing := true }
  | '-' :: '-' :: name => r.long level name
  | '-' :: c :: names => r.shorts level (c :: names)
  | _ => r.addOperand level word

/-- Reads one word. -/
def word (r : Reading) (level : Level) (word : String) : Except Notice Reading :=
  if r.trailing then r.addOperand level word
  else
    match r.waiting with
    | none => r.plain level word
    | some (flag, parameter) =>
        if parameter.hyphens || !word.startsWith "-" || word = "-" then
          r.giveValue flag parameter word
        else .error (missing flag)
where
  missing (flag : Flag) : Notice :=
    .misuse s!"a value is required for '--{flag.long}' but none was supplied"

/-- The reading is complete when no value and no required option or operand is missing. -/
def finish (r : Reading) (level : Level) : Except Notice Matched :=
  match r.waiting with
  | some (flag, _) => .error (word.missing flag)
  | none =>
      let required := level.flags.filter fun flag => flag.parameter.any Parameter.required
      if required.all (fun flag => r.matched.isSet flag.long) &&
          level.operands.length ≤ r.matched.operands.length then
        .ok r.matched
      else .error (.misuse "the following required arguments were not provided")

end Reading

end Montage
