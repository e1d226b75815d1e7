/-!
# Failures

What can go wrong outside the model: with the render service, with the settings, with files.
-/

namespace Montage

/-- Why the file system refused. -/
inductive FileFault
  | notFound
  | alreadyExists
  | notFolder
  | isFolder
  | denied
  | nameTooLong
  /-- The path has a character that no path can have. -/
  | nulInPath
  /-- The file holds something else than text. -/
  | notText
  | other (message : String)
deriving DecidableEq, Repr

/-- The message of the system. -/
def FileFault.message : FileFault → String
  | notFound => "No such file or directory (os error 2)"
  | alreadyExists => "File exists (os error 17)"
  | notFolder => "Not a directory (os error 20)"
  | isFolder => "Is a directory (os error 21)"
  | denied => "Permission denied (os error 13)"
  | nameTooLong => "File name too long (os error 36)"
  | nulInPath => "file name contained an unexpected NUL byte"
  | notText => "stream did not contain valid UTF-8"
  | other message => message

/-- What the message of a document that cannot be read says about it. -/
def malformedText : String := "malformed document"

/-- Why a request to the outside failed. -/
inductive Failure
  /-- The service could not be reached, or it gave no usable answer. -/
  | transport (detail : String)
  /-- The service answered that it could not render. -/
  | render (detail : String)
  | upload (detail : String)
  | settings (detail : String)
  | file (fault : FileFault)
  | malformed
deriving DecidableEq, Repr

namespace Failure

/-- The message that a user reads. -/
def message : Failure → String
  | transport detail => s!"Transport error: {detail}"
  | render detail => s!"Render error: {detail}"
  | upload detail => s!"Upload error: {detail}"
  | settings detail => s!"Configuration error: {detail}"
  | file fault => fault.message
  | malformed => malformedText

/-- Whether the failure came from talking to the service, which leaves the project untouched. -/
def fromService : Failure → Bool
  | transport _ | render _ | upload _ => true
  | settings _ | file _ | malformed => false

end Failure

end Montage
