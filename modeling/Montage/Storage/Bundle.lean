import Montage.Storage.Host

/-!
# Project bundles

A project is kept in a folder of three documents: what the bundle is, the timeline, and the library.
-/

namespace Montage

/-! ## The header -/

/-- What a bundle is, and when it was made and saved. -/
structure BundleHeader where
  version : String
  name : String
  createdAt : String
  modifiedAt : String
deriving DecidableEq, Repr

namespace BundleHeader

/-- The header of a new bundle. -/
def new (name now : String) : BundleHeader :=
  ⟨"1.0", name, now, now⟩

/-- The document of a header. -/
def toJson (header : BundleHeader) : Json :=
  .record [("version", Json.str header.version), ("name", Json.str header.name),
    ("created_at", Json.str header.createdAt), ("modified_at", Json.str header.modifiedAt)]

/-- Reads the document of a header. -/
def ofJson? (j : Json) : Option BundleHeader := do
  let fields ← j.fields? ["version", "name", "created_at", "modified_at"]
  return {
    version := ← fields.need "version" Json.text?
    name := ← fields.need "name" Json.text?
    createdAt := ← fields.need "created_at" Json.text?
    modifiedAt := ← fields.need "modified_at" Json.text? }

end BundleHeader

/-! ## Faults -/

/-- Why a bundle cannot be read or written. -/
inductive BundleFault
  | file (path : String) (fault : FileFault)
  | malformed (path : String)
deriving DecidableEq, Repr

namespace BundleFault

/-- The message that a user reads. -/
def message : BundleFault → String
  | file path fault => s!"I/O error at {path}: {fault.message}"
  | malformed path => s!"Parse error in {path}: {malformedText}"

/-- The path that the fault is at. -/
def path : BundleFault → String
  | file path _ | malformed path => path

end BundleFault

/-! ## Documents in files -/

variable {m : Type → Type} [Monad m] [Host m]

/-- The document in a file. -/
def readDocument {β : Type} (path : String) (ofJson? : Json → Option β) :
    ExceptT BundleFault m β := do
  let text ← (ExceptT.mk (Host.readText path)).adapt (BundleFault.file path)
  match Json.parse? text >>= ofJson? with
  | some value => return value
  | none => throw (.malformed path)

/-- Writes a document to a file. -/
def writeDocument (path : String) (document : Json) : ExceptT BundleFault m Unit :=
  (ExceptT.mk (Host.writeText path document.pretty)).adapt (BundleFault.file path)

/-! ## Bundles -/

/-- A project in its folder. -/
structure Bundle (α : Type) where
  /-- The path of the folder. -/
  root : String
  header : BundleHeader
  timeline : Timeline α
  library : Library α

namespace Bundle

variable {α : Type} [Scalar α] [WireNumber α]

/-- The path of the header. -/
def headerPath (root : String) : String := Text.Path.join root "bundle.json"

/-- The path of the timeline. -/
def timelinePath (root : String) : String := Text.Path.join root "project.json"

/-- The path of the library. -/
def libraryPath (root : String) : String := Text.Path.join root "library.json"

/-- Reads the bundle in a folder; a library that is not there has no assets. -/
def load (root : String) : ExceptT BundleFault m (Bundle α) := do
  let header ← readDocument (headerPath root) BundleHeader.ofJson?
  let timeline ← readDocument (timelinePath root) Timeline.ofJson?
  let library ←
    if ← (Host.has (libraryPath root) : m Bool) then
      readDocument (libraryPath root) Library.ofJson?
    else pure .empty
  return ⟨root, header, timeline, library⟩

/-- Writes the three documents one after the other. -/
def write (bundle : Bundle α) : ExceptT BundleFault m Unit := do
  writeDocument (headerPath bundle.root) bundle.header.toJson
  writeDocument (timelinePath bundle.root) bundle.timeline.toJson
  writeDocument (libraryPath bundle.root) bundle.library.toJson

/-- The bundle as it is saved at the given time. -/
def stamp (bundle : Bundle α) (now : String) : Bundle α :=
  { bundle with header := { bundle.header with modifiedAt := now } }

/-- Stamps the bundle with the time and writes it; the answer is the stamped bundle. -/
def save (bundle : Bundle α) : m (Except BundleFault Unit × Bundle α) := do
  let bundle := bundle.stamp (← Host.now)
  return (← bundle.write, bundle)

/-- Makes the bundle of a new project, and writes it. -/
def create (root name id : String) (audioTracks : Nat) : ExceptT BundleFault m (Bundle α) := do
  (ExceptT.mk (Host.makeFolders root)).adapt (BundleFault.file root)
  let now ← (Host.now : m String)
  let fresh : Bundle α := ⟨root, .new name now, .standard id audioTracks, .empty⟩
  let (written, bundle) ← (fresh.save : m (Except BundleFault Unit × Bundle α))
  ExceptT.mk (pure written)
  return bundle

end Bundle

end Montage
