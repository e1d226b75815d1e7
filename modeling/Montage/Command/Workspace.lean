import Montage.Session.Basic
import Montage.Storage.Bundle

/-!
# Workspaces

A workspace is a bundle that is open for editing. What the session has committed goes back into the
bundle when the workspace is saved.
-/

namespace Montage

/-- Why a command did not do what it was told. -/
inductive Complaint (α : Type)
  | refused (reason : Refusal α)
  | failed (reason : Failure)
  | notLoaded (fault : BundleFault)
  | notSaved (fault : BundleFault)
  | notCreated (fault : BundleFault)
  | settingsNotSaved (fault : FileFault)
  | namelessFile (path : String)
  | unreadable (path : String) (fault : FileFault)
  | invalid (issues : Nat)
  | nothingToExport
  | previewFailed

namespace Complaint

variable {α : Type}

/-- The message that a user reads. -/
def message [Legible α] : Complaint α → String
  | refused reason => reason.message
  | failed reason => reason.message
  | notLoaded fault => s!"Failed to load project: {fault.message}"
  | notSaved fault => s!"Failed to save project: {fault.message}"
  | notCreated fault => s!"Failed to create project: {fault.message}"
  | settingsNotSaved fault => s!"Failed to save config: {fault.message}"
  | namelessFile path => s!"Invalid file name: {path}"
  | unreadable path fault => s!"Failed to read {path}: {fault.message}"
  | invalid issues => s!"{issues} issue(s) found"
  | nothingToExport => "Timeline is empty; nothing to export"
  | previewFailed => "Preview render failed"

/-- Whether the project contradicts itself. -/
def isInconsistency : Complaint α → Bool
  | refused reason => reason.category = .inconsistency
  | _ => false

end Complaint

/-- A bundle that is open for editing. -/
structure Workspace (α : Type) where
  bundle : Bundle α
  session : Session α

namespace Workspace

variable {m : Type → Type} [Monad m] [Host m] {α : Type} [Scalar α] [WireNumber α]

/-- Opens the bundle in a folder. -/
def openBundle (path : String) (settings : EditorSettings α) (ids : IdSupply) :
    ExceptT (Complaint α) m (Workspace α) := do
  let bundle ← (Bundle.load path).adapt Complaint.notLoaded
  return ⟨bundle, .start bundle.timeline bundle.library settings ids false⟩

/-- Makes an edit, or complains that it is refused. -/
def edit {β : Type} (w : Workspace α)
    (act : Session α → Except (Refusal α) β × Session α) :
    ExceptT (Complaint α) m (β × Workspace α) :=
  match act w.session with
  | (.error reason, _) => throw (.refused reason)
  | (.ok answer, session) => return (answer, { w with session })

/-- Writes the bundle back, if anything was committed. -/
def save (w : Workspace α) : ExceptT (Complaint α) m Unit := do
  if w.session.revision ≠ 0 then
    let bundle := { w.bundle with timeline := w.session.timeline, library := w.session.library }
    let (written, _) ← (bundle.save : m (Except BundleFault Unit × Bundle α))
    (ExceptT.mk (pure written)).adapt Complaint.notSaved

/-- Selects clips one after the other, those that are selected already staying so. -/
def selectAll (w : Workspace α) (clips : List ClipId) :
    ExceptT (Complaint α) m (Workspace α) :=
  clips.foldlM (fun w clip => do
    if w.session.selection.contains clip then return w
    else return (← w.edit fun s => s.select clip true).2) w

/-- Deletes clips with their partners and saves what is left; the answer is the deleted ids. -/
def delete (w : Workspace α) (clips : List ClipId) :
    ExceptT (Complaint α) m (List ClipId × Workspace α) := do
  let w ← w.selectAll clips
  w.edit fun s => s.deleteSelection

end Workspace

end Montage
