import Montage.Clip
import Montage.Legible

/-!
# Rejections

Why a timeline does not take a clip or an overlay.
-/

namespace Montage

/-- Why something cannot become part of a timeline. -/
inductive Rejection (α : Type)
  | clipExists (clip : ClipId)
  | emptyClip (clip : ClipId)
  | unknownTrack (track : TrackId)
  | emptyRange (start stop : α)
  | outsidePercent (label : String) (value : α)
  | blankText
  | zeroFontSize
  | zeroStrokeWidth
  | overlayExists (overlay : String)
deriving DecidableEq, Repr

namespace Rejection

variable {α : Type} [Legible α]

/-- What is wrong with the thing that was offered. -/
def detail : Rejection α → String
  | clipExists clip => s!"clip id {clip} already exists"
  | emptyClip clip => s!"clip {clip} has non-positive length"
  | unknownTrack track => track
  | emptyRange start stop =>
      s!"overlay time range [{Legible.text start}, {Legible.text stop}) is empty or negative"
  | outsidePercent label value => s!"{label} must be within 0-100, got {Legible.text value}"
  | blankText => "overlay text is empty"
  | zeroFontSize => "font_size must be positive"
  | zeroStrokeWidth => "stroke width must be positive"
  | overlayExists overlay => s!"overlay id {overlay} already exists"

/-- The message that a user reads. -/
def message (r : Rejection α) : String :=
  match r with
  | unknownTrack track => s!"Unknown track: {track}"
  | _ => s!"Invalid project: {r.detail}"

end Rejection

end Montage
