import Montage.Timeline.Rejection
import Montage.Track

/-!
# Refusals

Why an edit is not made. A refused edit changes nothing.
-/

namespace Montage

/-! ## Inconsistent models -/

/-- How a timeline contradicts itself. -/
inductive Fault (α : Type)
  | danglingLink (clip link : ClipId)
  | strandedDrag (clip : ClipId) (track : TrackId)
  | lostMergeTrack (track : TrackId)
  | placementRejected (reason : Rejection α)
  | splitRejected (reason : Rejection α)
  | mergeRejected (reason : Rejection α)
deriving DecidableEq, Repr

/-- What the contradiction is. -/
def Fault.message {α : Type} [Legible α] : Fault α → String
  | danglingLink clip link => s!"clip {clip} links to missing clip {link}"
  | strandedDrag clip track => s!"dragged clip {clip} references missing track {track}"
  | lostMergeTrack track => s!"merge track {track} vanished"
  | placementRejected reason => s!"placement insert failed: {reason.message}"
  | splitRejected reason => s!"split insert failed: {reason.message}"
  | mergeRejected reason => s!"merge insert failed: {reason.message}"

/-! ## Refused edits -/

/-- A number that an edit is given or arrives at. -/
inductive Property
  | duration
  | startTime
  | delta
  | volume
  | speed
deriving DecidableEq, Repr

/-- The property as messages name it. -/
def Property.label : Property → String
  | duration => "duration"
  | startTime => "start_time"
  | delta => "delta"
  | volume => "volume"
  | speed => "speed"

/-- What became of a clip while its merge was being rendered. -/
inductive Staleness
  | changed
  | removed
deriving DecidableEq, Repr

/-- The change as messages name it. -/
def Staleness.label : Staleness → String
  | changed => "changed"
  | removed => "was removed"

/-- Why an edit is not made. -/
inductive Refusal (α : Type)
  | clipNotFound (clip : ClipId)
  | assetNotFound (asset : AssetId)
  | trackNotFound (track : TrackId)
  | noTrackFor (medium : Medium)
  | wrongTrackKind (track : TrackId) (kind : TrackKind) (medium : Medium)
  | overlap (track : TrackId) (conflicting : ClipId)
  | notSelected (clip : ClipId)
  | partnerNotCut (clip partner : ClipId) (instant : α)
  | tooFewToMerge (count : Nat)
  | notOnTrack (clip : ClipId) (track : TrackId)
  | linkedInMerge (clip partner : ClipId)
  | mergeRunning (clip : ClipId)
  | staleMerge (clip : ClipId) (how : Staleness)
  | invalidValue (property : Property) (value : α)
  | inconsistent (fault : Fault α)
deriving DecidableEq, Repr

/-- Whose fault a refusal is: the edit's or the model's. -/
inductive Category
  | validation
  | inconsistency
deriving DecidableEq, Repr

namespace Refusal

variable {α : Type}

/-- Only a timeline that contradicts itself is the model's fault. -/
def category : Refusal α → Category
  | inconsistent _ => .inconsistency
  | _ => .validation

/-- Whether a clip is in the way. -/
def isOverlap : Refusal α → Bool
  | overlap _ _ => true
  | _ => false

/-- Whether the medium finds no track that holds it. -/
def isKindMismatch : Refusal α → Bool
  | wrongTrackKind _ _ _ | noTrackFor _ => true
  | _ => false

/-- The message that a user reads. -/
def message [Legible α] : Refusal α → String
  | clipNotFound clip => s!"Clip not found: {clip}"
  | assetNotFound asset => s!"Asset not found in library: {asset}"
  | trackNotFound track => s!"Track not found: {track}"
  | noTrackFor medium => s!"No track can hold {medium.label} media"
  | wrongTrackKind track kind medium =>
      s!"Track {track} ({kind.label}) cannot hold {medium.label} media"
  | overlap track conflicting => s!"Would overlap clip {conflicting} on track {track}"
  | notSelected clip => s!"Clip {clip} is not selected"
  | partnerNotCut clip partner instant =>
      s!"Linked clip {partner} does not span t={Legible.text instant}; " ++
        s!"unlink {clip} before splitting"
  | tooFewToMerge count => s!"Merge needs at least two clips, got {count}"
  | notOnTrack clip track => s!"Clip {clip} is not on track {track}"
  | linkedInMerge clip partner => s!"Clip {clip} is linked to {partner}; unlink it before merging"
  | mergeRunning clip => s!"A merge involving clip {clip} is already in progress"
  | staleMerge clip how => s!"Merge result no longer applies: clip {clip} {how.label} while rendering"
  | invalidValue property value => s!"Invalid {property.label}: {Legible.text value}"
  | inconsistent fault => s!"Model invariant violated: {fault.message}"

end Refusal

end Montage
