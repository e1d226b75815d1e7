import Montage.Editing.Links
import Montage.Editing.Placement

/-!
# Merging clips

A run of clips on one track is replaced by one clip that plays a new rendering of them. The plan is
made before the render, and applied to whatever the timeline has become when the render is there.
-/

namespace Montage

/-- A merge that has passed its checks and waits for its rendering. -/
structure MergePlan (α : Type) where
  track : TrackId
  kind : TrackKind
  /-- The clips to replace, by start, as they stood when the plan was made. -/
  clips : List (Clip α)
  /-- The earliest start among them, where the merged clip will start. -/
  origin : α
  /-- What the render service is asked for: the clips alone, the earliest at zero. -/
  request : Timeline α

/-- The ids of the clips to replace. -/
def MergePlan.ids {α : Type} (plan : MergePlan α) : List ClipId :=
  plan.clips.map Clip.id

namespace Timeline

variable {α : Type} [Scalar α]

/-! ## Planning -/

omit [Scalar α] in
/-- A clip that may be merged on a track. -/
def mergeable (t : Timeline α) (track : Track α) (id : ClipId) : Except (Refusal α) (Clip α) :=
  match t.clip? id with
  | none => .error (.clipNotFound id)
  | some clip =>
      if clip.track ≠ track.id then .error (.notOnTrack id track.id)
      else
        match clip.link with
        | some link => .error (.linkedInMerge id link)
        | none => .ok clip

/-- The clips of a merge on a track, by start, clips with one start in the order of their ids. -/
def runOf (t : Timeline α) (id : TrackId) (ids : List ClipId) :
    Except (Refusal α) (Track α × List (Clip α)) := do
  match t.track? id with
  | none => throw (.trackNotFound id)
  | some track =>
      let unique := (Std.ExtTreeSet.ofList ids compare).toList
      if unique.length < 2 then throw (.tooFewToMerge unique.length)
      let clips ← unique.mapM (t.mergeable track)
      return (track, clips.mergeSort fun a b => Scalar.totalLe a.start b.start)

/-- The given clips on a track of their own, moved so that the origin is at zero. -/
def mergeRequest (track : Track α) (clips : List (Clip α)) (origin : α) (id : String) :
    Timeline α :=
  ofTracks id [{ track with
    clips := clips.map fun c => { c with start := c.start - origin, stop := c.stop - origin } }]

/-- Plans a merge; the request has an id of its own. -/
def planMerge (t : Timeline α) (id : TrackId) (clips : List ClipId) (ids : IdSupply) :
    Except (Refusal α) (MergePlan α) × IdSupply :=
  match t.runOf id clips with
  | .error refusal => (.error refusal, ids)
  | .ok (track, run) =>
      let origin := (run.head?.map Clip.start).getD 0
      (.ok ⟨track.id, track.kind, run, origin, mergeRequest track run origin ids.next⟩, ids.skip 1)

/-! ## Applying -/

/-- Refuses a plan of which a clip is not as it was. -/
def checkCurrent (t : Timeline α) (planned : Clip α) : Except (Refusal α) Unit :=
  match t.clip? planned.id with
  | none => .error (.staleMerge planned.id .removed)
  | some current =>
      if current.track = planned.track && current.span.same planned.span && !current.isLinked then
        .ok ()
      else .error (.staleMerge planned.id .changed)

/-- Refuses a plan that cannot be applied with the given rendering. -/
def checkMerge (t : Timeline α) (plan : MergePlan α) (asset : Asset α)
    (settings : EditorSettings α) : Except (Refusal α) Unit := do
  if !(settings.tolerance < asset.duration : Bool) then
    throw (.invalidValue .duration asset.duration)
  plan.clips.forM t.checkCurrent
  match t.track? plan.track with
  | none => throw (.inconsistent (.lostMergeTrack plan.track))
  | some track =>
      checkFree track (Span.ofLength plan.origin asset.duration) settings.tolerance plan.ids

/-- The clip that plays the rendering. -/
def mergedClip (plan : MergePlan α) (asset : Asset α) (mediaRoot : String) (id : ClipId) : Clip α :=
  Clip.ofAsset asset id plan.kind.medium plan.track plan.origin mediaRoot

/-- Replaces the planned clips by one that plays the rendering. -/
def applyMerge (t : Timeline α) (plan : MergePlan α) (asset : Asset α)
    (settings : EditorSettings α) (ids : IdSupply) :
    Except (Refusal α) (ClipId × Timeline α) × IdSupply :=
  match t.checkMerge plan asset settings with
  | .error refusal => (.error refusal, ids)
  | .ok () =>
      let merged := mergedClip plan asset settings.mediaRoot ids.next
      let next := (plan.ids.foldl erase t).insertAll [merged] .mergeRejected
      (next.map (merged.id, ·), ids.skip 1)

end Timeline

end Montage
