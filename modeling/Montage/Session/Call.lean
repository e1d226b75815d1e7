import Montage.Session.Basic

/-!
# Calls on a session

The calls that change a session, as values. A session is then a machine that takes one call at a
time, and a run of it is a list of calls.
-/

namespace Montage

/-- A call on a session. -/
inductive Call (α : Type)
  | register (asset : Asset α)
  | place (asset : AssetId) (hint : Option TrackId) (drop : Drop α)
  | placeAsset (asset : Asset α) (hint : Option TrackId) (drop : Drop α)
  | select (clip : ClipId) (additive : Bool)
  | clearSelection
  | pointerDown (clip : ClipId) (pointer : α)
  | pointerMove (pointer : α)
  | pointerUp
  | pointerLeave
  | split (clip : ClipId) (instant : α)
  | deleteSelection
  | setVolume (clip : ClipId) (volume : α)
  | setSpeed (clip : ClipId) (speed : α)
  | planMerge (track : TrackId) (clips : List ClipId)
  | applyMerge (plan : MergePlan α) (asset : Asset α)

/-- What a call that is not refused answers. -/
inductive Answer (α : Type)
  | done
  | placed (placed : Placed α)
  | selection (ids : ClipSet)
  | shift (delta : Option α)
  | dragEnd (how : Option (DragEnd α))
  | rights (ids : List ClipId)
  | removed (ids : List ClipId)
  | plan (plan : MergePlan α)
  | merged (clip : ClipId)

namespace Session

variable {α : Type} [Scalar α]

/-- One call: its answer, and the session after it. -/
def step (s : Session α) : Call α → Except (Refusal α) (Answer α) × Session α
  | .register asset => (.ok .done, s.register asset)
  | .place asset hint drop => answer .placed (s.place asset hint drop)
  | .placeAsset asset hint drop => answer .placed (s.placeAsset asset hint drop)
  | .select clip additive => answer .selection (s.select clip additive)
  | .clearSelection => (.ok .done, s.clearSelection)
  | .pointerDown clip pointer => answer (fun _ => .done) (s.pointerDown clip pointer)
  | .pointerMove pointer =>
      let (delta, s) := s.pointerMove pointer
      (.ok (.shift delta), s)
  | .pointerUp | .pointerLeave =>
      let (how, s) := s.pointerUp
      (.ok (.dragEnd how), s)
  | .split clip instant => answer .rights (s.split clip instant)
  | .deleteSelection => answer .removed s.deleteSelection
  | .setVolume clip volume => answer (fun _ => .done) (s.setVolume clip volume)
  | .setSpeed clip speed => answer (fun _ => .done) (s.setSpeed clip speed)
  | .planMerge track clips => answer .plan (s.planMerge track clips)
  | .applyMerge plan asset => answer .merged (s.applyMerge plan asset)
where
  answer {β : Type} (wrap : β → Answer α) (result : Except (Refusal α) β × Session α) :
      Except (Refusal α) (Answer α) × Session α :=
    (result.1.map wrap, result.2)

/-- The session after a list of calls. -/
def run (s : Session α) (calls : List (Call α)) : Session α :=
  calls.foldl (fun s call => (s.step call).2) s

end Session

end Montage
