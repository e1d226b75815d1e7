import Montage.Editing.Links
import Montage.Timeline.Change

/-!
# Deleting and adjusting clips
-/

namespace Montage.Timeline

variable {α : Type}

/-- Takes out every selected clip with its partner; the ids come in their order. -/
def delete (t : Timeline α) (selection : ClipSet) : Except (Refusal α) (List ClipId × Timeline α) :=
  (t.linkClosure selection.toList).map fun closed =>
    (closed.toList, closed.toList.foldl erase t)

variable [Scalar α]

/-- Sets the volume of one clip; its partner keeps its own. -/
def setVolume (t : Timeline α) (id : ClipId) (volume : α) : Except (Refusal α) (Timeline α) :=
  if !Scalar.isFinite volume || volume < 0 then .error (.invalidValue .volume volume)
  else
    match t.clip? id with
    | none => .error (.clipNotFound id)
    | some _ => .ok (t.modify id fun c => { c with volume := volume })

/-- Sets the speed of a clip and of its partner. Their spans stay as they are. -/
def setSpeed (t : Timeline α) (id : ClipId) (speed : α) : Except (Refusal α) (Timeline α) :=
  if !Scalar.isFinite speed || speed ≤ 0 then .error (.invalidValue .speed speed)
  else
    match t.clip? id with
    | none => .error (.clipNotFound id)
    | some clip =>
        let adjust (t : Timeline α) (id : ClipId) := t.modify id fun c => { c with speed := speed }
        match clip.link with
        | none => .ok (adjust t clip.id)
        | some link =>
            match t.clip? link with
            | none => .error (.inconsistent (.danglingLink id link))
            | some _ => .ok (adjust (adjust t clip.id) link)

end Montage.Timeline
