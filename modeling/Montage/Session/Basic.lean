import Montage.Editing.Adjustment
import Montage.Editing.Drag
import Montage.Editing.Merge
import Montage.Editing.Split

/-!
# Editing sessions

A session holds the present timeline of one project together with the library, the selection, the
drag under way and the supply of ids. Every call either commits one new timeline, which raises the
revision and is noted for whoever observes the session, or it leaves the timeline as it is.
-/

namespace Montage

/-- A committed timeline and its revision. -/
structure Change (α : Type) where
  revision : Nat
  timeline : Timeline α

/-- How a drag ended for the session. -/
inductive DragEnd (α : Type)
  | moved (delta : α)
  | snappedBack (reason : Refusal α)
deriving DecidableEq, Repr

/-- The state of one project's editing. -/
structure Session (α : Type) where
  timeline : Timeline α
  library : Library α
  selection : ClipSet
  drag : Option (Drag α)
  settings : EditorSettings α
  /-- How many timelines have been committed; the count is taken never to come back to zero. -/
  revision : Nat
  ids : IdSupply
  /-- Whether committed timelines are noted. -/
  observed : Bool
  /-- The committed timelines that nobody has collected yet, oldest first. -/
  outbox : List (Change α)

namespace Session

variable {α : Type} [Scalar α]

/-! ## Opening and committing -/

omit [Scalar α] in
/-- A session that begins at a timeline. -/
def start (timeline : Timeline α) (library : Library α) (settings : EditorSettings α)
    (ids : IdSupply) (observed : Bool) : Session α where
  timeline := timeline
  library := library
  selection := ∅
  drag := none
  settings := settings
  revision := 0
  ids := ids
  observed := observed
  outbox := []

omit [Scalar α] in
/--
Makes a timeline the present one. The selection keeps the clips that are still there; if their links
lead nowhere, it is empty.
-/
def commit (s : Session α) (next : Timeline α) : Session α :=
  let revision := s.revision + 1
  { s with
    timeline := next
    selection := (next.retainSelection s.selection).toOption.getD ∅
    revision := revision
    outbox := if s.observed then s.outbox ++ [⟨revision, next⟩] else s.outbox }

omit [Scalar α] in
/-- The noted timelines, and the session without them. -/
def collect (s : Session α) : List (Change α) × Session α :=
  (s.outbox, { s with outbox := [] })

/-! ## Assets -/

omit [Scalar α] in
/-- Registers an asset. -/
def register (s : Session α) (asset : Asset α) : Session α :=
  { s with library := s.library.register asset }

/-- Places an asset, and registers it. -/
def placeAsset (s : Session α) (asset : Asset α) (hint : Option TrackId) (drop : Drop α) :
    Except (Refusal α) (Placed α) × Session α :=
  match s.timeline.place asset hint drop s.settings s.ids with
  | (.error refusal, ids) => (.error refusal, { s with ids })
  | (.ok (placed, next), ids) => (.ok placed, ({ s with ids }.register asset).commit next)

/-- Places an asset of the library. -/
def place (s : Session α) (id : AssetId) (hint : Option TrackId) (drop : Drop α) :
    Except (Refusal α) (Placed α) × Session α :=
  match s.library.find? id with
  | none => (.error (.assetNotFound id), s)
  | some asset => s.placeAsset asset hint drop

/-! ## Selecting and dragging -/

omit [Scalar α] in
/-- A click on a clip. -/
def select (s : Session α) (clip : ClipId) (additive : Bool) :
    Except (Refusal α) ClipSet × Session α :=
  match s.timeline.select s.selection clip additive with
  | .error refusal => (.error refusal, s)
  | .ok selection => (.ok selection, { s with selection })

omit [Scalar α] in
/-- Selects nothing. -/
def clearSelection (s : Session α) : Session α :=
  { s with selection := ∅ }

/-- The pointer goes down on a clip: the clip is selected if it was not, and a drag begins. -/
def pointerDown (s : Session α) (clip : ClipId) (pointer : α) :
    Except (Refusal α) Unit × Session α :=
  if s.selection.contains clip then beginDrag s
  else
    match s.select clip false with
    | (.error refusal, s) => (.error refusal, s)
    | (.ok _, s) => beginDrag s
where
  beginDrag (s : Session α) : Except (Refusal α) Unit × Session α :=
    match Drag.start s.timeline s.selection clip pointer with
    | .error refusal => (.error refusal, s)
    | .ok drag => (.ok (), { s with drag := some drag })

/-- The pointer moves; the answer is the shift of the drag, if there is one. -/
def pointerMove (s : Session α) (pointer : α) : Option α × Session α :=
  match s.drag with
  | none => (none, s)
  | some drag =>
      let drag := drag.move s.timeline pointer s.settings
      (some drag.delta, { s with drag := some drag })

/-- Where a clip is drawn during a drag. -/
def preview? (s : Session α) (clip : ClipId) : Option (Span α) :=
  s.drag.bind fun drag => drag.preview? clip

/-- The pointer goes up, or it leaves the timeline, which ends a drag in the same way. -/
def pointerUp (s : Session α) : Option (DragEnd α) × Session α :=
  match s.drag with
  | none => (none, s)
  | some drag =>
      let s := { s with drag := none }
      match drag.release s.timeline s.settings with
      | .snappedBack reason => (some (.snappedBack reason), s)
      | .moved next delta => (some (.moved delta), if delta == 0 then s else s.commit next)

/-! ## Changing clips -/

/-- Splits a clip; the answer is the ids of the right halves, none if there was nothing to split. -/
def split (s : Session α) (clip : ClipId) (instant : α) :
    Except (Refusal α) (List ClipId) × Session α :=
  match s.timeline.split clip instant s.settings.tolerance s.ids with
  | (.error refusal, ids) => (.error refusal, { s with ids })
  | (.ok none, ids) => (.ok [], { s with ids })
  | (.ok (some (rights, next)), ids) => (.ok rights, { s with ids }.commit next)

omit [Scalar α] in
/-- Deletes the selected clips with their partners. -/
def deleteSelection (s : Session α) : Except (Refusal α) (List ClipId) × Session α :=
  match s.timeline.delete s.selection with
  | .error refusal => (.error refusal, s)
  | .ok (removed, next) => (.ok removed, if removed.isEmpty then s else s.commit next)

omit [Scalar α] in
/-- Commits the result of an edit, or answers why there is none. -/
def finish (s : Session α) (result : Except (Refusal α) (Timeline α)) :
    Except (Refusal α) Unit × Session α :=
  match result with
  | .error refusal => (.error refusal, s)
  | .ok next => (.ok (), s.commit next)

/-- Sets the volume of a clip. -/
def setVolume (s : Session α) (clip : ClipId) (volume : α) : Except (Refusal α) Unit × Session α :=
  s.finish (s.timeline.setVolume clip volume)

/-- Sets the speed of a clip and its partner. -/
def setSpeed (s : Session α) (clip : ClipId) (speed : α) : Except (Refusal α) Unit × Session α :=
  s.finish (s.timeline.setSpeed clip speed)

/-! ## Merging -/

/-- Plans a merge on the present timeline. -/
def planMerge (s : Session α) (track : TrackId) (clips : List ClipId) :
    Except (Refusal α) (MergePlan α) × Session α :=
  let (plan, ids) := s.timeline.planMerge track clips s.ids
  (plan, { s with ids })

/-- Applies a plan to the present timeline, and registers the rendering. -/
def applyMerge (s : Session α) (plan : MergePlan α) (asset : Asset α) :
    Except (Refusal α) ClipId × Session α :=
  match s.timeline.applyMerge plan asset s.settings s.ids with
  | (.error refusal, ids) => (.error refusal, { s with ids })
  | (.ok (merged, next), ids) => (.ok merged, ({ s with ids }.register asset).commit next)

end Session

end Montage
