import Montage.Editing.Links
import Montage.Editing.Placement

/-!
# Drags

A drag remembers where every selected clip stood when the pointer went down. Each move finds the
shift from there anew, so that errors cannot pile up, and the timeline is touched only at the end:
all clips move, or none does.
-/

namespace Montage

/-- A dragged clip as it stood when the drag began. -/
structure Held (α : Type) where
  clip : ClipId
  track : TrackId
  start : α
  stop : α
deriving DecidableEq, Repr

/-- When the dragged clip played. -/
def Held.span {α : Type} (held : Held α) : Span α :=
  ⟨held.start, held.stop⟩

/-- A drag under way. -/
structure Drag (α : Type) where
  held : List (Held α)
  /-- Where the pointer went down. -/
  origin : α
  /-- The present shift, in seconds. -/
  delta : α
deriving DecidableEq, Repr

/-- How a drag ended. -/
inductive Release (α : Type)
  | moved (timeline : Timeline α) (delta : α)
  | snappedBack (reason : Refusal α)

namespace Drag

variable {α : Type} [Scalar α]

/-! ## While the pointer is down -/

/-- Begins a drag of the selection at one of its clips. -/
def start (t : Timeline α) (selection : ClipSet) (clip : ClipId) (pointer : α) :
    Except (Refusal α) (Drag α) := do
  if (t.clip? clip).isNone then throw (.clipNotFound clip)
  if !selection.contains clip then throw (.notSelected clip)
  let closed ← t.linkClosure selection.toList
  let held := (t.clips.filter fun c => closed.contains c.id).map fun c =>
    ⟨c.id, c.track, c.start, c.stop⟩
  return ⟨held, pointer, 0⟩

omit [Scalar α] in
/-- The ids of the dragged clips. -/
def ids (d : Drag α) : List ClipId :=
  d.held.map Held.clip

/-- The offers of the instant zero, one for each dragged clip. -/
def zeroOffers (d : Drag α) (raw : α) : List (α × α) :=
  d.held.map fun h => (h.start + raw, -h.start)

/-- The offers of the edges beside one dragged clip. -/
def edgeOffers (h : Held α) (raw : α) (neighbors : List (Clip α)) : List (α × α) :=
  neighbors.flatMap fun n =>
    [(h.start + raw - n.stop, n.stop - h.start), (h.stop + raw - n.start, n.start - h.stop)]

/-- The offers of all edges on the tracks of the dragged clips. -/
def neighborOffers (d : Drag α) (t : Timeline α) (raw : α) : List (α × α) :=
  d.held.flatMap fun h =>
    match t.track? h.track with
    | none => []
    | some track => edgeOffers h raw (track.clips.filter fun c => !d.ids.contains c.id)

/-- A shift, pulled to zero and to the edges of other clips; zero has priority. -/
def snap (d : Drag α) (t : Timeline α) (raw threshold : α) : α :=
  ((Magnet.within threshold).offerAll (d.zeroOffers raw ++ d.neighborOffers t raw)).resolve raw

/-- The pointer moved. A position that is not finite is kept as it is. -/
def move (d : Drag α) (t : Timeline α) (pointer : α) (settings : EditorSettings α) : Drag α :=
  let raw := settings.secondsOf (pointer - d.origin)
  { d with delta := if Scalar.isFinite raw then d.snap t raw settings.snapSeconds else raw }

/-- Where a clip is drawn; a shift that is not finite is not drawn. -/
def preview? (d : Drag α) (clip : ClipId) : Option (Span α) :=
  (d.held.find? (·.clip = clip)).map fun h =>
    h.span.shift (if Scalar.isFinite d.delta then d.delta else 0)

/-! ## The release -/

/-- The earliest start of the dragged clips. -/
def earliest? (d : Drag α) : Option α :=
  match d.held.map Held.start with
  | [] => none
  | first :: rest => some (rest.foldl Scalar.smaller first)

/-- The shift, cut short so that no clip starts before zero. -/
def feasibleDelta (d : Drag α) : α :=
  match d.earliest? with
  | none => d.delta
  | some least => if Scalar.isFinite least && least + d.delta < 0 then -least else d.delta

/-- Refuses a shift of one dragged clip that does not work out. -/
def checkHeld (d : Drag α) (t : Timeline α) (delta ε : α) (h : Held α) :
    Except (Refusal α) Unit := do
  if (t.clip? h.clip).isNone then throw (.clipNotFound h.clip)
  match t.track? h.track with
  | none => throw (.inconsistent (.strandedDrag h.clip h.track))
  | some track =>
      let target := h.span.shift delta
      if !(target.start < target.stop : Bool) then throw (.invalidValue .delta delta)
      Timeline.checkFree track target ε d.ids

/-- The shift that the release makes, after all checks. -/
def verdict (d : Drag α) (t : Timeline α) (ε : α) : Except (Refusal α) α :=
  if Scalar.isFinite d.delta then do
    let delta := d.feasibleDelta
    d.held.forM (d.checkHeld t delta ε)
    return delta
  else .error (.invalidValue .delta d.delta)

/-- The timeline with every dragged clip at its old place plus the shift. -/
def shifted (d : Drag α) (t : Timeline α) (delta : α) : Timeline α :=
  d.held.foldl (fun t h => t.modify h.clip fun c =>
    { c with start := h.start + delta, stop := h.stop + delta }) t

/-- The pointer was released, or it left the timeline. -/
def release (d : Drag α) (t : Timeline α) (settings : EditorSettings α) : Release α :=
  match d.verdict t settings.tolerance with
  | .ok delta => .moved (d.shifted t delta) delta
  | .error reason => .snappedBack reason

end Drag

end Montage
