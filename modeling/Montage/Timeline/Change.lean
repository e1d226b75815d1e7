import Montage.Timeline.Basic

/-!
# Changes to a timeline

The ways to put clips and overlays in, take them out and alter them. They check the structure only:
whether clips may overlap is a matter of editing.
-/

namespace Montage.Timeline

variable {α : Type}

/-! ## Clips -/

/-- Puts a clip at the end of the track it names. -/
def insert [Scalar α] (t : Timeline α) (clip : Clip α) : Except (Rejection α) (Timeline α) :=
  if t.index.contains clip.id then .error (.clipExists clip.id)
  else if clip.stop ≤ clip.start then .error (.emptyClip clip.id)
  else
    match t.tracks.findIdx? (·.id = clip.track) with
    | none => .error (.unknownTrack clip.track)
    | some i =>
        let position := ((t.tracks[i]?.map Track.clips).getD []).length
        .ok { t with
          tracks := t.tracks.modify i fun track => { track with clips := track.clips ++ [clip] }
          index := t.index.insert clip.id ⟨i, position⟩ }

/-- Takes a clip out, and returns it. Links that lead to it stay as they are. -/
def remove? (t : Timeline α) (id : ClipId) : Option (Clip α × Timeline α) := do
  let place ← t.locate? id
  let track ← t.tracks[place.track]?
  let clip ← track.clips[place.position]?
  let left := track.clips.eraseIdx place.position
  return (clip, { t with
    tracks := t.tracks.set place.track { track with clips := left }
    index := ClipIndex.notePlaces (t.index.erase id) place.track left })

/-- Takes a clip out if it is there. -/
def erase (t : Timeline α) (id : ClipId) : Timeline α :=
  match t.remove? id with
  | some (_, left) => left
  | none => t

/-- Alters a clip where it stands; its id and its track cannot be altered. -/
def modify? (t : Timeline α) (id : ClipId) (change : Clip α → Clip α) : Option (Timeline α) := do
  let place ← t.locate? id
  let track ← t.tracks[place.track]?
  let clip ← track.clips[place.position]?
  let altered := { change clip with id := clip.id, track := clip.track }
  return { t with
    tracks := t.tracks.set place.track
      { track with clips := track.clips.set place.position altered } }

/-- Alters a clip if it is there. -/
def modify (t : Timeline α) (id : ClipId) (change : Clip α → Clip α) : Timeline α :=
  (t.modify? id change).getD t

/-! ## Overlays -/

/-- Adds a caption that may be drawn. -/
def addCaption [Scalar α] (t : Timeline α) (caption : Caption α) :
    Except (Rejection α) (Timeline α) := do
  caption.check
  if t.hasOverlay caption.id then throw (.overlayExists caption.id)
  return { t with captions := t.captions ++ [caption] }

/-- Adds a shape that may be drawn. -/
def addShape [Scalar α] (t : Timeline α) (shape : Shape α) :
    Except (Rejection α) (Timeline α) := do
  shape.check
  if t.hasOverlay shape.id then throw (.overlayExists shape.id)
  return { t with shapes := t.shapes ++ [shape] }

/-- Takes out every overlay with the given id. -/
def removeOverlay (t : Timeline α) (id : String) : Timeline α :=
  { t with
    captions := t.captions.filter (·.id ≠ id)
    shapes := t.shapes.filter (·.id ≠ id) }

end Montage.Timeline
