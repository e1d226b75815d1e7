import Montage.Overlay
import Montage.Track
import Std.Data.ExtTreeMap

/-!
# Timelines

A timeline is a fixed list of tracks with their clips, the overlays, and an index that finds a
clip by its id. The index is kept in step by every change; `Timeline.ofTracks` is what it is
compared with.
-/

namespace Montage

/-- Where a clip stands: its track's position in the track list, and its own on that track. -/
structure Location where
  track : Nat
  position : Nat
deriving DecidableEq, Repr

/-- Finds clips by id. -/
abbrev ClipIndex := Std.ExtTreeMap ClipId Location

namespace ClipIndex

variable {α : Type}

/-- Notes the places of a track's clips; of clips with one id the last place counts. -/
def notePlaces (index : ClipIndex) (track : Nat) (clips : List (Clip α)) : ClipIndex :=
  clips.zipIdx.foldl (fun index (clip, position) => index.insert clip.id ⟨track, position⟩) index

/-- The index of a track list. -/
def ofTracks (tracks : List (Track α)) : ClipIndex :=
  tracks.zipIdx.foldl (fun index (track, i) => index.notePlaces i track.clips) ∅

end ClipIndex

/-- The tracks, clips and overlays of one project. -/
structure Timeline (α : Type) where
  id : String
  tracks : List (Track α)
  captions : List (Caption α)
  shapes : List (Shape α)
  index : ClipIndex

namespace Timeline

variable {α : Type}

/-! ## Making -/

/-- A timeline whose index is made from its tracks. -/
def assemble (id : String) (tracks : List (Track α)) (captions : List (Caption α))
    (shapes : List (Shape α)) : Timeline α :=
  ⟨id, tracks, captions, shapes, .ofTracks tracks⟩

/-- A timeline with the given tracks and no overlays. -/
def ofTracks (id : String) (tracks : List (Track α)) : Timeline α :=
  assemble id tracks [] []

/-- The tracks of a new project: one for pictures, one for their sound, and the free audio tracks. -/
def standardTracks (audioTracks : Nat) : List (Track α) :=
  [⟨"video-1", .video, []⟩, ⟨"av-1", .av, []⟩] ++
    (List.range audioTracks).map fun n => ⟨s!"audio-{n + 1}", .audio, []⟩

/-- The timeline of a new project. -/
def standard (id : String) (audioTracks : Nat) : Timeline α :=
  ofTracks id (standardTracks audioTracks)

/-! ## Looking -/

/-- The first track with the given id. -/
def track? (t : Timeline α) (id : TrackId) : Option (Track α) :=
  t.tracks.find? (·.id = id)

/-- The first track of the given kind. -/
def firstOfKind? (t : Timeline α) (kind : TrackKind) : Option (Track α) :=
  t.tracks.find? (·.kind = kind)

/-- Where the index finds a clip. -/
def locate? (t : Timeline α) (id : ClipId) : Option Location :=
  t.index[id]?

/-- What stands at a place. -/
def clipAt? (t : Timeline α) (place : Location) : Option (Clip α) := do
  (← t.tracks[place.track]?).clips[place.position]?

/-- The clip with the given id. -/
def clip? (t : Timeline α) (id : ClipId) : Option (Clip α) := do
  t.clipAt? (← t.locate? id)

/-- The track that holds the clip with the given id. -/
def trackOf? (t : Timeline α) (id : ClipId) : Option (Track α) := do
  t.tracks[(← t.locate? id).track]?

/-- The partner of the clip with the given id, if its link leads somewhere. -/
def partner? (t : Timeline α) (id : ClipId) : Option (Clip α) := do
  t.clip? (← (← t.clip? id).link)

/-- All clips, track by track. -/
def clips (t : Timeline α) : List (Clip α) :=
  t.tracks.flatMap Track.clips

/-- The number of ids that the index finds. -/
def clipCount (t : Timeline α) : Nat :=
  t.index.size

/-- Whether the index finds no clip. -/
def isEmpty (t : Timeline α) : Bool :=
  t.index.isEmpty

/-- The latest stop on any track, zero when there is none. -/
def duration [Scalar α] (t : Timeline α) : α :=
  (t.tracks.map Track.lastStop).foldl Scalar.larger 0

/-- Whether an overlay has the given id. -/
def hasOverlay (t : Timeline α) (id : String) : Bool :=
  t.captions.any (·.id = id) || t.shapes.any (·.id = id)

end Timeline

end Montage
