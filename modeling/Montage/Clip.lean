import Montage.Media
import Montage.Span

/-!
# Clips

A clip plays a stretch of a source during a span of the timeline.
-/

namespace Montage

/-- Names a clip. -/
abbrev ClipId := String

/-- Names a track. -/
abbrev TrackId := String

/-- A stretch of source media placed on a track. -/
structure Clip (α : Type) where
  id : ClipId
  track : TrackId
  /-- The media, as the render service finds it. -/
  source : String
  start : α
  stop : α
  /-- Where in the source the clip begins. -/
  offset : α
  medium : Medium
  /-- Linear gain; one leaves the sound as it is. -/
  volume : α
  /-- Source seconds for each second of the timeline. -/
  speed : α
  layer : Int32
  /-- The partner on another track, as a picture has its sound. -/
  link : Option ClipId
deriving DecidableEq, Repr

namespace Clip

variable {α : Type} [Scalar α]

/-- The clip that plays a whole asset from the given instant on. -/
def ofAsset (asset : Asset α) (id : ClipId) (medium : Medium) (track : TrackId) (start : α)
    (mediaRoot : String) : Clip α where
  id := id
  track := track
  source := asset.sourcePath mediaRoot
  start := start
  stop := start + asset.duration
  offset := 0
  medium := medium
  volume := 1
  speed := 1
  layer := 0
  link := none

omit [Scalar α] in
/-- When the clip plays. -/
def span (clip : Clip α) : Span α :=
  ⟨clip.start, clip.stop⟩

/-- How long the clip plays. -/
def duration (clip : Clip α) : α :=
  clip.stop - clip.start

/-- How much of the source the clip plays. -/
def sourceDuration (clip : Clip α) : α :=
  clip.duration * clip.speed

/-- Where in the source the clip is at an instant of the timeline. -/
def offsetAt (clip : Clip α) (instant : α) : α :=
  clip.offset + (instant - clip.start) * clip.speed

omit [Scalar α] in
/-- Whether the clip has a partner. -/
def isLinked (clip : Clip α) : Bool :=
  clip.link.isSome

/-- Whether two clips agree in start, stop, source offset and speed up to `ε`. -/
def inSync (a b : Clip α) (ε : α) : Bool :=
  Scalar.abs (a.start - b.start) ≤ ε && Scalar.abs (a.stop - b.stop) ≤ ε &&
    Scalar.abs (a.offset - b.offset) ≤ ε && Scalar.abs (a.speed - b.speed) ≤ ε

end Clip

end Montage
