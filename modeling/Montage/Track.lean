import Montage.Clip

/-!
# Tracks

A track holds clips of one medium. The order of its clips carries no meaning.
-/

namespace Montage

/-- What a track is for; an `av` track holds the sound of the clips on the video track. -/
inductive TrackKind
  | video
  | audio
  | av
deriving DecidableEq, Repr, Inhabited

namespace TrackKind

/-- The medium of the clips on a track of this kind. -/
def medium : TrackKind → Medium
  | .video => .video
  | .audio | .av => .audio

/-- Whether clips of a medium may stand on a track of this kind. -/
def accepts (kind : TrackKind) (medium : Medium) : Bool :=
  kind.medium = medium

/-- Whether a track of this kind carries sound. -/
def bearsAudio : TrackKind → Bool
  | .video => false
  | .audio | .av => true

/-- The kind as messages name it. -/
def label : TrackKind → String
  | .video => "Video"
  | .audio => "Audio"
  | .av => "Av"

/-- The kind as documents name it. -/
def wireName : TrackKind → String
  | .video => "video"
  | .audio => "audio"
  | .av => "av"

end TrackKind

/-- A row of the timeline. -/
structure Track (α : Type) where
  id : TrackId
  kind : TrackKind
  clips : List (Clip α)
deriving DecidableEq, Repr

namespace Track

variable {α : Type} [Scalar α]

/-- The latest stop on the track, zero when there is none. -/
def lastStop (track : Track α) : α :=
  (track.clips.map Clip.stop).foldl Scalar.larger 0

/-- The clips that overlap a span, except those with an id to ignore. -/
def overlapping (track : Track α) (span : Span α) (ε : α) (ignore : List ClipId) :
    List (Clip α) :=
  track.clips.filter fun clip => !ignore.contains clip.id && clip.span.overlaps span ε

/-- Whether a span is free, apart from clips with an id to ignore. -/
def isFree (track : Track α) (span : Span α) (ε : α) (ignore : List ClipId) : Bool :=
  (track.overlapping span ε ignore).isEmpty

end Track

end Montage
