import Montage.Timeline.Basic
import Montage.Wire.Media

/-!
# Timelines as documents

The document of a timeline has its tracks and overlays in order. It also tells the duration, which
is derived and therefore not read.
-/

namespace Montage

open Json (str int)

variable {α : Type} [Scalar α] [WireNumber α]

/-! ## Spans -/

namespace Span

omit [Scalar α] in
/-- The document of a span. -/
def toJson (span : Span α) : Json :=
  .record [("start", WireNumber.toJson span.start), ("end", WireNumber.toJson span.stop)]

omit [Scalar α] in
/-- Reads the document of a span. -/
def ofJson? (j : Json) : Option (Span α) := do
  let fields ← j.fields? ["start", "end"]
  return ⟨← fields.need "start" WireNumber.ofJson?, ← fields.need "end" WireNumber.ofJson?⟩

end Span

/-! ## Clips and tracks -/

namespace Clip

omit [Scalar α] in
/-- The document of a clip. -/
def toJson (clip : Clip α) : Json :=
  .record [
    ("id", str clip.id),
    ("track_id", str clip.track),
    ("source_path", str clip.source),
    ("start_time", WireNumber.toJson clip.start),
    ("end_time", WireNumber.toJson clip.stop),
    ("source_start", WireNumber.toJson clip.offset),
    ("type", clip.medium.toJson),
    ("volume", WireNumber.toJson clip.volume),
    ("speed", WireNumber.toJson clip.speed),
    ("z_index", int clip.layer.toInt),
    ("linked_id", match clip.link with
      | some id => str id
      | none => .null)]

/-- Reads the document of a clip. -/
def ofJson? (j : Json) : Option (Clip α) := do
  let fields ← j.fields? ["id", "track_id", "source_path", "start_time", "end_time",
    "source_start", "type", "volume", "speed", "z_index", "linked_id"]
  return {
    id := ← fields.need "id" Json.text?
    track := ← fields.need "track_id" Json.text?
    source := ← fields.need "source_path" Json.text?
    start := ← fields.need "start_time" WireNumber.ofJson?
    stop := ← fields.need "end_time" WireNumber.ofJson?
    offset := ← fields.need "source_start" WireNumber.ofJson?
    medium := ← fields.need "type" Medium.ofJson?
    volume := ← fields.orElse "volume" 1 WireNumber.ofJson?
    speed := ← fields.orElse "speed" 1 WireNumber.ofJson?
    layer := ← fields.orElse "z_index" 0 Json.signed32?
    link := ← fields.orElse "linked_id" none (Json.nullable? Json.text?) }

end Clip

/-- A track kind's name. -/
def TrackKind.toJson (kind : TrackKind) : Json := str kind.wireName

/-- The track kind with the given name. -/
def TrackKind.ofJson? (j : Json) : Option TrackKind :=
  match j.caseName? with
  | some "video" => some .video
  | some "audio" => some .audio
  | some "av" => some .av
  | _ => none

namespace Track

omit [Scalar α] in
/-- The document of a track. -/
def toJson (track : Track α) : Json :=
  .record [("id", str track.id), ("type", track.kind.toJson),
    ("clips", .array (track.clips.map Clip.toJson))]

/-- Reads the document of a track. -/
def ofJson? (j : Json) : Option (Track α) := do
  let fields ← j.fields? ["id", "type", "clips"]
  return {
    id := ← fields.need "id" Json.text?
    kind := ← fields.need "type" TrackKind.ofJson?
    clips := ← fields.orElse "clips" [] (Json.list? Clip.ofJson?) }

end Track

/-! ## Overlays -/

namespace Caption

omit [Scalar α] in
/-- The document of a caption. -/
def toJson (caption : Caption α) : Json :=
  .record [
    ("id", str caption.id),
    ("text", str caption.text),
    ("start_time", WireNumber.toJson caption.start),
    ("end_time", WireNumber.toJson caption.stop),
    ("x", WireNumber.toJson caption.x),
    ("y", WireNumber.toJson caption.y),
    ("font_size", int caption.fontSize.toNat),
    ("font_family", str caption.fontFamily),
    ("color", str caption.color)]

/-- Reads the document of a caption; what it leaves out is as in a standard one. -/
def ofJson? (j : Json) : Option (Caption α) := do
  let fields ← j.fields? ["id", "text", "start_time", "end_time", "x", "y", "font_size",
    "font_family", "color"]
  let plain := standard (← fields.need "id" Json.text?) (← fields.need "text" Json.text?)
    (← fields.need "start_time" WireNumber.ofJson?) (← fields.need "end_time" WireNumber.ofJson?)
  return { plain with
    x := ← fields.orElse "x" plain.x WireNumber.ofJson?
    y := ← fields.orElse "y" plain.y WireNumber.ofJson?
    fontSize := ← fields.orElse "font_size" plain.fontSize Json.word32?
    fontFamily := ← fields.orElse "font_family" plain.fontFamily Json.text?
    color := ← fields.orElse "color" plain.color Json.text? }

end Caption

/-- A shape kind's name. -/
def ShapeKind.toJson (kind : ShapeKind) : Json := str kind.wireName

/-- The shape kind with the given name. -/
def ShapeKind.ofJson? (j : Json) : Option ShapeKind :=
  match j.caseName? with
  | some "line" => some .line
  | some "arrow" => some .arrow
  | _ => none

namespace Shape

omit [Scalar α] in
/-- The document of a shape. -/
def toJson (shape : Shape α) : Json :=
  .record [
    ("id", str shape.id),
    ("name", str shape.name),
    ("type", shape.kind.toJson),
    ("start_time", WireNumber.toJson shape.start),
    ("end_time", WireNumber.toJson shape.stop),
    ("x1", WireNumber.toJson shape.x1),
    ("y1", WireNumber.toJson shape.y1),
    ("x2", WireNumber.toJson shape.x2),
    ("y2", WireNumber.toJson shape.y2),
    ("color", str shape.color),
    ("width", int shape.width.toNat)]

/-- Reads the document of a shape; what it leaves out is as in a standard one. -/
def ofJson? (j : Json) : Option (Shape α) := do
  let fields ← j.fields? ["id", "name", "type", "start_time", "end_time", "x1", "y1", "x2", "y2",
    "color", "width"]
  let plain := standard (← fields.need "id" Json.text?) (← fields.need "type" ShapeKind.ofJson?)
    (← fields.need "start_time" WireNumber.ofJson?) (← fields.need "end_time" WireNumber.ofJson?)
  return { plain with
    name := ← fields.orElse "name" plain.name Json.text?
    x1 := ← fields.orElse "x1" plain.x1 WireNumber.ofJson?
    y1 := ← fields.orElse "y1" plain.y1 WireNumber.ofJson?
    x2 := ← fields.orElse "x2" plain.x2 WireNumber.ofJson?
    y2 := ← fields.orElse "y2" plain.y2 WireNumber.ofJson?
    color := ← fields.orElse "color" plain.color Json.text?
    width := ← fields.orElse "width" plain.width Json.word32? }

end Shape

/-! ## Timelines -/

namespace Timeline

/-- The document of a timeline. -/
def toJson (t : Timeline α) : Json :=
  .record [
    ("id", str t.id),
    ("tracks", .array (t.tracks.map Track.toJson)),
    ("duration", WireNumber.toJson t.duration),
    ("text_overlays", .array (t.captions.map Caption.toJson)),
    ("shape_overlays", .array (t.shapes.map Shape.toJson))]

/-- Reads the document of a timeline; the duration has to be a number, whatever it is. -/
def ofJson? (j : Json) : Option (Timeline α) := do
  let fields ← j.fields? ["id", "tracks", "duration", "text_overlays", "shape_overlays"]
  let _ ← fields.orElse "duration" (0 : α) WireNumber.ofJson?
  return assemble
    (← fields.need "id" Json.text?)
    (← fields.orElse "tracks" [] (Json.list? Track.ofJson?))
    (← fields.orElse "text_overlays" [] (Json.list? Caption.ofJson?))
    (← fields.orElse "shape_overlays" [] (Json.list? Shape.ofJson?))

end Timeline

end Montage
