import Montage.Settings
import Montage.Wire.Number

/-!
# Settings as documents

Whatever a settings document leaves out keeps its standard value.
-/

namespace Montage

open Json (str int)

namespace ServiceSettings

/-- The document of the service settings. -/
def toJson (s : ServiceSettings) : Json :=
  .record [("base_url", str s.baseUrl), ("timeout_secs", int s.timeoutSeconds.toNat)]

/-- Reads the document of the service settings. -/
def ofJson? (j : Json) : Option ServiceSettings := do
  let fields ← j.fields? ["base_url", "timeout_secs"]
  let plain : ServiceSettings := {}
  return {
    baseUrl := ← fields.orElse "base_url" plain.baseUrl Json.text?
    timeoutSeconds := ← fields.orElse "timeout_secs" plain.timeoutSeconds Json.word64? }

end ServiceSettings

namespace EditorSettings

variable {α : Type} [WireNumber α]

/-- The document of the editor settings. -/
def toJson (s : EditorSettings α) : Json :=
  .record [
    ("pixels_per_second", WireNumber.toJson s.pixelsPerSecond),
    ("snap_threshold_px", WireNumber.toJson s.snapPixels),
    ("overlap_epsilon", WireNumber.toJson s.tolerance),
    ("preview_debounce_ms", int s.previewDelay.toNat),
    ("media_root", str s.mediaRoot),
    ("audio_tracks", int s.audioTracks.toNat)]

/-- Reads the document of the editor settings. -/
def ofJson? [Scalar α] (j : Json) : Option (EditorSettings α) := do
  let fields ← j.fields? ["pixels_per_second", "snap_threshold_px", "overlap_epsilon",
    "preview_debounce_ms", "media_root", "audio_tracks"]
  let plain : EditorSettings α := standard
  return {
    pixelsPerSecond :=
      ← fields.orElse "pixels_per_second" plain.pixelsPerSecond WireNumber.ofJson?
    snapPixels := ← fields.orElse "snap_threshold_px" plain.snapPixels WireNumber.ofJson?
    tolerance := ← fields.orElse "overlap_epsilon" plain.tolerance WireNumber.ofJson?
    previewDelay := ← fields.orElse "preview_debounce_ms" plain.previewDelay Json.word64?
    mediaRoot := ← fields.orElse "media_root" plain.mediaRoot Json.text?
    audioTracks := ← fields.orElse "audio_tracks" plain.audioTracks Json.word64? }

end EditorSettings

namespace LogSettings

/-- The document of the log settings. -/
def toJson (s : LogSettings) : Json :=
  .record [("level", str s.level), ("json", .bool s.json),
    ("file", match s.file with
      | some path => str path
      | none => .null)]

/-- Reads the document of the log settings. -/
def ofJson? (j : Json) : Option LogSettings := do
  let fields ← j.fields? ["level", "json", "file"]
  let plain : LogSettings := {}
  return {
    level := ← fields.orElse "level" plain.level Json.text?
    json := ← fields.orElse "json" plain.json Json.bool?
    file := ← fields.orElse "file" plain.file (Json.nullable? Json.text?) }

end LogSettings

namespace Settings

variable {α : Type} [WireNumber α]

/-- The document of all settings. -/
def toJson (s : Settings α) : Json :=
  .record [("service", s.service.toJson), ("editor", s.editor.toJson), ("logging", s.log.toJson)]

/-- Reads the document of all settings. -/
def ofJson? [Scalar α] (j : Json) : Option (Settings α) := do
  let fields ← j.fields? ["service", "editor", "logging"]
  let plain : Settings α := standard
  return {
    service := ← fields.orElse "service" plain.service ServiceSettings.ofJson?
    editor := ← fields.orElse "editor" plain.editor EditorSettings.ofJson?
    log := ← fields.orElse "logging" plain.log LogSettings.ofJson? }

end Settings

end Montage
