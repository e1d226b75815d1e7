import Montage.Failure
import Montage.Overlay

/-!
# Settings
-/

namespace Montage

/-- Where the render service is and how long to wait for it. -/
structure ServiceSettings where
  baseUrl : String := "http://localhost:8000"
  timeoutSeconds : UInt64 := 300
deriving DecidableEq, Repr

/-- What the program writes about its own running. -/
structure LogSettings where
  level : String := "info"
  json : Bool := false
  file : Option String := none
deriving DecidableEq, Repr

/-- How the timeline answers to the pointer, and how strict it is. -/
structure EditorSettings (α : Type) where
  pixelsPerSecond : α
  /-- How near an edge pulls, in pixels. -/
  snapPixels : α
  /-- How much two clips may share of a track without overlapping. -/
  tolerance : α
  /-- How long the project has to be left alone before a preview is made. -/
  previewDelay : UInt64
  mediaRoot : String
  audioTracks : UInt64
deriving DecidableEq, Repr

namespace EditorSettings

variable {α : Type} [Scalar α]

/-- The settings when nobody says otherwise. -/
def standard : EditorSettings α where
  pixelsPerSecond := Scalar.ofNat 20
  snapPixels := Scalar.ofNat 15
  tolerance := 1 / Scalar.ofNat 1000
  previewDelay := 1000
  mediaRoot := "media"
  audioTracks := 2

/-- How near an edge pulls, in seconds. -/
def snapSeconds (s : EditorSettings α) : α :=
  s.snapPixels / s.pixelsPerSecond

/-- A distance on the screen as a stretch of the timeline. -/
def secondsOf (s : EditorSettings α) (pixels : α) : α :=
  pixels / s.pixelsPerSecond

/-- Refuses settings that would make nonsense of the pointer's movements. -/
def check (s : EditorSettings α) : Except Failure Unit :=
  if !(0 < s.pixelsPerSecond : Bool) then
    .error (.settings "pixels_per_second must be positive")
  else if s.snapPixels < 0 then .error (.settings "snap_threshold_px must not be negative")
  else if s.tolerance < 0 then .error (.settings "overlap_epsilon must not be negative")
  else .ok ()

end EditorSettings

/-- All settings of the program. -/
structure Settings (α : Type) where
  service : ServiceSettings
  editor : EditorSettings α
  log : LogSettings
deriving DecidableEq, Repr

/-- The settings when nobody says otherwise. -/
def Settings.standard {α : Type} [Scalar α] : Settings α :=
  ⟨{}, .standard, {}⟩

end Montage
