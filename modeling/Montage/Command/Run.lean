import Montage.Command.Help
import Montage.Command.Workspace
import Montage.Decimal.Style
import Montage.Render.MergeDesk
import Montage.Storage.SettingsFile
import Montage.Timeline.Audit

/-!
# Running commands

Each command tells what it does while it does it. Nothing is saved unless all of it has succeeded.
-/

namespace Montage

open Decimal (fixed signedFixed)

variable {m : Type → Type} [Monad m] [Host m]

/-- What a command does: it may end in a complaint. -/
abbrev Action (m : Type → Type) := ExceptT (Complaint Float) m

namespace Action

/-! ## Steps -/

/-- Writes a line of output. -/
def say (line : String) : Action m Unit :=
  (Host.say line : m Unit)

/-- Writes lines of output. -/
def sayAll (lines : List String) : Action m Unit :=
  lines.forM say

/-- Posts a request and waits for what comes of it. -/
def post (request : Request) : Action m Reply :=
  (Host.post request : m Reply)

/-- Goes on with what a request came to. -/
def received {β : Type} (result : Except Failure β) : Action m β :=
  (ExceptT.mk (pure result)).adapt Complaint.failed

/-- Loads the bundle in a folder. -/
def load (path : String) : Action m (Bundle Float) :=
  (Bundle.load path).adapt Complaint.notLoaded

/-! ## Making and looking -/

/-- Makes a new project in a folder of its name. -/
def init (name folder : String) (settings : Settings Float) (ids : IdSupply) : Action m Unit := do
  let root := Text.Path.join folder name
  say s!"Creating project '{name}' at {root}"
  let bundle : Bundle Float ←
    (Bundle.create root name ids.next settings.editor.audioTracks.toNat).adapt Complaint.notCreated
  sayAll ["Project created successfully:", s!"  Directory: {bundle.root}",
    s!"  ID: {bundle.timeline.id}", "  Tracks:"]
  sayAll (bundle.timeline.tracks.map fun track => s!"    {track.id} ({track.kind.label})")

/-- A clip in the listing of a project. -/
def clipLine (clip : Clip Float) : String :=
  let link := match clip.link with
    | some id => s!" linked={id}"
    | none => ""
  s!"    {clip.id} [{fixed 3 clip.start}, {fixed 3 clip.stop}) src@{fixed 3 clip.offset}" ++
    s!" x{Legible.text clip.speed} vol={Legible.text clip.volume}{link}"

/-- A track with its clips in the listing of a project. -/
def trackLines (track : Track Float) : List String :=
  s!"  {track.id} ({track.kind.label}, {track.clips.length} clips)" :: track.clips.map clipLine

/-- An asset in the listing of a project. -/
def assetLine (asset : Asset Float) : String :=
  s!"  {asset.id} {asset.fileName} ({asset.medium.label}, {fixed 1 asset.duration}s)"

/-- The listing of a project. -/
def listing (bundle : Bundle Float) : List String :=
  let t := bundle.timeline
  [s!"Project: {bundle.header.name}", s!"  ID: {t.id}",
    s!"  Created: {bundle.header.createdAt}", s!"  Modified: {bundle.header.modifiedAt}",
    s!"  Duration: {fixed 3 t.duration}s", "", "Tracks:"] ++
  t.tracks.flatMap trackLines ++
  ["", s!"Library ({bundle.library.size} assets):"] ++
  bundle.library.assets.map assetLine ++
  if t.captions.isEmpty && t.shapes.isEmpty then []
  else ["", s!"Overlays: {t.captions.length} text, {t.shapes.length} shape"]

/-- Lists a project, or writes its timeline as it is sent to the render service. -/
def info (path : String) (asJson : Bool) : Action m Unit := do
  let bundle ← load path
  if asJson then say bundle.timeline.toJson.pretty else sayAll (listing bundle)

/-- What is wrong with an overlay. -/
def overlayIssue (checked : Except (Rejection Float) Unit) : Option String :=
  match checked with
  | .ok () => none
  | .error reason => some reason.message

/-- All that is wrong with a timeline. -/
def issuesOf (t : Timeline Float) (tolerance : Float) : List String :=
  (t.issues tolerance).map Issue.message ++
    t.captions.filterMap (fun caption => overlayIssue caption.check) ++
    t.shapes.filterMap fun shape => overlayIssue shape.check

/-- Tells what is wrong with a project. -/
def validate (path : String) (settings : Settings Float) : Action m Unit := do
  say s!"Validating project at: {path}"
  let bundle ← load path
  sayAll [s!"  Name: {bundle.header.name}", s!"  Version: {bundle.header.version}",
    s!"  Clips: {bundle.timeline.clipCount}"]
  let issues := issuesOf bundle.timeline settings.editor.tolerance
  if issues.isEmpty then say "\nProject is valid."
  else
    say "\nValidation issues:"
    sayAll (issues.map fun issue => s!"  - {issue}")
    throw (.invalid issues.length)

/-! ## Editing -/

/-- Opens a project for editing. -/
def openProject (path : String) (settings : Settings Float) (ids : IdSupply) :
    Action m (Workspace Float) :=
  Workspace.openBundle path settings.editor ids

/-- Uploads a file and places it. -/
def upload (path file : String) (target : Target) (settings : Settings Float) (ids : IdSupply) :
    Action m Unit := do
  let w ← openProject path settings ids
  match Text.Path.fileName? file with
  | none => throw (.namelessFile file)
  | some name =>
      let content ← (ExceptT.mk (Host.readContent file)).adapt (Complaint.unreadable file)
      say s!"Uploading {name} ({content.size} bytes)"
      let server := Server.ofSettings settings.service
      let request ← received (server.uploadRequest name content)
      let asset : Asset Float ← received (server.readUpload (← post request))
      say s!"  Asset: {asset.id} ({asset.medium.label}, {fixed 1 asset.duration}s)"
      let (placed, w) ← w.edit fun s => s.placeAsset asset target.track target.drop
      say s!"  Placed on {placed.track} at {fixed 3 placed.start}s as {placed.clip}"
      w.save

/-- Places an asset of the library. -/
def place (path : String) (asset : AssetId) (target : Target) (settings : Settings Float)
    (ids : IdSupply) : Action m Unit := do
  let w ← openProject path settings ids
  let (placed, w) ← w.edit fun s => s.place asset target.track target.drop
  say s!"Placed {asset} on {placed.track} at {fixed 3 placed.start}s as {placed.clip}"
  if let some partner := placed.partner then say s!"  Linked audio: {partner}"
  w.save

/-- Drags a clip: the pointer goes down on it, moves, and goes up. -/
def move (path : String) (clip : ClipId) (pixels : Float) (settings : Settings Float)
    (ids : IdSupply) : Action m Unit := do
  let w ← openProject path settings ids
  let (_, w) ← w.edit fun s => s.pointerDown clip 0
  let (_, session) := w.session.pointerMove pixels
  let (dragEnd, session) := session.pointerUp
  match dragEnd with
  | none => pure ()
  | some (.snappedBack reason) =>
      say s!"Move rejected, clips left in place: {reason.message}"
  | some (.moved delta) =>
      say s!"Moved {session.selection.size} clip(s) by {signedFixed 3 delta}s"
      { w with session }.save

/-- Splits a clip. -/
def split (path : String) (clip : ClipId) (instant : Float) (settings : Settings Float)
    (ids : IdSupply) : Action m Unit := do
  let w ← openProject path settings ids
  let (rights, w) ← w.edit fun s => s.split clip instant
  if rights.isEmpty then
    say s!"{Legible.text instant}s is not strictly inside {clip}; nothing to split"
  else
    say (s!"Split at {fixed 3 instant}s; new clips: " ++ ", ".intercalate rights)
    w.save

/-- Deletes clips with their partners. -/
def delete (path : String) (clips : List ClipId) (settings : Settings Float) (ids : IdSupply) :
    Action m Unit := do
  let w ← openProject path settings ids
  let (removed, w) ← w.delete clips
  say (s!"Deleted {removed.length} clip(s): " ++ ", ".intercalate removed)
  w.save

/-- Sets the volume of a clip. -/
def volume (path : String) (clip : ClipId) (value : Float) (settings : Settings Float)
    (ids : IdSupply) : Action m Unit := do
  let w ← openProject path settings ids
  let (_, w) ← w.edit fun s => s.setVolume clip value
  say s!"Volume of {clip} set to {Legible.text value}"
  w.save

/-- Sets the speed of a clip and its partner. -/
def speed (path : String) (clip : ClipId) (value : Float) (settings : Settings Float)
    (ids : IdSupply) : Action m Unit := do
  let w ← openProject path settings ids
  let (_, w) ← w.edit fun s => s.setSpeed clip value
  say s!"Speed of {clip} set to {Legible.text value}"
  w.save

/-! ## Rendering -/

/-- Goes on with what became of a merge. -/
def settled (outcome : Option (MergeOutcome Float)) : Action m ClipId :=
  match outcome with
  | some (.ok clip) => return clip
  | some (.error (.refused reason)) => throw (.refused reason)
  | some (.error (.unrendered reason)) => throw (.failed reason)
  | some (.error .abandoned) | none => throw (.failed (.transport "the merge was abandoned"))

/-- Replaces clips by one that plays a rendering of them. -/
def merge (path : String) (track : TrackId) (clips : List ClipId) (settings : Settings Float)
    (ids : IdSupply) : Action m Unit := do
  let w ← openProject path settings ids
  say s!"Merging {clips.length} clip(s) on {track}..."
  let desk := (MergeDesk.ofSession w.session).launch track clips
  let server := Server.ofSettings settings.service
  let desk ← match desk.merges[0]?.bind MergeStage.request? with
    | none => pure desk
    | some run => do
        let reply ← post (server.mergeRequest run)
        pure (desk.settle 0 (server.readMerge reply))
  let merged ← settled (desk.outcome? 0)
  say s!"Merged into {merged}"
  { w with session := desk.session }.save

/-- Renders a quick preview of a project. -/
def preview (path : String) (settings : Settings Float) : Action m Unit := do
  let bundle ← load path
  let server := Server.ofSettings settings.service
  let output ← received (server.readPreview (← post (server.previewRequest bundle.timeline)))
  match output.status with
  | .ready => say s!"Preview: {server.absoluteUrl output.url}"
  | .empty => say "Timeline is empty; nothing to preview"
  | .error => throw .previewFailed

/-- Renders a project at full quality. -/
def exportVideo (path : String) (settings : Settings Float) : Action m Unit := do
  say s!"Exporting project at: {path}"
  let bundle ← load path
  if bundle.timeline.isEmpty then throw .nothingToExport
  let server := Server.ofSettings settings.service
  let output ← received (server.readExport (← post (server.exportRequest bundle.timeline)))
  say s!"Export complete: {server.absoluteUrl output.url}"

/-! ## Settings -/

/-- Writes the settings, and saves them if asked to. -/
def config (save : Bool) (settings : Settings Float) : Action m Unit := do
  say settings.toJson.pretty
  if save then
    settings.save.adapt Complaint.settingsNotSaved
    say "Configuration saved."

/-- Runs a command. -/
def ofCommand (settings : Settings Float) (ids : IdSupply) : Command → Action m Unit
  | .init name folder => init name folder settings ids
  | .info path asJson => info path asJson
  | .validate path => validate path settings
  | .upload path file target => upload path file target settings ids
  | .place path asset target => place path asset target settings ids
  | .move path clip pixels => move path clip pixels settings ids
  | .split path clip instant => split path clip instant settings ids
  | .delete path clips => delete path clips settings ids
  | .volume path clip value => volume path clip value settings ids
  | .speed path clip value => speed path clip value settings ids
  | .merge path track clips => merge path track clips settings ids
  | .preview path => preview path settings
  | .exportVideo path => exportVideo path settings
  | .config save => config save settings

/-! ## Whole runs -/

/-- The settings that a run goes by; those of a named file have to be there. -/
def settingsFor (path : Option String) : Action m (Settings Float) := do
  let settings : Settings Float ← match path with
    | some path => (Settings.read path).adapt Complaint.failed
    | none => (Settings.load : m (Settings Float))
  received settings.editor.check
  return settings

/-- Makes sure that the log file is there; a run goes on without it. -/
def openLog (log : LogSettings) : m Unit := do
  if let some path := log.file then
    if let .error fault ← Host.touch path then
      Host.complain s!"Failed to open log file {path}: {fault.message}"

/-- Runs a command by the settings. -/
def ofInvocation (invocation : Invocation) (ids : IdSupply) : Action m Unit := do
  let settings ← settingsFor invocation.settings
  (openLog settings.log : m Unit)
  ofCommand settings ids invocation.command

end Action

/-- Runs a command line; the answer is the exit code. -/
def runWords (words : List String) (ids : IdSupply) : m UInt32 := do
  match Invocation.ofWords words with
  | .error (.help command) => do
      (Help.page command).forM Host.say
      return 0
  | .error .version => do
      Host.say s!"{programName} {programVersion}"
      return 0
  | .error (.misuse message) => do
      Host.complain s!"error: {message}\n\nFor more information, try '--help'."
      return 2
  | .ok invocation => do
      match ← (Action.ofInvocation invocation ids).run with
      | .ok () => return 0
      | .error complaint => do
          if complaint.isInconsistency then
            Host.complain
              "The project file is internally inconsistent; run `trackcut validate` on it."
          Host.complain s!"Error: {complaint.message}"
          return 1

end Montage
