import Montage.Editing.IdSupply
import Montage.Editing.Magnet
import Montage.Editing.Refusal
import Montage.Settings
import Montage.Timeline.Change

/-!
# Placing assets

An asset is placed in two steps. First a site is found, which makes all checks; then the clips are
made there. A video asset brings the clip of its sound along, at the same time on the first `av`
track, and the two are linked.
-/

namespace Montage

/-- Where the user wants a new clip to start. -/
inductive Drop (α : Type)
  /-- At an instant, which edges near it may pull. -/
  | instant (at_ : α)
  /-- After everything on the tracks concerned. -/
  | append
deriving DecidableEq, Repr

/-- Where an asset may be placed. -/
structure Site (α : Type) where
  target : Track α
  /-- The track of the sound, for a video asset. -/
  partner : Option (Track α)
  start : α

/-- The clips that a placement made. -/
structure Placed (α : Type) where
  clip : ClipId
  partner : Option ClipId
  track : TrackId
  start : α
deriving DecidableEq, Repr

namespace Timeline

variable {α : Type} [Scalar α]

/-! ## Finding a site -/

omit [Scalar α] in
/--
The track for a medium. Video goes to a video track only. Sound goes to the track the user aimed at
if that carries sound, and otherwise to the first free audio track.
-/
def trackFor (t : Timeline α) (medium : Medium) (hint : Option TrackId) :
    Except (Refusal α) (Track α) := do
  let hinted ← match hint with
    | none => pure none
    | some id =>
        match t.track? id with
        | none => throw (.trackNotFound id)
        | some track => pure (some track)
  match medium, hinted with
  | .video, some track =>
      if track.kind = .video then return track
      else throw (.wrongTrackKind track.id track.kind medium)
  | .video, none => first .video
  | .audio, some track => if track.kind.bearsAudio then return track else first .audio
  | .audio, none => first .audio
where
  first (kind : TrackKind) : Except (Refusal α) (Track α) :=
    match t.firstOfKind? kind with
    | some track => .ok track
    | none => .error (.noTrackFor medium)

/-- Where a clip that is dropped on a track starts. -/
def startOf (target : Track α) (partner : Option (Track α)) (drop : Drop α)
    (settings : EditorSettings α) : α :=
  match drop with
  | .instant at_ =>
      let edges := target.clips.flatMap fun clip => [clip.start, clip.stop]
      Scalar.larger (Magnet.snap at_ edges settings.snapSeconds) 0
  | .append => Scalar.larger ((partner.map Track.lastStop).getD 0) target.lastStop

/-- Refuses a span that overlaps a clip of the track. -/
def checkFree (track : Track α) (span : Span α) (ε : α) (ignore : List ClipId) :
    Except (Refusal α) Unit :=
  match track.overlapping span ε ignore with
  | [] => .ok ()
  | conflicting :: _ => .error (.overlap track.id conflicting.id)

/-- The site for an asset, after all checks. -/
def findSite (t : Timeline α) (asset : Asset α) (hint : Option TrackId) (drop : Drop α)
    (settings : EditorSettings α) : Except (Refusal α) (Site α) := do
  if !(settings.tolerance < asset.duration : Bool) then
    throw (.invalidValue .duration asset.duration)
  if let .instant at_ := drop then
    if !Scalar.isFinite at_ then throw (.invalidValue .startTime at_)
  let target ← t.trackFor asset.medium hint
  let partner := match asset.medium with
    | .video => t.firstOfKind? .av
    | .audio => none
  let start := startOf target partner drop settings
  let span := Span.ofLength start asset.duration
  if !(settings.tolerance < span.length : Bool) then throw (.invalidValue .startTime start)
  checkFree target span settings.tolerance []
  if let some track := partner then checkFree track span settings.tolerance []
  return ⟨target, partner, start⟩

/-! ## Making the clips -/

/-- The clips of an asset at a site, linked to each other, with the given ids. -/
def clipsAt (site : Site α) (asset : Asset α) (mediaRoot : String) (id partnerId : ClipId) :
    List (Clip α) :=
  let primary := Clip.ofAsset asset id asset.medium site.target.id site.start mediaRoot
  match site.partner with
  | none => [primary]
  | some track =>
      [{ primary with link := some partnerId },
       { Clip.ofAsset asset partnerId .audio track.id site.start mediaRoot with link := some id }]

/-- Puts clips in one after the other; a rejection is a fault of the model. -/
def insertAll (t : Timeline α) (clips : List (Clip α)) (fault : Rejection α → Fault α) :
    Except (Refusal α) (Timeline α) :=
  clips.foldlM (fun t clip => (t.insert clip).mapError fun r => .inconsistent (fault r)) t

/-- Places an asset; ids are taken only once all checks have passed. -/
def place (t : Timeline α) (asset : Asset α) (hint : Option TrackId) (drop : Drop α)
    (settings : EditorSettings α) (ids : IdSupply) :
    Except (Refusal α) (Placed α × Timeline α) × IdSupply :=
  match t.findSite asset hint drop settings with
  | .error refusal => (.error refusal, ids)
  | .ok site =>
      let (id, ids) := ids.take
      let clips := clipsAt site asset settings.mediaRoot id ids.next
      let placed := ⟨id, site.partner.map fun _ => ids.next, site.target.id, site.start⟩
      ((t.insertAll clips .placementRejected).map (placed, ·), ids.skip (clips.length - 1))

end Timeline

end Montage
