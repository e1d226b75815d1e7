import Montage.Timeline.Basic

/-!
# Auditing a timeline

The audit lists every rule that a timeline breaks. `Timeline.Sound` says the same rules without
loops: it is what an empty list of issues is compared with.
-/

namespace Montage

/-! ## Issues -/

/-- One rule that a timeline breaks. -/
inductive Issue
  | duplicateId (clip : ClipId)
  | wrongTrack (clip : ClipId) (claimed actual : TrackId)
  | wrongMedium (clip : ClipId) (medium : Medium) (kind : TrackKind) (track : TrackId)
  | emptyClip (clip : ClipId)
  | startsEarly (clip : ClipId)
  | negativeOffset (clip : ClipId)
  | stalled (clip : ClipId)
  | negativeVolume (clip : ClipId)
  | overlap (first second : ClipId) (track : TrackId)
  | brokenLink (clip link : ClipId)
  | oneSidedLink (clip partner : ClipId)
  | sharedTrack (clip partner : ClipId) (track : TrackId)
  | outOfSync (clip partner : ClipId)
deriving DecidableEq, Repr

/-- The message that a user reads. -/
def Issue.message : Issue → String
  | duplicateId clip => s!"duplicate clip id {clip}"
  | wrongTrack clip claimed actual => s!"clip {clip} claims track {claimed} but lives on {actual}"
  | wrongMedium clip medium kind track =>
      s!"clip {clip} of kind {medium.label} on {kind.label} track {track}"
  | emptyClip clip => s!"clip {clip} has non-positive length"
  | startsEarly clip => s!"clip {clip} starts before zero"
  | negativeOffset clip => s!"clip {clip} has negative source_start"
  | stalled clip => s!"clip {clip} has non-positive speed"
  | negativeVolume clip => s!"clip {clip} has negative volume"
  | overlap first second track => s!"clips {first} and {second} overlap on track {track}"
  | brokenLink clip link => s!"clip {clip} links to missing clip {link}"
  | oneSidedLink clip partner => s!"link from {clip} to {partner} is not mutual"
  | sharedTrack clip partner track => s!"linked clips {clip} and {partner} share track {track}"
  | outOfSync clip partner => s!"linked clips {clip} and {partner} are out of sync"

namespace Timeline

variable {α : Type} [Scalar α]

/-! ## The audit -/

/-- The issue, if the condition holds. -/
def issueIf (condition : Bool) (issue : Issue) : List Issue :=
  if condition then [issue] else []

/-- What is wrong with a clip by itself, given its track. -/
def clipIssues (track : Track α) (clip : Clip α) : List Issue :=
  issueIf (clip.track ≠ track.id) (.wrongTrack clip.id clip.track track.id) ++
  issueIf (!track.kind.accepts clip.medium)
    (.wrongMedium clip.id clip.medium track.kind track.id) ++
  issueIf (clip.stop ≤ clip.start) (.emptyClip clip.id) ++
  issueIf (clip.start < 0) (.startsEarly clip.id) ++
  issueIf (clip.offset < 0) (.negativeOffset clip.id) ++
  issueIf (clip.speed ≤ 0) (.stalled clip.id) ++
  issueIf (clip.volume < 0) (.negativeVolume clip.id)

/-- The clips further down the track that a clip overlaps. -/
def overlapIssues (ε : α) (track : Track α) (clip : Clip α) (later : List (Clip α)) :
    List Issue :=
  (later.filter fun other => clip.span.overlaps other.span ε).map fun other =>
    .overlap clip.id other.id track.id

/-- What is wrong with the clips of a track, after clips with the given ids. -/
def trackIssues (ε : α) (track : Track α) : List ClipId → List (Clip α) → List Issue
  | _, [] => []
  | seen, clip :: later =>
      issueIf (seen.contains clip.id) (.duplicateId clip.id) ++ clipIssues track clip ++
        overlapIssues ε track clip later ++ trackIssues ε track (clip.id :: seen) later

/-- What is wrong with the clips of all tracks, after clips with the given ids. -/
def placementIssues (ε : α) : List ClipId → List (Track α) → List Issue
  | _, [] => []
  | seen, track :: rest =>
      trackIssues ε track seen track.clips ++
        placementIssues ε (track.clips.map Clip.id ++ seen) rest

/-- What is wrong with a clip's link. Whether a pair is in sync is told once, from its lesser id. -/
def linkIssues (t : Timeline α) (ε : α) (clip : Clip α) : List Issue :=
  match clip.link with
  | none => []
  | some link =>
      match t.clip? link with
      | none => [.brokenLink clip.id link]
      | some partner =>
          issueIf (partner.link ≠ some clip.id) (.oneSidedLink clip.id partner.id) ++
          issueIf (partner.track = clip.track) (.sharedTrack clip.id partner.id clip.track) ++
          issueIf (clip.id < partner.id && !clip.inSync partner ε) (.outOfSync clip.id partner.id)

/-- Every rule that the timeline breaks. -/
def issues (t : Timeline α) (ε : α) : List Issue :=
  placementIssues ε [] t.tracks ++ t.clips.flatMap (t.linkIssues ε)

/-! ## The rules -/

/-- A clip fits its track, and its numbers have the right signs. -/
structure Fits (track : Track α) (clip : Clip α) : Prop where
  track_eq : clip.track = track.id
  accepts : track.kind.accepts clip.medium = true
  start_lt_stop : clip.start < clip.stop
  start_nonneg : 0 ≤ clip.start
  offset_nonneg : 0 ≤ clip.offset
  speed_pos : 0 < clip.speed
  volume_nonneg : 0 ≤ clip.volume

/-- The link of a clip leads to a clip on another track that links back and is in sync. -/
def LinkHolds (t : Timeline α) (ε : α) (clip : Clip α) : Prop :=
  ∀ link, clip.link = some link →
    ∃ partner ∈ t.clips, partner.id = link ∧ partner.link = some clip.id ∧
      partner.track ≠ clip.track ∧ clip.inSync partner ε = true

/-- The timeline breaks no rule. -/
structure Sound (t : Timeline α) (ε : α) : Prop where
  ids_nodup : (t.clips.map Clip.id).Nodup
  fits : ∀ track ∈ t.tracks, ∀ clip ∈ track.clips, Fits track clip
  apart : ∀ track ∈ t.tracks,
    track.clips.Pairwise fun a b => a.span.overlaps b.span ε = false ∧ b.span.overlaps a.span ε = false
  links : ∀ clip ∈ t.clips, t.LinkHolds ε clip

end Timeline

end Montage
