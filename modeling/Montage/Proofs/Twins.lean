import Montage.Proofs.Layout
import Montage.Proofs.Pairs

/-!
# Pictures and their sound

In a project that begins with the standard tracks, linked clips are a picture on the video track and
its sound on the track for it. Along every run they show the same stretch of one source at the same
time, to the last bit of every number.
-/

namespace Montage

variable {α : Type}

/-! ## Seats of pictures and of their sound -/

namespace Seat

/-- The seat of a picture. -/
def IsPicture (seat : Seat) : Prop :=
  seat.track = "video-1" ∧ seat.medium = .video

def IsSound (seat : Seat) : Prop :=
  seat.track = "av-1" ∧ seat.medium = .audio

/-- A picture and its sound, from one source. -/
def Twin (seat other : Seat) : Prop :=
  seat.source = other.source ∧
    (seat.IsPicture ∧ other.IsSound ∨ seat.IsSound ∧ other.IsPicture)

end Seat

namespace Timeline

/-! ## Twins on a timeline -/

/-- The clip is a picture, on the video track. -/
def Shows (t : Timeline α) (clip : Clip α) : Prop :=
  clip.medium = .video ∧ ∃ track, t.firstOfKind? .video = some track ∧ clip ∈ track.clips

/-- The clip is a picture's sound, on the track for it. -/
def Sounds (t : Timeline α) (clip : Clip α) : Prop :=
  clip.medium = .audio ∧ ∃ track, t.firstOfKind? .av = some track ∧ clip ∈ track.clips

/-- Two clips are a picture and its sound, and agree in every number and in the source. -/
structure Twins (t : Timeline α) (clip partner : Clip α) : Prop where
  link_eq : partner.link = some clip.id
  source_eq : partner.source = clip.source
  start_eq : partner.start = clip.start
  stop_eq : partner.stop = clip.stop
  offset_eq : partner.offset = clip.offset
  speed_eq : partner.speed = clip.speed
  sides : (t.Shows clip ∧ t.Sounds partner) ∨ (t.Sounds clip ∧ t.Shows partner)

/-- The tracks are those of a new project, clips stand on their tracks, and links make pairs. -/
structure Twinned (audioTracks : Nat) (t : Timeline α) : Prop where
  layout_eq : t.layout = standardLayout audioTracks
  housed : t.Housed
  paired : t.Paired Seat.Twin

variable {audioTracks : Nat} {t next : Timeline α}

/-- The clips of the first track of a kind that has the given name in a new project. -/
theorem Twinned.exists_firstOfKind? (h : t.Twinned audioTracks) {kind : TrackKind} (name : TrackId)
    (hname : (name, kind) ∈ standardLayout audioTracks)
    (hone : ∀ id, (id, kind) ∈ standardLayout audioTracks → id = name)
    {clip : Clip α} (hclip : clip ∈ t.clips) (htrack : clip.track = name) :
    ∃ track, t.firstOfKind? kind = some track ∧ clip ∈ track.clips := by
  rw [← h.layout_eq] at hname hone
  have hids : (t.tracks.map Track.id).Nodup := by
    rw [← map_fst_layout, h.layout_eq]
    exact nodup_standardLayout audioTracks
  obtain ⟨named, hnamed, heq⟩ := List.mem_map.1 hname
  obtain ⟨hid, hkind⟩ := Prod.mk.inj heq
  have hsome : (t.firstOfKind? kind).isSome := by
    rw [firstOfKind?, List.find?_isSome]
    exact ⟨named, hnamed, by simp [hkind]⟩
  obtain ⟨track, hfound⟩ := Option.isSome_iff_exists.1 hsome
  have hmem : track ∈ t.tracks := List.mem_of_find?_eq_some hfound
  have hfoundKind : track.kind = kind := by simpa using List.find?_some hfound
  refine ⟨track, hfound, h.housed.mem_clips_track hids hmem hclip ?_⟩
  rw [htrack, hone track.id (hfoundKind ▸ mem_layout hmem)]

theorem Twinned.shows (h : t.Twinned audioTracks) {clip : Clip α} (hclip : clip ∈ t.clips)
    (hpicture : clip.seat.IsPicture) : t.Shows clip := by
  refine ⟨hpicture.2, h.exists_firstOfKind? "video-1" ?_ ?_ hclip hpicture.1⟩
  · exact mem_standardLayout.2 (.inl ⟨rfl, rfl⟩)
  · intro id hid
    rcases mem_standardLayout.1 hid with ⟨rfl, _⟩ | ⟨_, hkind⟩ | ⟨_, _, _, hkind⟩
    · rfl
    · cases hkind
    · cases hkind

theorem Twinned.sounds (h : t.Twinned audioTracks) {clip : Clip α} (hclip : clip ∈ t.clips)
    (hsound : clip.seat.IsSound) : t.Sounds clip := by
  refine ⟨hsound.2, h.exists_firstOfKind? "av-1" ?_ ?_ hclip hsound.1⟩
  · exact mem_standardLayout.2 (.inr (.inl ⟨rfl, rfl⟩))
  · intro id hid
    rcases mem_standardLayout.1 hid with ⟨_, hkind⟩ | ⟨rfl, _⟩ | ⟨_, _, _, hkind⟩
    · cases hkind
    · rfl
    · cases hkind

theorem Twinned.twins (h : t.Twinned audioTracks) {clip partner : Clip α} (hclip : clip ∈ t.clips)
    (hpartner : partner ∈ t.clips) (hmirrors : partner.Mirrors Seat.Twin clip) :
    t.Twins clip partner where
  link_eq := hmirrors.link_eq
  source_eq := hmirrors.kin.1
  start_eq := hmirrors.start_eq
  stop_eq := hmirrors.stop_eq
  offset_eq := hmirrors.offset_eq
  speed_eq := hmirrors.speed_eq
  sides := by
    rcases hmirrors.kin.2 with ⟨hpicture, hsound⟩ | ⟨hsound, hpicture⟩
    · exact .inr ⟨h.sounds hclip hsound, h.shows hpartner hpicture⟩
    · exact .inl ⟨h.shows hclip hpicture, h.sounds hpartner hsound⟩

/-! ## Edits and releases -/

theorem Revision.twinned {keep : Clip α → Bool} {alter : Clip α → Clip α} {new : List (Clip α)}
    (hrevision : t.Revision keep alter new next) (h : t.Twinned audioTracks)
    (halter : ∀ clip, (alter clip).Continues clip) (hpaired : next.Paired Seat.Twin) :
    next.Twinned audioTracks where
  layout_eq := by rw [hrevision.layout_eq, h.layout_eq]
  housed := hrevision.housed h.housed fun clip => (halter clip).track_eq
  paired := hpaired

theorem Twinned.standard (project : String) (audioTracks : Nat) :
    (Timeline.standard (α := α) project audioTracks).Twinned audioTracks where
  layout_eq := layout_standard project audioTracks
  housed := housed_standard project audioTracks
  paired clip hclip := by simp [clips_standard] at hclip

variable [Scalar α] {settings : EditorSettings α}

theorem Twinned.seatsPairs (h : t.Twinned audioTracks) {asset : Asset α} {drop : Drop α}
    {site : Site α} (hsite : t.SiteFound asset drop settings site) :
    SeatsPairs Seat.Twin site := by
  intro track source hpartner
  obtain ⟨_, hvideo, hmem, hav⟩ := hsite.partner_spec hpartner
  have hsound : track.id = "av-1" := by
    have hin := mem_layout hmem
    rw [h.layout_eq, hav] at hin
    rcases mem_standardLayout.1 hin with ⟨_, hkind⟩ | ⟨hid, _⟩ | ⟨_, _, _, hkind⟩
    · cases hkind
    · exact hid
    · cases hkind
  have hpicture : site.target.id = "video-1" := by
    have hin := mem_layout hsite.target_mem
    rw [h.layout_eq, hvideo] at hin
    rcases mem_standardLayout.1 hin with ⟨hid, _⟩ | ⟨_, hkind⟩ | ⟨_, _, _, hkind⟩
    · exact hid
    · cases hkind
    · cases hkind
  exact ⟨⟨rfl, .inr ⟨⟨hsound, rfl⟩, ⟨hpicture, rfl⟩⟩⟩, ⟨rfl, .inl ⟨⟨hpicture, rfl⟩, ⟨hsound, rfl⟩⟩⟩⟩

theorem kept_twinned (settings : EditorSettings α) (audioTracks : Nat) :
    Session.Kept settings (fun _ => True) (Twinned (α := α) audioTracks) where
  edit hstep h hedit := by
    obtain ⟨_, _, _, hrevision, halter, _⟩ := hedit.lineage hstep
    exact hrevision.twinned h (fun clip => (halter clip).1)
      (hedit.paired hstep h.paired h.seatsPairs)
  release hfirst hgood hstep h hheld hpersist hrelease := by
    obtain ⟨_, _, hrevision⟩ := release_revision hstep (hheld.nodup_ids hfirst) hrelease
    exact hrevision.twinned h (dropped_continues _ _)
      (release_paired hfirst hgood.paired hstep h.paired hheld hpersist hrelease)

end Timeline

/-! ## Runs -/

namespace Session

variable [Scalar α]

/--
Whatever calls are made on a new project, the link of a clip leads to one clip. The two are a
picture and its sound, link to each other, and agree in every number and in the source.
-/
theorem linked_clips_are_twins (project : String) (audioTracks : Nat) (library : Library α)
    (settings : EditorSettings α) (ids : IdSupply) (observed : Bool)
    (hids : ids.Fresh fun _ => False) (calls : List (Call α)) :
    let t := ((start (.standard project audioTracks) library settings ids observed).run
      calls).timeline
    ∀ clip ∈ t.clips, ∀ link, clip.link = some link →
      ∃ partner, t.clips.filter (·.id = link) = [partner] ∧ t.Twins clip partner := by
  intro t clip hclip link hlink
  have hsteady : Steady (Timeline.Twinned audioTracks)
      ((start (.standard project audioTracks) library settings ids observed).run calls) :=
    run_steady (Timeline.kept_twinned settings audioTracks)
      (start_steady (Timeline.Twinned.standard project audioTracks)
        (Timeline.inStep_standard project audioTracks)
        (Timeline.unnamed_standard hids project audioTracks)) calls
  obtain ⟨partner, hpartner, rfl, hmirrors⟩ := hsteady.good.paired clip hclip link hlink
  exact ⟨partner, hsteady.inStep.filter_id_eq hpartner, hsteady.good.twins hclip hpartner hmirrors⟩

/-- A film is placed, and cut while the pointer drags it. -/
def filmCalls : List (Call Rat) :=
  [.placeAsset ⟨"film", "film.mp4", "/film.mp4", .video, 10⟩ none (.instant 0),
    .pointerDown "x" 0, .split "x" 5, .pointerMove 400, .pointerUp]

theorem linked_clips_are_twins_film :
    IdSupply.tally.Fresh (fun _ => False) ∧
      let t := (blank.run filmCalls).timeline
      t.clips.map Clip.link = [some "xx", some "xxxx", some "x", some "xxx"] ∧
        ∀ clip ∈ t.clips, ∀ link, clip.link = some link →
          ∃ partner, t.clips.filter (·.id = link) = [partner] ∧ t.Twins clip partner :=
  ⟨IdSupply.fresh_tally, by decide +kernel,
    linked_clips_are_twins "p" 1 .empty .standard .tally false IdSupply.fresh_tally filmCalls⟩

end Session

end Montage
