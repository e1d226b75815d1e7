import Montage.Proofs.Soundness

/-!
# Tracks that share an id

A placement checks the tracks that it finds by kind, and puts its clips on the tracks that it finds
by id. The audit lets tracks share an id, and then these need not be the same.
-/

namespace Montage.Timeline

variable {t next : Timeline Rat} {settings : EditorSettings Rat} {ids left : IdSupply}

/-- The clip of the given id is on what has become of the track. -/
def LandsOn (t next : Timeline Rat) (id : ClipId) (track : Track Rat) : Prop :=
  ∃ (i : Nat) (after : Track Rat), t.tracks[i]? = some track ∧ next.tracks[i]? = some after ∧
    id ∈ after.clips.map Clip.id

theorem track?_track (t : Timeline Rat) (clip : Clip Rat) :
    t.track? clip.track = (t.home? clip).bind fun i => t.tracks[i]? :=
  List.find?_eq_bind_findIdx?_getElem?

/-- A new clip lands on a track that it names exactly when no track before has the same id. -/
theorem landsOn_iff {new : List (Clip Rat)}
    (hrevision : t.Revision (fun _ => true) (fun clip => clip) new next) {clip : Clip Rat}
    (hclip : clip ∈ new) (hunused : ∀ other ∈ t.clips, other.id ≠ clip.id) {track : Track Rat}
    (hnames : clip.track = track.id) :
    t.LandsOn next clip.id track ↔ t.track? track.id = some track := by
  rw [← hnames, track?_track]
  constructor
  · rintro ⟨i, after, hi, hafter, hid⟩
    rw [hrevision.getElem?_tracks, hi] at hafter
    cases hafter
    obtain ⟨found, hfound, hid⟩ := List.mem_map.1 hid
    simp only [Track.revise_keeping_all] at hfound
    rcases List.mem_append.1 hfound with hold | hnew
    · exact absurd hid (hunused found (mem_clips.2 ⟨track, List.mem_of_getElem? hi, hold⟩))
    · obtain ⟨hnew, hhome⟩ := List.mem_filter.1 hnew
      obtain rfl := hrevision.inStep.eq_of_id_eq (hrevision.mem_clips.2 (.inr hnew))
        (hrevision.mem_clips.2 (.inr hclip)) hid
      rw [of_decide_eq_true hhome]
      exact hi
  · intro hfound
    obtain ⟨i, hhome, hi⟩ := Option.bind_eq_some_iff.1 hfound
    refine ⟨i, _, hi, by rw [hrevision.getElem?_tracks, hi]; rfl, List.mem_map_of_mem ?_⟩
    exact List.mem_append_right _ (List.mem_filter.2 ⟨hclip, by simpa using hhome⟩)

theorem SiteFound.apart_of_first {asset : Asset Rat} {drop : Drop Rat} {site : Site Rat}
    (h : t.SiteFound asset drop settings site)
    (hfirst : ∀ track ∈ site.tracks, t.track? track.id = some track) : site.Apart := by
  intro track hpartner hid
  have hsecond := hfirst track (List.mem_cons_of_mem _ (Option.mem_toList.2 hpartner))
  rw [hid, hfirst site.target List.mem_cons_self] at hsecond
  exact h.kind_ne hpartner (Option.some.inj hsecond).symm

theorem place_sound (hsound : t.Sound settings.tolerance) (hε : 0 ≤ settings.tolerance)
    {asset : Asset Rat} {drop : Drop Rat} {site : Site Rat}
    (hsite : t.SiteFound asset drop settings site)
    (hfirst : ∀ track ∈ site.tracks, t.track? track.id = some track) {mediaRoot : String}
    {id partnerId : ClipId}
    (hrevision : t.Revision (fun _ => true) (fun clip => clip)
      (clipsAt site asset mediaRoot id partnerId) next) : next.Sound settings.tolerance := by
  have hapart := hsite.apart_of_first hfirst
  refine hrevision.sound hsound hsound.fits (fun _ _ => ⟨le_refl _, le_refl _⟩)
    (fun i track hi clip hclip hhome => ?_) (fun a ha b hb htrack hid => ?_) ?_
  · obtain ⟨hmeasured, hspan, house, hhouse, hnames, haccepts, hfree⟩ := mem_clipsAt hsite hclip
    -- The track that is checked is the one that the clip is put on.
    have hfound := hfirst house hhouse
    rw [← hnames, track?_track, hhome, Option.bind_some, hi] at hfound
    obtain rfl := Option.some.inj hfound
    refine ⟨⟨hnames, haccepts, hmeasured.start_lt_stop hε, hmeasured.start_nonneg,
      hmeasured.offset_nonneg, hmeasured.speed_pos, hmeasured.volume_nonneg⟩, fun other hother => ?_⟩
    rw [hspan]
    exact overlapping_eq_nil_iff.1 hfree other hother (by simp)
  · exact absurd (congrArg Clip.id (eq_of_mem_clipsAt hapart ha hb htrack)) hid
  · refine hrevision.linkHolds hsound .refl (fun _ _ _ _ _ _ hsync _ => ⟨rfl, hsync⟩) ?_
    intro clip hclip link hlink
    obtain ⟨partner, hpartner, hid, hmirrors⟩ :=
      clipsAt_mirrors hsite (seatsPairs_of_apart hapart) _ _ _ clip hclip link hlink
    exact ⟨partner, hpartner, hid, hmirrors.link_eq, hmirrors.kin, hmirrors.inSync hε⟩

theorem placed_eq {asset : Asset Rat} {hint : Option TrackId} {drop : Drop Rat} {site : Site Rat}
    {placed : Placed Rat} (hsite : t.findSite asset hint drop settings = .ok site)
    (hplace : t.place asset hint drop settings ids = (.ok (placed, next), left)) :
    placed = ⟨ids.next, site.partner.map fun _ => (ids.skip 1).next, site.target.id, site.start⟩ := by
  obtain ⟨found, hfound, _, hplaced, _⟩ := place_spec hplace
  obtain rfl := Except.ok.inj (hfound.symm.trans hsite)
  exact hplaced

theorem exists_mem_clipsAt (site : Site Rat) (asset : Asset Rat) (mediaRoot : String)
    (id partnerId : ClipId) :
    (∃ clip ∈ clipsAt site asset mediaRoot id partnerId,
        clip.id = id ∧ clip.track = site.target.id) ∧
      ∀ track, site.partner = some track → ∃ clip ∈ clipsAt site asset mediaRoot id partnerId,
        clip.id = partnerId ∧ clip.track = track.id := by
  unfold clipsAt
  cases site.partner with
  | none => exact ⟨⟨_, List.mem_cons_self, rfl, rfl⟩, nofun⟩
  | some partner =>
      refine ⟨⟨_, List.mem_cons_self, rfl, rfl⟩, ?_⟩
      rintro _ ⟨⟩
      exact ⟨_, List.mem_cons_of_mem _ List.mem_cons_self, rfl, rfl⟩

/--
The clips of a placement land on the tracks that were checked, and the audit finds nothing, exactly
when these tracks are the first under their ids.
-/
theorem place_lands_iff (t : Timeline Rat) (hindex : t.index = .ofTracks t.tracks)
    (settings : EditorSettings Rat) (hε : 0 ≤ settings.tolerance)
    (hissues : t.issues settings.tolerance = []) (asset : Asset Rat) (hint : Option TrackId)
    (drop : Drop Rat) (ids : IdSupply) (hfresh : t.Unnamed ids) {placed : Placed Rat}
    {next : Timeline Rat} {left : IdSupply}
    (hplace : t.place asset hint drop settings ids = (.ok (placed, next), left)) :
    ∃ site, t.findSite asset hint drop settings = .ok site ∧
      ((t.LandsOn next placed.clip site.target ∧
          (∀ track, site.partner = some track →
            ∃ id, placed.partner = some id ∧ t.LandsOn next id track) ∧
          next.issues settings.tolerance = []) ↔
        ∀ track ∈ site.tracks, t.track? track.id = some track) := by
  have hstep := inStep_of_issues_eq_nil hindex hissues
  have hsound := hstep.issues_eq_nil_iff.1 hissues
  obtain ⟨site, hfound, hrevision, _⟩ := place_revision hstep hplace
  have hsite := findSite_spec hfound
  rw [placed_eq hfound hplace, hrevision.inStep.issues_eq_nil_iff]
  have hlands {clip : Clip Rat} {track : Track Rat}
      (hclip : clip ∈ clipsAt site asset settings.mediaRoot ids.next (ids.skip 1).next)
      (hnames : clip.track = track.id) :
      t.LandsOn next clip.id track ↔ t.track? track.id = some track := by
    refine landsOn_iff hrevision hclip (fun other hother => ?_) hnames
    exact hfresh.ne (map_id_clipsAt site asset settings.mediaRoot ids ▸ List.mem_map_of_mem hclip)
      hother
  obtain ⟨⟨clip, hclip, hid, hnames⟩, hsecond⟩ :=
    exists_mem_clipsAt site asset settings.mediaRoot ids.next (ids.skip 1).next
  have htarget := hid ▸ hlands hclip hnames
  have hpartner {track : Track Rat} (heq : site.partner = some track) :
      t.LandsOn next (ids.skip 1).next track ↔ t.track? track.id = some track := by
    obtain ⟨clip, hclip, hid, hnames⟩ := hsecond track heq
    exact hid ▸ hlands hclip hnames
  refine ⟨site, hfound, ?_, fun hfirst => ?_⟩
  · rintro ⟨hlands, hpartnerLands, _⟩ track htrack
    rcases List.mem_cons.1 htrack with rfl | htrack
    · exact htarget.1 hlands
    · have heq := Option.mem_toList.1 htrack
      obtain ⟨id, hid, hlands⟩ := hpartnerLands track heq
      rw [heq] at hid
      cases hid
      exact (hpartner heq).1 hlands
  · refine ⟨htarget.2 (hfirst site.target List.mem_cons_self), fun track heq => ?_,
      place_sound hsound hε hsite hfirst hrevision⟩
    refine ⟨(ids.skip 1).next, by rw [heq]; rfl, (hpartner heq).2 (hfirst track ?_)⟩
    exact List.mem_cons_of_mem _ (Option.mem_toList.2 heq)

/-- A track of sounds that belong to pictures, and a free one under the same id. -/
def namesakeTracks : List (Track Rat) :=
  [⟨"main", .av, [⟨"c", "main", "media/c.wav", 0, 5, 0, .audio, 1, 1, 0, none⟩]⟩,
    ⟨"main", .audio, []⟩]

def shortSound : Asset Rat :=
  ⟨"s", "s.wav", "/s.wav", .audio, 4⟩

/-- What a placement of the sound answers, what is on the tracks then, and the issues. -/
def soundPlacement (hint : Option TrackId) (instant : Rat) :
    Option (Placed Rat × List (List ClipId) × List Issue) :=
  ((ofTracks "p" namesakeTracks).place shortSound hint (.instant instant) .standard
    .tally).1.toOption.map fun (placed, next) =>
      (placed, next.tracks.map fun track => track.clips.map Clip.id,
        next.issues EditorSettings.standard.tolerance)

theorem exists_soundPlacement {hint : Option TrackId} {instant : Rat} {placed : Placed Rat}
    {names : List (List ClipId)} {issues : List Issue}
    (h : soundPlacement hint instant = some (placed, names, issues)) :
    ∃ next left, (ofTracks "p" namesakeTracks).place shortSound hint (.instant instant) .standard
        .tally = (.ok (placed, next), left) ∧
      next.tracks.map (fun track => track.clips.map Clip.id) = names ∧
      next.issues EditorSettings.standard.tolerance = issues := by
  unfold soundPlacement at h
  rcases hplace : (ofTracks "p" namesakeTracks).place shortSound hint (.instant instant) .standard
    .tally with ⟨_ | ⟨_, next⟩, left⟩ <;> rw [hplace] at h <;> cases h
  exact ⟨next, left, rfl, rfl, rfl⟩

/-- Who aims at the shared id is given the first track, and the sound lands there. -/
theorem place_lands_iff_aimed :
    let t := ofTracks "p" namesakeTracks
    let settings : EditorSettings Rat := .standard
    t.issues settings.tolerance = [] ∧ t.Unnamed .tally ∧
      ∃ placed next left target,
        t.place shortSound (some "main") (.instant 6) settings .tally = (.ok (placed, next), left) ∧
        namesakeTracks[0]? = some target ∧ t.LandsOn next placed.clip target ∧
        next.issues settings.tolerance = [] := by
  intro t settings
  have hissues : t.issues settings.tolerance = [] := by decide +kernel
  have hfresh : t.Unnamed .tally := unnamed_tally (by decide +kernel)
  have hmade : soundPlacement (some "main") 6 =
      some (⟨"x", none, "main", 6⟩, [["c", "x"], []], []) := by decide +kernel
  obtain ⟨next, left, hplace, _⟩ := exists_soundPlacement hmade
  obtain ⟨site, hsite, hiff⟩ := place_lands_iff t rfl settings (by decide +kernel) hissues shortSound
    (some "main") (.instant 6) .tally hfresh hplace
  have htracks : (t.findSite shortSound (some "main") (.instant 6) settings).toOption.map
      Site.tracks = namesakeTracks[0]?.map ([·]) := by decide +kernel
  rw [hsite] at htracks
  have hfirst : ∀ track ∈ namesakeTracks[0]?.toList, t.track? track.id = some track := by
    decide +kernel
  obtain ⟨htarget, hpartner⟩ := List.cons_eq_cons.1 (Option.some.inj htracks)
  have hlands := hiff.2 fun track htrack => hfirst track ?_
  · exact ⟨hissues, hfresh, _, next, left, site.target, hplace, congrArg some htarget.symm,
      hlands.1, hlands.2.2⟩
  · rw [Site.tracks, htarget, hpartner] at htrack
    exact htrack

/-- Who aims at nothing is given the free track, and the sound lands on the other. -/
theorem place_of_namesakes_overlaps :
    let t := ofTracks "p" namesakeTracks
    let settings : EditorSettings Rat := .standard
    t.index = .ofTracks t.tracks ∧ t.issues settings.tolerance = [] ∧ t.Unnamed .tally ∧
      (t.findSite shortSound none (.instant 0) settings).toOption.map Site.tracks =
        some [⟨"main", .audio, []⟩] ∧
      ∃ placed next left,
        t.place shortSound none (.instant 0) settings .tally = (.ok (placed, next), left) ∧
        next.tracks.map (fun track => track.clips.map Clip.id) = [["c", placed.clip], []] ∧
        next.issues settings.tolerance = [.overlap "c" placed.clip "main"] := by
  intro t settings
  have hmade : soundPlacement none 0 =
      some (⟨"x", none, "main", 0⟩, [["c", "x"], []], [.overlap "c" "x" "main"]) := by
    decide +kernel
  exact ⟨rfl, by decide +kernel, unnamed_tally (by decide +kernel), by decide +kernel, _,
    exists_soundPlacement hmade⟩

end Montage.Timeline
