import Montage.Proofs.Faultless
import Montage.Proofs.Validity

/-!
# Where an asset can be placed, and what that changes

On exact times an asset is placed exactly when it is long enough, has a track to go to, and is in
nobody's way there. All checks are made before a clip is, so that a refusal leaves nothing behind,
and a placement that succeeds puts its clips at the ends of their tracks. No more is asked of the
timeline than tracks with distinct ids: clips may overlap, share ids and link to anything.
-/

namespace Montage

/-! ## Room on the tracks -/

/-- From an instant on for some time, no clip of the track is in the way by more than `ε`. -/
def Track.Clear (track : Track Rat) (start length ε : Rat) : Prop :=
  ∀ clip ∈ track.clips, clip.stop ≤ start + ε ∨ start + length ≤ clip.start + ε

namespace Timeline

variable {t mid next : Timeline Rat} {settings : EditorSettings Rat} {asset : Asset Rat}
  {hint : Option TrackId} {drop : Drop Rat} {target : Track Rat} {sound : Option (Track Rat)}
  {start : Rat}

/-- The track of the sound that comes with an asset: a video asset brings one to the `av` track. -/
def soundTrack? (t : Timeline Rat) : Medium → Option (Track Rat)
  | .video => t.firstOfKind? .av
  | .audio => none

/-- Where a drop on the target, with the track of the sound if there is one, starts a clip. -/
def StartsAt (settings : EditorSettings Rat) (target : Track Rat) (sound : Option (Track Rat))
    (start : Rat) : Drop Rat → Prop
  | .instant at_ =>
      let edges := target.clips.flatMap fun clip => [clip.start, clip.stop]
      start = max 0 (Magnet.snap at_ edges settings.snapSeconds)
  | .append =>
      let stops := (target :: sound.toList).flatMap fun track => track.clips.map Clip.stop
      start ∈ 0 :: stops ∧ ∀ stop ∈ 0 :: stops, stop ≤ start

theorem lastStop_mem {tracks : List (Track Rat)} {track : Track Rat} (h : track ∈ tracks) :
    track.lastStop ∈ 0 :: tracks.flatMap fun track => track.clips.map Clip.stop := by
  obtain ⟨hmem, _⟩ := Scalar.foldl_larger_spec 0 (track.clips.map Clip.stop)
  rcases List.mem_cons.1 hmem with hzero | hstop
  · exact List.mem_cons.2 (.inl hzero)
  · exact List.mem_cons_of_mem _ (List.mem_flatMap.2 ⟨track, h, hstop⟩)

theorem lastStop_le_startOf {track : Track Rat} (h : track ∈ target :: sound.toList) :
    track.lastStop ≤ startOf target sound .append settings := by
  rcases List.mem_cons.1 h with rfl | h
  · exact Scalar.le_larger_right ..
  · rw [startOf, Option.mem_toList.1 h]
    exact Scalar.le_larger_left ..

theorem startsAt_startOf_append :
    StartsAt settings target sound (startOf target sound .append settings) .append := by
  refine ⟨?_, List.forall_mem_cons.2 ⟨?_, fun stop hstop => ?_⟩⟩
  · rw [startOf, Scalar.larger_eq_max]
    rcases max_choice ((sound.map Track.lastStop).getD 0) target.lastStop with heq | heq
    · rw [heq]
      cases sound with
      | none => exact List.mem_cons_self
      | some track => exact lastStop_mem (by simp)
    · rw [heq]
      exact lastStop_mem List.mem_cons_self
  · exact le_trans (lastStop_nonneg target) (lastStop_le_startOf List.mem_cons_self)
  · obtain ⟨track, htrack, hstop⟩ := List.mem_flatMap.1 hstop
    refine le_trans ?_ (lastStop_le_startOf htrack)
    exact (Scalar.foldl_larger_spec 0 _).2 stop (List.mem_cons_of_mem _ hstop)

theorem startsAt_iff :
    StartsAt settings target sound start drop ↔ start = startOf target sound drop settings := by
  cases drop with
  | instant at_ =>
      rw [StartsAt, startOf, Scalar.larger_eq_max, max_comm]
  | append =>
      have hgreatest : StartsAt settings target sound _ .append := startsAt_startOf_append
      constructor
      · rintro ⟨hmem, hle⟩
        exact le_antisymm (hgreatest.2 start hmem) (hle _ hgreatest.1)
      · rintro rfl
        exact hgreatest

/-! ## Finding a site -/

/-- The site that a drop on the target makes. -/
def siteOn (t : Timeline Rat) (settings : EditorSettings Rat) (asset : Asset Rat) (drop : Drop Rat)
    (target : Track Rat) : Site Rat :=
  let sound := t.soundTrack? asset.medium
  ⟨target, sound, startOf target sound drop settings⟩

/-- Refuses a site that has no room for an asset on one of its tracks. -/
def checkSite (site : Site Rat) (asset : Asset Rat) (ε : Rat) : Except (Refusal Rat) Unit :=
  site.tracks.forM fun track => checkFree track (Span.ofLength site.start asset.duration) ε []

theorem checkSite_ok_iff {site : Site Rat} {ε : Rat} :
    checkSite site asset ε = .ok () ↔
      ∀ track ∈ site.tracks, track.Clear site.start asset.duration ε := by
  refine forM_eq_ok_iff.trans (forall₂_congr fun track _ => ?_)
  rw [checkFree_eq_ok_iff, overlapping_eq_nil_iff]
  refine forall₂_congr fun clip _ => ?_
  rw [Span.overlaps_eq_false_iff, or_comm]
  simp [Clip.span, Span.ofLength]

theorem findSite_of_short (hshort : ¬ settings.tolerance < asset.duration) :
    t.findSite asset hint drop settings = .error (.invalidValue .duration asset.duration) := by
  unfold findSite
  rw [if_pos (by simpa using hshort)]
  rfl

/-- On exact times, a long enough asset is checked for a track to go to, and for room there. -/
theorem findSite_of_long (hlong : settings.tolerance < asset.duration) :
    t.findSite asset hint drop settings = do
      let target ← t.trackFor asset.medium hint
      let site := t.siteOn settings asset drop target
      checkSite site asset settings.tolerance
      return site := by
  unfold findSite
  extract_lets partner search checkDrop
  have hpartner : partner = t.soundTrack? asset.medium := by
    unfold soundTrack?
    rfl
  clear_value partner
  have hdrop : checkDrop () = search () := by
    cases drop with
    | instant at_ => exact if_neg Bool.false_ne_true
    | append => rfl
  rw [if_neg (by simpa using hlong)]
  refine hdrop.trans (bind_congr fun target => ?_)
  extract_lets start span found checkTracks site
  have hspan : span.length = asset.duration := add_sub_cancel_left start asset.duration
  have hsite : site = ⟨target, partner, start⟩ := by
    simp only [site, start, siteOn, hpartner]
  rw [if_neg (by simpa [hspan] using hlong), hsite]
  cases partner with
  | none => simp [checkTracks, found, checkSite, Site.tracks, span]
  | some track => simp [checkTracks, found, checkSite, Site.tracks, span]

/-- An asset is long enough, has a track to go to, and from an instant on is in nobody's way. -/
structure HasRoom (t : Timeline Rat) (settings : EditorSettings Rat) (asset : Asset Rat)
    (hint : Option TrackId) (drop : Drop Rat) (target : Track Rat) (start : Rat) : Prop where
  long : settings.tolerance < asset.duration
  target_eq : t.trackFor asset.medium hint = .ok target
  startsAt : StartsAt settings target (t.soundTrack? asset.medium) start drop
  clear : ∀ track ∈ target :: (t.soundTrack? asset.medium).toList,
    track.Clear start asset.duration settings.tolerance

theorem findSite_of_hasRoom (h : t.HasRoom settings asset hint drop target start) :
    t.findSite asset hint drop settings = .ok ⟨target, t.soundTrack? asset.medium, start⟩ := by
  have hsite : t.siteOn settings asset drop target = ⟨target, t.soundTrack? asset.medium, start⟩ := by
    rw [siteOn, ← startsAt_iff.1 h.startsAt]
  have hcheck : checkSite ⟨target, t.soundTrack? asset.medium, start⟩ asset settings.tolerance =
      .ok () := checkSite_ok_iff.2 h.clear
  rw [findSite_of_long h.long, h.target_eq]
  simp only [bind, Except.bind, hsite, hcheck]
  rfl

theorem hasRoom_of_findSite {site : Site Rat}
    (hsite : t.findSite asset hint drop settings = .ok site) :
    site.partner = t.soundTrack? asset.medium ∧
      t.HasRoom settings asset hint drop site.target site.start := by
  have hlong : settings.tolerance < asset.duration := (findSite_spec hsite).long
  rw [findSite_of_long hlong] at hsite
  cases htarget : t.trackFor asset.medium hint with
  | error refusal => simp [htarget, bind, Except.bind] at hsite
  | ok target =>
      cases hcheck : checkSite (t.siteOn settings asset drop target) asset settings.tolerance with
      | error refusal => simp [htarget, hcheck, bind, Except.bind] at hsite
      | ok =>
          simp only [htarget, hcheck, bind, Except.bind, pure, Except.pure, Except.ok.injEq] at hsite
          subst hsite
          exact ⟨rfl, hlong, htarget, startsAt_iff.2 rfl, checkSite_ok_iff.1 hcheck⟩

theorem StartsAt.clear (h : StartsAt settings target sound start .append) {ε : Rat} (hε : 0 ≤ ε)
    (length : Rat) : ∀ track ∈ target :: sound.toList, track.Clear start length ε := by
  intro track htrack clip hclip
  have hstop : clip.stop ≤ start := h.2 _ (List.mem_cons_of_mem _
    (List.mem_flatMap.2 ⟨track, htrack, List.mem_map_of_mem hclip⟩))
  exact .inl (by linarith)

/-- After the last stop there is room for everything that has a track to go to. -/
theorem findSite_append (hε : 0 ≤ settings.tolerance) (hlong : settings.tolerance < asset.duration) :
    t.findSite asset hint .append settings =
      (t.trackFor asset.medium hint).map (t.siteOn settings asset .append) := by
  rw [findSite_of_long hlong]
  refine bind_congr fun target => ?_
  have hstarts : StartsAt settings _ _ (t.siteOn settings asset .append target).start .append :=
    startsAt_startOf_append
  have hcheck : checkSite (t.siteOn settings asset .append target) asset settings.tolerance =
      .ok () := checkSite_ok_iff.2 (hstarts.clear hε _)
  simp only [hcheck, bind, Except.bind]
  rfl

theorem findSite_append_ne_overlap (hε : 0 ≤ settings.tolerance) (track : TrackId)
    (other : ClipId) : t.findSite asset hint .append settings ≠ .error (.overlap track other) := by
  by_cases hlong : settings.tolerance < asset.duration
  · rw [findSite_append hε hlong]
    cases htarget : t.trackFor asset.medium hint with
    | error refusal =>
        rcases trackFor_error htarget with ⟨id, rfl⟩ | ⟨target, _, rfl⟩ | rfl <;> nofun
    | ok target => nofun
  · rw [findSite_of_short hlong]
    nofun

/-! ## What clips that are put in change -/

/-- One timeline is another with new clips at the ends of the tracks that they name. -/
structure Gains (t : Timeline Rat) (new : List (Clip Rat)) (next : Timeline Rat) : Prop where
  id_eq : next.id = t.id
  captions_eq : next.captions = t.captions
  shapes_eq : next.shapes = t.shapes
  tracks_eq : next.tracks = t.tracks.map fun track =>
    { track with clips := track.clips ++ new.filter (·.track = track.id) }
  clip?_new : ∀ clip ∈ new, next.clip? clip.id = some clip
  clip?_old : ∀ id, id ∉ new.map Clip.id → next.clip? id = t.clip? id

namespace Gains

variable {new more : List (Clip Rat)}

theorem refl (t : Timeline Rat) : t.Gains [] t where
  id_eq := rfl
  captions_eq := rfl
  shapes_eq := rfl
  tracks_eq := by simp
  clip?_new := nofun
  clip?_old _ _ := rfl

theorem trans (h : t.Gains new mid) (h' : mid.Gains more next)
    (hids : ((new ++ more).map Clip.id).Nodup) : t.Gains (new ++ more) next where
  id_eq := h'.id_eq.trans h.id_eq
  captions_eq := h'.captions_eq.trans h.captions_eq
  shapes_eq := h'.shapes_eq.trans h.shapes_eq
  tracks_eq := by simp [h'.tracks_eq, h.tracks_eq]
  clip?_new clip hclip := by
    rcases List.mem_append.1 hclip with hnew | hmore
    · rw [List.map_append] at hids
      have hout : clip.id ∉ more.map Clip.id :=
        List.disjoint_of_nodup_append hids (List.mem_map_of_mem hnew)
      rw [h'.clip?_old _ hout, h.clip?_new clip hnew]
    · exact h'.clip?_new clip hmore
  clip?_old id hid := by
    rw [List.map_append, List.mem_append, not_or] at hid
    rw [h'.clip?_old id hid.2, h.clip?_old id hid.1]

theorem map_id_tracks (h : t.Gains new next) :
    next.tracks.map Track.id = t.tracks.map Track.id := by
  rw [h.tracks_eq, List.map_map]
  rfl

end Gains

theorem insert_gains (h : t.Truthful) (htracks : (t.tracks.map Track.id).Nodup) {clip : Clip Rat}
    (hinsert : t.insert clip = .ok next) : t.Gains [clip] next := by
  obtain ⟨i, track, hi, htrack, _, _, hnext⟩ := insert_spec hinsert
  have hplaces (place : Location) : next.clipAt? place =
      if place = ⟨i, track.clips.length⟩ then some clip else t.clipAt? place :=
    clipAt?_append htrack (congrArg Timeline.tracks hnext) place
  have hclip? (id : ClipId) : next.clip? id =
      if clip.id = id then some clip else (t.locate? id).bind next.clipAt? := by
    have hlocate : next.locate? id =
        if clip.id = id then some ⟨i, track.clips.length⟩ else t.locate? id := by
      simp [hnext, locate?, Std.ExtTreeMap.getElem?_insert]
    rw [clip?, hlocate]
    split <;> simp [hplaces]
  refine ⟨hnext ▸ rfl, hnext ▸ rfl, hnext ▸ rfl, List.ext_getElem? fun j => ?_, ?_, fun id hid => ?_⟩
  · rw [hnext, List.getElem?_modify, List.getElem?_map]
    cases hj : t.tracks[j]? with
    | none => rfl
    | some other =>
        have hhome : i = j ↔ clip.track = other.id := by
          rw [← home?_eq_some_iff htracks hj, hi, Option.some.injEq]
        by_cases hnames : clip.track = other.id
        · simp [hhome.2 hnames, hnames]
        · simp [mt hhome.1 hnames, hnames]
  · intro other hother
    rw [List.mem_singleton.1 hother, hclip?, if_pos rfl]
  · have hne : clip.id ≠ id := fun heq => hid (by simp [heq])
    rw [hclip?, if_neg hne]
    -- The place at the end of the track was empty, so that no entry of the index led there.
    refine Option.bind_congr fun place hplace => ?_
    obtain ⟨old, hold, _⟩ := h id place hplace
    rw [hplaces, if_neg]
    rintro rfl
    simp [clipAt?, htrack] at hold

theorem insertAll_gains (h : t.Truthful) (htracks : (t.tracks.map Track.id).Nodup)
    {fault : Rejection Rat → Fault Rat} {clips : List (Clip Rat)}
    (hids : (clips.map Clip.id).Nodup) (hinsert : t.insertAll clips fault = .ok next) :
    t.Gains clips next := by
  unfold insertAll at hinsert
  induction clips generalizing t with
  | nil =>
      cases hinsert
      exact .refl _
  | cons clip clips ih =>
      rw [List.foldlM_cons] at hinsert
      cases hmid : t.insert clip with
      | error rejection =>
          rw [hmid] at hinsert
          cases hinsert
      | ok mid =>
          rw [hmid] at hinsert
          have hgains := insert_gains h htracks hmid
          have hrest := ih (h.insert hmid) (hgains.map_id_tracks ▸ htracks)
            (List.nodup_cons.1 hids).2 hinsert
          exact hgains.trans hrest hids

/-! ## Placing -/

/-- The clips of an asset that starts at an instant on a track, with its sound on another. -/
def newClips (asset : Asset Rat) (mediaRoot : String) (target : Track Rat)
    (sound : Option (Track Rat)) (start : Rat) (id soundId : ClipId) : List (Clip Rat) :=
  { id, track := target.id, source := asset.sourcePath mediaRoot, start,
    stop := start + asset.duration, offset := 0, medium := asset.medium, volume := 1, speed := 1,
    layer := 0, link := sound.map fun _ => soundId } ::
  sound.toList.map fun track =>
    { id := soundId, track := track.id, source := asset.sourcePath mediaRoot, start,
      stop := start + asset.duration, offset := 0, medium := .audio, volume := 1, speed := 1,
      layer := 0, link := some id }

theorem clipsAt_eq_newClips (site : Site Rat) (mediaRoot : String) (id soundId : ClipId) :
    clipsAt site asset mediaRoot id soundId =
      newClips asset mediaRoot site.target site.partner site.start id soundId := by
  unfold clipsAt newClips
  cases site.partner <;> rfl

variable {ids left : IdSupply}

/-- Where there is room, the asset is placed, at the ends of its tracks. -/
theorem HasRoom.place (hroom : t.HasRoom settings asset hint drop target start) (h : t.Truthful)
    (htracks : (t.tracks.map Track.id).Nodup) (hε : 0 ≤ settings.tolerance)
    (hfresh : t.Unnamed ids) :
    ∃ next left, t.place asset hint drop settings ids =
        (.ok (⟨ids.next, (t.soundTrack? asset.medium).map fun _ => (ids.skip 1).next, target.id,
          start⟩, next), left) ∧
      t.Gains (newClips asset settings.mediaRoot target (t.soundTrack? asset.medium) start ids.next
        (ids.skip 1).next) next := by
  obtain ⟨next, left, hplace, hinsert⟩ := place_of_findSite Scalar.ordered_exact h hfresh
    (not_lt.2 hε) (findSite_of_hasRoom hroom)
  refine ⟨next, left, hplace, ?_⟩
  have hnames := map_id_clipsAt ⟨target, t.soundTrack? asset.medium, start⟩ asset settings.mediaRoot
    ids
  rw [← clipsAt_eq_newClips ⟨target, t.soundTrack? asset.medium, start⟩]
  exact insertAll_gains h htracks (hnames ▸ hfresh.nodup_upcoming _) hinsert

/-- A placement is refused for want of a site alone, before any id is taken. -/
theorem place_of_error (h : t.Truthful) (hε : 0 ≤ settings.tolerance) (hfresh : t.Unnamed ids)
    {refusal : Refusal Rat} (hplace : (t.place asset hint drop settings ids).1 = .error refusal) :
    t.findSite asset hint drop settings = .error refusal ∧
      t.place asset hint drop settings ids = (.error refusal, ids) := by
  cases hsite : t.findSite asset hint drop settings with
  | error reason =>
      have hrefused : t.place asset hint drop settings ids = (.error reason, ids) := by
        unfold Timeline.place
        rw [hsite]
      rw [hrefused] at hplace
      cases hplace
      exact ⟨rfl, hrefused⟩
  | ok site =>
      obtain ⟨next, left, hplaced, _⟩ := place_of_findSite Scalar.ordered_exact h hfresh
        (not_lt.2 hε) hsite
      rw [hplaced] at hplace
      cases hplace

theorem HasRoom.tracks_apart (hroom : t.HasRoom settings asset hint drop target start)
    (htracks : (t.tracks.map Track.id).Nodup) :
    target ∈ t.tracks ∧ ∀ track ∈ t.soundTrack? asset.medium,
      track ∈ t.tracks ∧ track.id ≠ target.id := by
  have hsite := findSite_spec (findSite_of_hasRoom hroom)
  refine ⟨hsite.target_mem, fun track hsound => ?_⟩
  exact ⟨(hsite.partner_spec hsound).2.2.1, hsite.apart htracks track hsound⟩

/--
An asset is placed exactly when it has room, and after everything on its tracks it is never in a
clip's way. Its clips are the only change then, one on the target and one of its sound, if any, on
another track, linked to each other. A refusal changes nothing, and takes no ids.
-/
theorem place_iff_hasRoom (t : Timeline Rat) (hmade : t.Made)
    (htracks : (t.tracks.map Track.id).Nodup) (settings : EditorSettings Rat)
    (hε : 0 ≤ settings.tolerance) (asset : Asset Rat) (hint : Option TrackId) (drop : Drop Rat)
    (ids : IdSupply) (hfresh : t.Unnamed ids) :
    ((∃ result, (t.place asset hint drop settings ids).1 = .ok result) ↔
        ∃ target start, t.HasRoom settings asset hint drop target start) ∧
      (∀ track other, (t.place asset hint .append settings ids).1 ≠ .error (.overlap track other)) ∧
      (∀ target start, t.HasRoom settings asset hint drop target start →
        (target ∈ t.tracks ∧ ∀ track ∈ t.soundTrack? asset.medium,
          track ∈ t.tracks ∧ track.id ≠ target.id) ∧
        ∃ next left, t.place asset hint drop settings ids =
            (.ok (⟨ids.next, (t.soundTrack? asset.medium).map fun _ => (ids.skip 1).next, target.id,
              start⟩, next), left) ∧
          t.Gains (newClips asset settings.mediaRoot target (t.soundTrack? asset.medium) start
            ids.next (ids.skip 1).next) next) ∧
      ∀ refusal left, t.place asset hint drop settings ids = (.error refusal, left) →
        left = ids ∧ ∀ s : Session Rat, s.timeline = t → s.settings = settings → s.ids = ids →
          s.placeAsset asset hint drop = (.error refusal, s) := by
  have htrue := hmade.truthful
  refine ⟨⟨fun ⟨result, hresult⟩ => ?_, fun ⟨target, start, hroom⟩ => ?_⟩,
    fun track other hrefused => ?_,
    fun target start hroom =>
      ⟨hroom.tracks_apart htracks, hroom.place htrue htracks hε hfresh⟩,
    fun refusal left hrefused => ?_⟩
  · cases hsite : t.findSite asset hint drop settings with
    | error refusal =>
        unfold Timeline.place at hresult
        rw [hsite] at hresult
        cases hresult
    | ok site => exact ⟨site.target, site.start, (hasRoom_of_findSite hsite).2⟩
  · obtain ⟨next, left, hplace, _⟩ := hroom.place htrue htracks hε hfresh
    exact ⟨_, congrArg Prod.fst hplace⟩
  · exact findSite_append_ne_overlap hε track other (place_of_error htrue hε hfresh hrefused).1
  · obtain ⟨_, hplace⟩ := place_of_error htrue hε hfresh (congrArg Prod.fst hrefused)
    rw [hrefused] at hplace
    cases hplace
    refine ⟨rfl, ?_⟩
    rintro s rfl rfl rfl
    unfold Session.placeAsset
    rw [hrefused]

/-- A track of two clips in each other's way, and a sound of the same id that links to nothing. -/
def messyTracks : List (Track Rat) :=
  [⟨"video-1", .video,
      [⟨"a", "video-1", "media/a.mp4", 0, 5, 0, .video, 1, 1, 0, none⟩,
        ⟨"b", "video-1", "media/b.mp4", 3, 7, 0, .video, 1, 1, 0, some "a"⟩]⟩,
    ⟨"av-1", .av, [⟨"a", "av-1", "media/c.wav", 4, 9, 0, .audio, 1, 1, 0, some "gone"⟩]⟩]

def shortFilm : Asset Rat :=
  ⟨"f", "f.mp4", "/f.mp4", .video, 4⟩

/-- The film goes after the last sound, and its own sound beside it. -/
theorem place_iff_hasRoom_messy :
    let t := ofTracks "p" messyTracks
    let settings : EditorSettings Rat := .standard
    t.Made ∧ (t.tracks.map Track.id).Nodup ∧ 0 ≤ settings.tolerance ∧ t.Unnamed .tally ∧
      ∃ target, t.HasRoom settings shortFilm none .append target 9 ∧ ∃ sound next left,
        t.place shortFilm none .append settings .tally =
          (.ok (⟨"x", some "xx", "video-1", 9⟩, next), left) ∧
        t.soundTrack? .video = some sound ∧
        t.Gains (newClips shortFilm settings.mediaRoot target (some sound) 9 "x" "xx") next ∧
        next.tracks.map (fun track => track.clips.map Clip.id) = [["a", "b", "x"], ["a", "xx"]] := by
  intro t settings
  have htracks : (t.tracks.map Track.id).Nodup := by decide +kernel
  have hε : 0 ≤ settings.tolerance := by decide +kernel
  have hfresh : t.Unnamed .tally := unnamed_tally (by decide +kernel)
  have hresult : (t.place shortFilm none .append settings .tally).1.toOption.map
      (fun result => (result.1, result.2.tracks.map fun track => track.clips.map Clip.id)) =
        some (⟨"x", some "xx", "video-1", 9⟩, [["a", "b", "x"], ["a", "xx"]]) := by
    decide +kernel
  obtain ⟨hiff, _, hplaced, _⟩ := place_iff_hasRoom t (made_of_index_eq rfl) htracks settings hε
    shortFilm none .append .tally hfresh
  rcases hplace : t.place shortFilm none .append settings .tally with ⟨_ | ⟨placed, next⟩, left⟩
  · rw [hplace] at hresult
    cases hresult
  · rw [hplace] at hresult
    obtain ⟨hanswer, hnames⟩ := Prod.mk.inj (Option.some.inj hresult)
    subst hanswer
    obtain ⟨target, start, hroom⟩ := hiff.1 ⟨_, congrArg Prod.fst hplace⟩
    obtain ⟨_, _, _, hsame, hgains⟩ := hplaced target start hroom
    have hok := Except.ok.inj (Prod.mk.inj (hplace.symm.trans hsame)).1
    obtain rfl := (Prod.mk.inj hok).2
    obtain rfl : 9 = start := congrArg Placed.start (Prod.mk.inj hok).1
    exact ⟨made_of_index_eq rfl, htracks, hε, hfresh, target, hroom, _, next, left, rfl, rfl,
      hgains, hnames⟩

end Timeline

end Montage
