import Montage.Proofs.Soundness

/-!
# Halves that drift apart

A split cuts both clips of a pair at one instant, each at its own place in its source. The audit
lets the clips of a pair differ up to the tolerance, in speed too, so where a pair is cut they can be
further apart in their sources than where they start. The new right halves start there.
-/

namespace Montage.Timeline

variable {ε instant : Rat} {t next : Timeline Rat} {id : ClipId} {clips : List (Clip Rat)}
  {ids left : IdSupply}

/-- At the instant, the clip is as far in its source as its partner, up to the tolerance. -/
def AgreesAt (t : Timeline Rat) (ε instant : Rat) (id : ClipId) : Prop :=
  ∀ clip ∈ t.clips, ∀ partner ∈ t.clips, clip.id = id → clip.link = some partner.id →
    |clip.offsetAt instant - partner.offsetAt instant| ≤ ε

theorem inSync_cutShort {cut : List ClipId} {clip partner : Clip Rat} (hε : 0 ≤ ε)
    (hsync : clip.inSync partner ε = true) (hboth : partner.id ∈ cut ↔ clip.id ∈ cut) :
    (cutShort cut instant clip).inSync (cutShort cut instant partner) ε = true := by
  by_cases hcut : clip.id ∈ cut
  · obtain ⟨hstart, _, hoffset, hspeed⟩ := inSync_iff.1 hsync
    simp only [cutShort, hcut, hboth.2 hcut, if_true]
    exact inSync_iff.2 ⟨hstart, by simpa using hε, hoffset, hspeed⟩
  · simpa only [cutShort, hcut, mt hboth.1 hcut, if_false] using hsync

theorem mem_ids_of_toCut (hstep : t.InStep) (hsound : t.Sound ε)
    (hcut : t.toCut id instant ε = .ok clips) (hne : clips ≠ []) {clip partner : Clip Rat}
    (hclip : clip ∈ t.clips) (hlink : clip.link = some partner.id)
    (hid : clip.id ∈ clips.map Clip.id) : partner.id ∈ clips.map Clip.id := by
  obtain ⟨first, hfirst, _, _, hclips⟩ := toCut_spec hstep hcut hne
  rcases hclips with ⟨hnone, rfl⟩ | ⟨second, hsecond, hto, _, rfl⟩
  · obtain rfl := hstep.eq_of_id_eq hclip hfirst (by simpa using hid)
    rw [hnone] at hlink
    cases hlink
  · obtain ⟨hback, _⟩ := hsound.partner hstep hfirst hsecond hto
    simp only [List.map_cons, List.map_nil, List.mem_cons, List.not_mem_nil, or_false] at hid ⊢
    rcases hid with hid | hid
    · obtain rfl := hstep.eq_of_id_eq hclip hfirst hid
      rw [hto] at hlink
      exact .inr (Option.some.inj hlink).symm
    · obtain rfl := hstep.eq_of_id_eq hclip hsecond hid
      rw [hback] at hlink
      exact .inl (Option.some.inj hlink).symm

theorem rightHalves_hold (hstep : t.InStep) (hsound : t.Sound ε) (hε : 0 ≤ ε)
    (hcut : t.toCut id instant ε = .ok clips) (hne : clips ≠ []) (hagree : t.AgreesAt ε instant id)
    (name partnerName : ClipId) :
    ∀ half ∈ rightHalves clips instant name partnerName, ∀ link, half.link = some link →
      ∃ other ∈ rightHalves clips instant name partnerName, other.id = link ∧
        other.link = some half.id ∧ other.track ≠ half.track ∧ half.inSync other ε = true := by
  obtain ⟨clip, hclip, hid, _, hclips⟩ := toCut_spec hstep hcut hne
  rcases hclips with ⟨_, rfl⟩ | ⟨partner, hpartner, hlink, _, rfl⟩
  · simp [rightHalves, rightHalf]
  obtain ⟨_, htrack, hsync⟩ := hsound.partner hstep hclip hpartner hlink
  obtain ⟨_, hstop, _, hspeed⟩ := inSync_iff.1 hsync
  have hhalves : Clip.inSync { rightHalf clip instant name with link := some partnerName }
      { rightHalf partner instant partnerName with link := some name } ε = true :=
    inSync_iff.2 ⟨by simpa [rightHalf] using hε, hstop, hagree clip hclip partner hpartner hid hlink,
      hspeed⟩
  intro half hhalf link hhalfLink
  simp only [rightHalves, List.mem_cons, List.not_mem_nil, or_false] at hhalf
  rcases hhalf with rfl | rfl
  · cases hhalfLink
    exact ⟨_, List.mem_cons_of_mem _ List.mem_cons_self, rfl, rfl, htrack, hhalves⟩
  · cases hhalfLink
    exact ⟨_, List.mem_cons_self, rfl, rfl, htrack.symm, (inSync_comm ..).trans hhalves⟩

/-- What a split makes of a sound timeline breaks a rule on links or none at all. -/
theorem split_sound_of_links (hstep : t.InStep) (hsound : t.Sound ε)
    (htracks : (t.tracks.map Track.id).Nodup) (hε : 0 ≤ ε)
    (hcut : t.toCut id instant ε = .ok clips) (hne : clips ≠ []) {name partnerName : ClipId}
    (hrevision : t.Revision (fun _ => true) (cutShort (clips.map Clip.id) instant)
      (rightHalves clips instant name partnerName) next)
    (hlinks : ∀ clip ∈ next.clips, next.LinkHolds ε clip) : next.Sound ε := by
  have hclean := toCut_clean hstep hcut hne
  have hapart := toCut_pairwise hstep
    (fun _ hclip _ hpartner hlink => (hsound.partner hstep hclip hpartner hlink).2.1) hcut hne
  have hown {clip : Clip Rat} (hclip : clip ∈ t.clips) := clean_of_mem_ids hstep hclean hclip
  refine hrevision.sound hsound (fun track htrack clip hin => ?_)
    (fun clip hclip => cutShort_within (hown hclip)) (fun i track hi half hhalf hhome => ?_) ?_ hlinks
  · have hfits := hsound.fits track htrack clip hin
    have hcuts := hown (mem_clips.2 ⟨track, htrack, hin⟩)
    unfold cutShort
    split
    · rename_i hid
      exact { hfits with start_lt_stop := (cutsCleanly_iff.1 (hcuts hid)).1.1 }
    · exact hfits
  · have htrack : track ∈ t.tracks := List.mem_of_getElem? hi
    have hnames : half.track = track.id := track_eq_of_home? hhome hi
    have hin {clip : Clip Rat} (hclip : clip ∈ t.clips) (hsame : clip.track = half.track) :=
      hsound.housed.mem_clips_track htracks htrack hclip (hsame.trans hnames)
    refine ⟨?_, fun other hother => ?_⟩
    · obtain ⟨clip, hclip, heq⟩ := mem_rightHalves hhalf
      obtain ⟨hmem, hcuts⟩ := hclean clip hclip
      have hfits := hsound.fits track htrack clip (hin hmem (by rw [heq]; rfl))
      have hinside := (cutsCleanly_iff.1 hcuts).1
      have hplayed := mul_pos (sub_pos.2 hinside.1) hfits.speed_pos
      rw [heq]
      exact ⟨hfits.track_eq, hfits.accepts, hinside.2, le_trans hfits.start_nonneg hinside.1.le,
        add_nonneg hfits.offset_nonneg hplayed.le, hfits.speed_pos, hfits.volume_nonneg⟩
    · exact cutShort_apart_rightHalf hstep hε hclean (mem_clips.2 ⟨track, htrack, hother⟩) hhalf
        fun clip hclip hsame hid =>
          hsound.overlaps_eq_false htrack hother (hin hclip hsame) hid
  · intro a ha b hb htrack hid
    exact absurd (congrArg Clip.id (eq_of_mem_rightHalves hapart ha hb htrack)) hid

theorem split_sound_iff (hstep : t.InStep) (hsound : t.Sound ε)
    (htracks : (t.tracks.map Track.id).Nodup) (hε : 0 ≤ ε) {rights : List ClipId}
    (hsplit : t.split id instant ε ids = (.ok (some (rights, next)), left)) :
    next.Sound ε ↔ t.AgreesAt ε instant id := by
  obtain ⟨clips, hcut, hne, hrevision, _⟩ := split_revision hstep hsplit
  constructor
  · intro hnext clip hclip partner hpartner hid hlink
    obtain ⟨first, hfirst, hfirstId, _, hclips⟩ := toCut_spec hstep hcut hne
    obtain rfl := hstep.eq_of_id_eq hclip hfirst (hid.trans hfirstId.symm)
    rcases hclips with ⟨hnone, _⟩ | ⟨second, hsecond, hto, _, rfl⟩
    · rw [hnone] at hlink
      cases hlink
    rw [hto] at hlink
    obtain rfl := hstep.eq_of_id_eq hsecond hpartner (Option.some.inj hlink)
    -- Both right halves are in the new timeline, and link to each other.
    have hhalf := hrevision.mem_clips.2 (.inr List.mem_cons_self)
    have hother := hrevision.mem_clips.2 (.inr (List.mem_cons_of_mem _ List.mem_cons_self))
    obtain ⟨_, _, hsync⟩ := hnext.partner hrevision.inStep hhalf hother rfl
    exact (inSync_iff.1 hsync).2.2.1
  · intro hagree
    refine split_sound_of_links hstep hsound htracks hε hcut hne hrevision ?_
    refine hrevision.linkHolds hsound (fun clip => (cutShort_continues _ _ clip).1)
      (fun clip hclip partner hpartner hlink hback hsync _ => ⟨rfl, ?_⟩)
      (rightHalves_hold hstep hsound hε hcut hne hagree _ _)
    exact inSync_cutShort hε hsync
      ⟨mem_ids_of_toCut hstep hsound hcut hne hpartner hback,
        mem_ids_of_toCut hstep hsound hcut hne hclip hlink⟩

/-- The audit finds nothing after a split exactly when the pair agrees where it is cut. -/
theorem split_issues_eq_nil_iff (t : Timeline Rat) (hindex : t.index = .ofTracks t.tracks)
    (htracks : (t.tracks.map Track.id).Nodup) {ε : Rat} (hε : 0 ≤ ε) (hissues : t.issues ε = [])
    (id : ClipId) (instant : Rat) (ids : IdSupply) {rights : List ClipId} {next : Timeline Rat}
    {left : IdSupply} (hsplit : t.split id instant ε ids = (.ok (some (rights, next)), left)) :
    next.issues ε = [] ↔
      ∀ clip ∈ t.clips, ∀ partner ∈ t.clips, clip.id = id → clip.link = some partner.id →
        |clip.offsetAt instant - partner.offsetAt instant| ≤ ε := by
  have hstep := inStep_of_issues_eq_nil hindex hissues
  have hsound := hstep.issues_eq_nil_iff.1 hissues
  obtain ⟨_, _, _, hrevision, _⟩ := split_revision hstep hsplit
  rw [hrevision.inStep.issues_eq_nil_iff]
  exact split_sound_iff hstep hsound htracks hε hsplit

/-- A picture whose sound is a little faster. -/
def fastTracks : List (Track Rat) :=
  [⟨"video-1", .video, [⟨"a", "video-1", "media/a.mp4", 0, 20, 0, .video, 1, 1, 0, some "b"⟩]⟩,
    ⟨"av-1", .av,
      [⟨"b", "av-1", "media/a.mp4", 0, 20, 0, .audio, 1, 1 + 1 / 1024, 0, some "a"⟩]⟩]

/-- The ids and the issues that a split of the picture leaves. -/
def fastSplit (instant : Rat) : Option (List ClipId × List Issue) :=
  ((ofTracks "p" fastTracks).split "a" instant (1 / 1000) .tally).1.toOption.join.map
    fun (rights, next) => (rights, next.issues (1 / 1000))

theorem exists_fastSplit {instant : Rat} {rights : List ClipId} {issues : List Issue}
    (h : fastSplit instant = some (rights, issues)) :
    ∃ next left, (ofTracks "p" fastTracks).split "a" instant (1 / 1000) .tally =
      (.ok (some (rights, next)), left) ∧ next.issues (1 / 1000) = issues := by
  unfold fastSplit at h
  rcases hsplit : (ofTracks "p" fastTracks).split "a" instant (1 / 1000) .tally with
    ⟨_ | _ | ⟨names, next⟩, left⟩ <;> rw [hsplit] at h <;> cases h
  exact ⟨next, left, rfl, rfl⟩

/-- Half a second in, they still agree. -/
theorem split_issues_eq_nil_iff_fast :
    let t := ofTracks "p" fastTracks
    (t.tracks.map Track.id).Nodup ∧ t.issues (1 / 1000) = [] ∧
      ∃ next left, t.split "a" (1 / 2) (1 / 1000) .tally = (.ok (some (["x", "xx"], next)), left) ∧
        next.issues (1 / 1000) = [] := by
  intro t
  have htracks : (t.tracks.map Track.id).Nodup := by decide +kernel
  have hissues : t.issues (1 / 1000) = [] := by decide +kernel
  have hagree : ∀ clip ∈ t.clips, ∀ partner ∈ t.clips, clip.id = "a" →
      clip.link = some partner.id →
        |clip.offsetAt (1 / 2) - partner.offsetAt (1 / 2)| ≤ 1 / 1000 := by
    decide +kernel
  have hmade : fastSplit (1 / 2) = some (["x", "xx"], []) := by decide +kernel
  obtain ⟨next, left, hsplit, _⟩ := exists_fastSplit hmade
  exact ⟨htracks, hissues, next, left, hsplit,
    (split_issues_eq_nil_iff t rfl htracks (by norm_num) hissues "a" (1 / 2) .tally hsplit).2 hagree⟩

/-- Ten seconds in, they are ten times as far apart as their speeds are. -/
theorem split_of_fast_out_of_sync :
    let t := ofTracks "p" fastTracks
    t.index = .ofTracks t.tracks ∧ (t.tracks.map Track.id).Nodup ∧ t.issues (1 / 1000) = [] ∧
      ∃ next left, t.split "a" 10 (1 / 1000) .tally = (.ok (some (["x", "xx"], next)), left) ∧
        next.issues (1 / 1000) = [.outOfSync "x" "xx"] :=
  ⟨rfl, by decide +kernel, by decide +kernel, exists_fastSplit (by decide +kernel)⟩

end Montage.Timeline
