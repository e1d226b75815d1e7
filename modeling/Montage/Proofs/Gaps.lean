import Mathlib.Tactic.Linarith
import Montage.Proofs.Independence

/-!
# Clips in the gaps of a merge

A plan looks at the planned clips alone, and only the rendering is checked against the others. On a
timeline that has not changed, a rendering of the planned length is refused for one reason: another
clip stands in a gap of the run.
-/

namespace Montage

variable {ε : Rat} {plan : MergePlan Rat} {t : Timeline Rat} {settings : EditorSettings Rat}
  {asset : Asset Rat} {ids : IdSupply}

/-! ## Runs of clips -/

/-- A run of clips, from its first start to its last stop. -/
structure Spans (run : List (Clip Rat)) (origin last : Rat) : Prop where
  origin_mem : ∃ clip ∈ run, clip.start = origin
  origin_le : ∀ clip ∈ run, origin ≤ clip.start
  last_mem : ∃ clip ∈ run, clip.stop = last
  le_last : ∀ clip ∈ run, clip.stop ≤ last

/-- The clip stands between two of a run, each of which it may overlap by the tolerance. -/
def Between (run : List (Clip Rat)) (ε : Rat) (clip : Clip Rat) : Prop :=
  (∃ earlier ∈ run, earlier.stop ≤ clip.start + ε) ∧ ∃ later ∈ run, clip.stop ≤ later.start + ε

/-- A clip that overlaps none of a run overlaps the whole of it only from within. -/
theorem Spans.overlaps_iff {run : List (Clip Rat)} {origin last : Rat} (h : Spans run origin last)
    (hlong : ∀ clip ∈ run, ε < clip.duration) {other : Clip Rat} (hother : ε < other.duration)
    (hfree : ∀ clip ∈ run, other.span.overlaps clip.span ε = false) :
    other.span.overlaps ⟨origin, last⟩ ε = true ↔ Between run ε other := by
  simp only [Clip.duration] at hlong hother
  rw [← not_iff_not, Bool.not_eq_true, Span.overlaps_eq_false_iff]
  constructor
  · rintro hout ⟨⟨earlier, hearlier, hafter⟩, later, hlater, hbefore⟩
    have hfirst := h.origin_le earlier hearlier
    have hlast := h.le_last later hlater
    have hearlierLong := hlong earlier hearlier
    have hlaterLong := hlong later hlater
    rcases hout with hout | hout <;> simp only [Clip.span] at hout <;> linarith
  · intro hbetween
    by_contra hout
    simp only [Clip.span, not_or, not_le] at hout
    obtain ⟨hlast, hfirst⟩ := hout
    -- The first of the run can only be before the clip, and the last only after it.
    obtain ⟨first, hfirstMem, rfl⟩ := h.origin_mem
    obtain ⟨final, hfinalMem, rfl⟩ := h.last_mem
    refine hbetween ⟨⟨first, hfirstMem, ?_⟩, final, hfinalMem, ?_⟩
    · rcases Span.overlaps_eq_false_iff.1 (hfree first hfirstMem) with hafter | hbefore
      · exact hafter
      · exact absurd hbefore (not_le_of_gt hfirst)
    · rcases Span.overlaps_eq_false_iff.1 (hfree final hfinalMem) with hafter | hbefore
      · exact absurd hafter (not_le_of_gt hlast)
      · exact hbefore

namespace Timeline

/-! ## Plans -/

theorem startsNoLater_trans (a b c : Clip Rat) (hab : Scalar.totalLe a.start b.start = true)
    (hbc : Scalar.totalLe b.start c.start = true) : Scalar.totalLe a.start c.start = true :=
  decide_eq_true (le_trans (of_decide_eq_true hab) (of_decide_eq_true hbc))

theorem startsNoLater_total (a b : Clip Rat) :
    (Scalar.totalLe a.start b.start || Scalar.totalLe b.start a.start) = true := by
  simpa [Scalar.totalLe] using le_total a.start b.start

theorem runOf_sorted {id : TrackId} {named : List ClipId} {track : Track Rat}
    {run : List (Clip Rat)} (hrun : t.runOf id named = .ok (track, run)) :
    run.Pairwise fun a b => a.start ≤ b.start := by
  obtain ⟨_, _, sources, _, rfl⟩ := exists_of_runOf hrun
  exact (List.pairwise_mergeSort startsNoLater_trans startsNoLater_total sources).imp
    of_decide_eq_true

/-- The origin of a plan is the earliest start. -/
theorem planMerge_origin_le {track : TrackId} {named : List ClipId}
    (hplan : (t.planMerge track named ids).1 = .ok plan) :
    ∀ planned ∈ plan.clips, plan.origin ≤ planned.start := by
  obtain ⟨found, run, hrun, rfl⟩ := planMerge_spec hplan
  have hsorted := runOf_sorted hrun
  cases run with
  | nil => simp
  | cons first rest =>
      intro planned hplanned
      rcases List.mem_cons.1 hplanned with rfl | hplanned
      · exact le_refl _
      · exact List.rel_of_pairwise_cons hsorted hplanned

/-! ## Renderings of the planned length -/

/-- An unplanned clip on the track of the plan that stands between two planned ones. -/
structure Parts (plan : MergePlan Rat) (ε : Rat) (other : Clip Rat) : Prop where
  track_eq : other.track = plan.track
  unplanned : other.id ∉ plan.ids
  between : Between plan.clips ε other

theorem PlanOf.checkCurrent_ok (h : t.PlanOf plan) {planned : Clip Rat}
    (hplanned : planned ∈ plan.clips) : t.checkCurrent planned = .ok () := by
  obtain ⟨hcurrent, _, hlink⟩ := h.current planned hplanned
  have hsame : planned.span.same planned.span = true := by simp [Span.same]
  simp [checkCurrent, hcurrent, hsame, Clip.isLinked, hlink]

theorem mem_overlapping_run_iff (hstep : t.InStep) (hsound : t.Sound ε)
    (htracks : (t.tracks.map Track.id).Nodup) (hlong : ∀ clip ∈ t.clips, ε < clip.duration)
    (hplan : t.PlanOf plan) {last : Rat} (hspans : Spans plan.clips plan.origin last)
    {track : Track Rat} (htrack : t.track? plan.track = some track) (other : Clip Rat) :
    other ∈ track.overlapping ⟨plan.origin, last⟩ ε plan.ids ↔
      other ∈ t.clips ∧ Parts plan ε other := by
  have hmem := List.mem_of_find?_eq_some htrack
  have hid : track.id = plan.track := by simpa using List.find?_some htrack
  have hpresent {planned : Clip Rat} (hplanned : planned ∈ plan.clips) :
      planned ∈ t.clips ∧ planned ∈ track.clips := by
    obtain ⟨hcurrent, hon, _⟩ := hplan.current planned hplanned
    obtain ⟨hin, _⟩ := hstep.clip?_eq_some_iff.1 hcurrent
    exact ⟨hin, hsound.housed.mem_clips_track htracks hmem hin (hon.trans hid.symm)⟩
  have hoverlaps (hother : other ∈ track.clips) (hnew : other.id ∉ plan.ids) :
      other.span.overlaps ⟨plan.origin, last⟩ ε = true ↔ Between plan.clips ε other := by
    refine hspans.overlaps_iff (fun planned hplanned => hlong _ (hpresent hplanned).1)
      (hlong _ (mem_clips.2 ⟨track, hmem, hother⟩)) fun planned hplanned => ?_
    refine hsound.overlaps_eq_false hmem hother (hpresent hplanned).2 fun heq => hnew ?_
    exact heq ▸ List.mem_map_of_mem hplanned
  simp only [Track.overlapping, List.mem_filter, Bool.and_eq_true, Bool.not_eq_true',
    List.contains_eq_mem, decide_eq_false_iff_not]
  constructor
  · rintro ⟨hother, hnew, hover⟩
    exact ⟨mem_clips.2 ⟨track, hmem, hother⟩, (hsound.housed track hmem other hother).trans hid, hnew,
      (hoverlaps hother hnew).1 hover⟩
  · rintro ⟨hother, hon, hnew, hbetween⟩
    have hin := hsound.housed.mem_clips_track htracks hmem hother (hon.trans hid.symm)
    exact ⟨hin, hnew, (hoverlaps hin hnew).2 hbetween⟩

/--
A merge of clips that have not changed, by a rendering of the planned length, succeeds exactly when
no other clip stands between two planned ones. Otherwise it is refused for such a clip.
-/
theorem applyMerge_planned_iff (t : Timeline Rat) (hindex : t.index = .ofTracks t.tracks)
    (htracks : (t.tracks.map Track.id).Nodup) (settings : EditorSettings Rat)
    (hε : 0 ≤ settings.tolerance) (hissues : t.issues settings.tolerance = [])
    (hlong : ∀ clip ∈ t.clips, settings.tolerance < clip.duration) (track : TrackId)
    (named : List ClipId) (planIds : IdSupply) {plan : MergePlan Rat}
    (hplan : (t.planMerge track named planIds).1 = .ok plan) (asset : Asset Rat) (last : Rat)
    (hlast : last ∈ plan.clips.map Clip.stop) (hle : ∀ planned ∈ plan.clips, planned.stop ≤ last)
    (hasset : asset.duration = last - plan.origin) (ids : IdSupply) (hids : t.Unnamed ids) :
    ((∃ merged next, (t.applyMerge plan asset settings ids).1 = .ok (merged, next)) ↔
        ∀ other ∈ t.clips, ¬ Parts plan settings.tolerance other) ∧
      ∀ refusal, (t.applyMerge plan asset settings ids).1 = .error refusal →
        ∃ other ∈ t.clips, Parts plan settings.tolerance other ∧
          refusal = .overlap plan.track other.id := by
  have hstep := inStep_of_issues_eq_nil hindex hissues
  have hsound := hstep.issues_eq_nil_iff.1 hissues
  have hof := planOf_of_planMerge hstep hplan
  have hspans : Spans plan.clips plan.origin last :=
    ⟨hof.origin_mem, planMerge_origin_le hplan, List.mem_map.1 hlast, hle⟩
  obtain ⟨found, hfoundMem, hfoundId, _⟩ := hof.onTrack
  obtain ⟨house, hhouse⟩ := exists_track? (List.mem_map.2 ⟨found, hfoundMem, hfoundId⟩)
  have hhouseId : house.id = plan.track := by simpa using List.find?_some hhouse
  have hduration : settings.tolerance < asset.duration := by
    obtain ⟨first, hfirst, hstart⟩ := hof.origin_mem
    obtain ⟨hmem, _⟩ := hstep.clip?_eq_some_iff.1 (hof.current first hfirst).1
    have hfirstLong := hlong first hmem
    have hfirstLe := hle first hfirst
    rw [Clip.duration] at hfirstLong
    rw [hasset]
    linarith
  have hlength : Span.ofLength plan.origin asset.duration = ⟨plan.origin, last⟩ := by
    rw [Span.ofLength, hasset, add_sub_cancel]
  have hcheck := checkMerge_eq_checkFree hduration (fun _ => hof.checkCurrent_ok) hhouse
  rw [hlength] at hcheck
  have hoverlapping := mem_overlapping_run_iff hstep hsound htracks hlong hof hspans hhouse
  cases hfree : checkFree house ⟨plan.origin, last⟩ settings.tolerance plan.ids with
  | ok =>
      have hnone := checkFree_eq_ok_iff.1 hfree
      obtain ⟨next, hnext⟩ := applyMerge_ok hstep hids hε (hcheck.trans hfree)
      rw [hnext]
      refine ⟨⟨fun _ other hother hparts => ?_, fun _ => ⟨_, _, rfl⟩⟩, by simp⟩
      have hin := (hoverlapping other).2 ⟨hother, hparts⟩
      rw [hnone] at hin
      cases hin
  | error refusal =>
      obtain ⟨other, hother, rfl⟩ := checkFree_error hfree
      obtain ⟨hmem, hparts⟩ := (hoverlapping other).1 hother
      rw [applyMerge_of_error (hcheck.trans hfree), hhouseId]
      refine ⟨⟨by simp, fun hnone => absurd hparts (hnone other hmem)⟩, ?_⟩
      rintro _ ⟨⟩
      exact ⟨other, hmem, hparts, rfl⟩

/-- Three sounds, the second in the gap between the first and the third. -/
def gappedTrack : Track Rat :=
  ⟨"audio-1", .audio,
    [⟨"a", "audio-1", "media/a.wav", 0, 2, 0, .audio, 1, 1, 0, none⟩,
      ⟨"b", "audio-1", "media/b.wav", 5 / 2, 7 / 2, 0, .audio, 1, 1, 0, none⟩,
      ⟨"c", "audio-1", "media/c.wav", 4, 6, 0, .audio, 1, 1, 0, none⟩]⟩

def gappedTimeline : Timeline Rat :=
  ofTracks "t" [gappedTrack]

def planOfGapped (clips : List (Clip Rat)) : MergePlan Rat :=
  ⟨"audio-1", .audio, clips, 0, mergeRequest gappedTrack clips 0 "x"⟩

theorem track?_gapped : gappedTimeline.track? "audio-1" = some gappedTrack := by
  decide +kernel

theorem planMerge_gapped : (gappedTimeline.planMerge "audio-1" ["a", "b"] .tally).1 =
    .ok (planOfGapped (gappedTrack.clips.take 2)) :=
  planMerge_of_sorted track?_gapped (by decide +kernel) (by decide) (by decide +kernel)
    (by decide +kernel) (by decide +kernel) rfl (by decide +kernel)

theorem unnamed_gapped : gappedTimeline.Unnamed .tally :=
  unnamed_tally (by decide +kernel)

theorem applyMerge_planned_iff_pair :
    let t := gappedTimeline
    let settings : EditorSettings Rat := .standard
    let plan := planOfGapped (gappedTrack.clips.take 2)
    let asset : Asset Rat := ⟨"m", "m.wav", "/m.wav", .audio, 7 / 2⟩
    t.issues settings.tolerance = [] ∧ (t.planMerge "audio-1" ["a", "b"] .tally).1 = .ok plan ∧
      ∃ merged next, (t.applyMerge plan asset settings .tally).1 = .ok (merged, next) := by
  intro t settings plan asset
  have hissues : t.issues settings.tolerance = [] := by decide +kernel
  obtain ⟨hiff, _⟩ := applyMerge_planned_iff t rfl (by decide +kernel) settings (by decide +kernel)
    hissues (by decide +kernel) "audio-1" ["a", "b"] .tally planMerge_gapped asset (7 / 2)
    (by decide +kernel) (by decide +kernel) (by decide +kernel) .tally unnamed_gapped
  refine ⟨hissues, planMerge_gapped, hiff.2 fun other hother hparts => ?_⟩
  -- The third sound comes after both.
  obtain ⟨later, hlater, hbefore⟩ := hparts.between.2
  have hout : ∀ other ∈ t.clips, other.id ∉ plan.ids → ∀ later ∈ plan.clips,
      ¬ other.stop ≤ later.start + settings.tolerance := by decide +kernel
  exact hout other hother hparts.unplanned later hlater hbefore

/-- The first sound and the third are planned, and their rendering is refused for the second. -/
theorem applyMerge_of_gap_refused :
    let t := gappedTimeline
    let settings : EditorSettings Rat := .standard
    let asset : Asset Rat := ⟨"m", "m.wav", "/m.wav", .audio, 6⟩
    t.index = .ofTracks t.tracks ∧ (t.tracks.map Track.id).Nodup ∧ 0 ≤ settings.tolerance ∧
      t.issues settings.tolerance = [] ∧
      (∀ clip ∈ t.clips, settings.tolerance < clip.duration) ∧ t.Unnamed .tally ∧
      ∃ plan, (t.planMerge "audio-1" ["a", "c"] .tally).1 = .ok plan ∧
        6 ∈ plan.clips.map Clip.stop ∧ (∀ planned ∈ plan.clips, planned.stop ≤ 6) ∧
        asset.duration = 6 - plan.origin ∧
        t.applyMerge plan asset settings .tally = (.error (.overlap "audio-1" "b"), .tally) := by
  intro t settings asset
  refine ⟨rfl, by decide +kernel, by decide +kernel, by decide +kernel, by decide +kernel,
    unnamed_gapped, planOfGapped [gappedTrack.clips[0], gappedTrack.clips[2]], ?_, by decide +kernel,
    by decide +kernel, by decide +kernel, applyMerge_of_error (by decide +kernel)⟩
  exact planMerge_of_sorted track?_gapped (by decide +kernel) (by decide) (by decide +kernel)
    (by decide +kernel) (by decide +kernel) rfl (by decide +kernel)

end Timeline

end Montage
