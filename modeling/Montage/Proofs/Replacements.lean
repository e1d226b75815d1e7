import Montage.Proofs.Deletions
import Montage.Proofs.Gaps

/-!
# Merges replace the planned clips

Between the plan and the rendering a timeline may have become another one. Whatever it is then, a
merge that succeeds takes out the planned clips and nothing else, and puts one clip in their place.
-/

namespace Montage.Timeline

section Replacing

variable {α : Type} {t next : Timeline α} {settings : EditorSettings α} {ids left : IdSupply}
  {plan : MergePlan α} {asset : Asset α} {merged : ClipId}

/--
Of tracks with distinct ids, a revision that drops clips and adds one is the timeline made anew from
filtered tracks, with the new clip at the end of the track that it names.
-/
theorem Revision.eq_assemble_append {keep : Clip α → Bool} {clip : Clip α}
    (h : t.Revision keep (fun clip => clip) [clip] next) (htracks : (t.tracks.map Track.id).Nodup) :
    next = assemble t.id
      (t.tracks.map fun track => { track with
        clips := track.clips.filter keep ++ if track.id = clip.track then [clip] else [] })
      t.captions t.shapes := by
  have hnext : next.tracks = t.tracks.map fun track => { track with
      clips := track.clips.filter keep ++ if track.id = clip.track then [clip] else [] } := by
    refine List.ext_getElem? fun i => ?_
    rw [h.getElem?_tracks, List.getElem?_map]
    refine Option.map_congr fun track htrack => ?_
    have hhome : t.home? clip = some i ↔ clip.track = track.id := home?_eq_some_iff htracks htrack
    simp [Track.revise, List.filter_cons, hhome, eq_comm (a := clip.track)]
  rw [← hnext]
  exact h.eq_assemble_tracks

theorem Revision.clip?_eq_none {keep : Clip α → Bool} {new : List (Clip α)}
    (h : t.Revision keep (fun clip => clip) new next) (hstep : t.InStep) {id : ClipId}
    (hkept : ∀ clip ∈ t.clips, clip.id = id → keep clip = true) (hnone : next.clip? id = none) :
    t.clip? id = none := by
  refine hstep.clip?_eq_none_iff.2 fun clip hclip hid => ?_
  refine h.inStep.clip?_eq_none_iff.1 hnone clip ?_ hid
  exact h.mem_clips.2 (.inl ⟨clip, hclip, hkept clip hclip hid, rfl⟩)

variable [Scalar α]

/--
Whatever has become of the timeline since the plan was made, a merge that succeeds filters out the
planned clips, which are all there, and puts one clip at the end of the planned track. It plays the
whole rendering from the origin of the plan on, in the medium of the track, is not linked, and is
free of the clips that are left there. No link breaks if none led to a planned clip.
-/
theorem applyMerge_replaces (t : Timeline α) (hindex : t.index = .ofTracks t.tracks)
    (hids : (t.clips.map Clip.id).Nodup) (htracks : (t.tracks.map Track.id).Nodup)
    (plan : MergePlan α) (asset : Asset α) (settings : EditorSettings α) (ids : IdSupply)
    (merged : ClipId) (next : Timeline α) (left : IdSupply)
    (hmerge : t.applyMerge plan asset settings ids = (.ok (merged, next), left)) :
    let clip : Clip α :=
      { id := merged, track := plan.track, source := asset.sourcePath settings.mediaRoot
        start := plan.origin, stop := plan.origin + asset.duration, offset := 0
        medium := plan.kind.medium, volume := 1, speed := 1, layer := 0, link := none }
    merged = ids.next ∧ left = ids.skip 1 ∧
      next = assemble t.id
        (t.tracks.map fun track => { track with
          clips := track.clips.filter (fun clip => clip.id ∉ plan.ids) ++
            if track.id = plan.track then [clip] else [] })
        t.captions t.shapes ∧
      (∀ planned ∈ plan.clips, ∃ current ∈ t.clips, current.id = planned.id ∧
        current.track = planned.track ∧ current.span.same planned.span = true ∧
        current.link = none) ∧
      (∃ track ∈ t.tracks, track.id = plan.track ∧ ∀ other ∈ track.clips, other.id ∉ plan.ids →
        other.span.overlaps clip.span settings.tolerance = false) ∧
      ((∀ other ∈ t.clips, ∀ id ∈ plan.ids, other.link ≠ some id) →
        ∀ other ∈ next.clips, ∀ link, other.link = some link → next.clip? link = none →
          other ∈ t.clips ∧ t.clip? link = none) := by
  intro clip
  have hstep := inStep_of_index_eq hindex hids
  obtain ⟨hcheck, hrevision, rfl, rfl⟩ := applyMerge_revision hstep hmerge
  obtain ⟨_, hcurrent, house, hhouse, hfree⟩ := checkMerge_spec hcheck
  have hhouseId : house.id = plan.track := by simpa using List.find?_some hhouse
  refine ⟨rfl, rfl, hrevision.eq_assemble_append htracks, fun planned hplanned => ?_,
    ⟨house, List.mem_of_find?_eq_some hhouse, hhouseId, overlapping_eq_nil_iff.1 hfree⟩,
    fun hunlinked other hother link hlink hnone => ?_⟩
  · obtain ⟨current, hfound, htrack, hsame, hlink⟩ := checkCurrent_spec (hcurrent planned hplanned)
    obtain ⟨hmem, hid⟩ := hstep.clip?_eq_some_iff.1 hfound
    exact ⟨current, hmem, hid, htrack, hsame, hlink⟩
  · rcases hrevision.mem_clips.1 hother with ⟨old, hold, _, rfl⟩ | hnew
    · have hkept : ∀ kept ∈ t.clips, kept.id = link → decide (kept.id ∉ plan.ids) = true := by
        rintro kept _ rfl
        exact decide_eq_true fun hplanned => hunlinked old hold kept.id hplanned hlink
      exact ⟨hold, hrevision.clip?_eq_none hstep hkept hnone⟩
    · -- The clip that plays the rendering has no link.
      cases List.mem_singleton.1 hnew
      cases hlink

end Replacing

/-- What has become of the gapped sounds: one is softer, one has moved and lost its partner. -/
def regroupedTracks : List (Track Rat) :=
  [⟨"video-1", .video, [⟨"v", "video-1", "media/v.mp4", 0, 1, 0, .video, 1, 1, 0, some "s"⟩]⟩,
    ⟨"av-1", .av, [⟨"s", "av-1", "media/v.mp4", 0, 1, 0, .audio, 1, 1, 0, some "v"⟩]⟩,
    ⟨"audio-1", .audio,
      [⟨"b", "audio-1", "media/b.wav", 5 / 2, 7 / 2, 0, .audio, 1 / 2, 1, 0, none⟩,
        ⟨"c", "audio-1", "media/c.wav", 5, 7, 0, .audio, 1, 1, 0, some "gone"⟩,
        ⟨"a", "audio-1", "media/a.wav", 0, 2, 0, .audio, 1, 1, 0, none⟩]⟩]

/-- The first two sounds were planned; their rendering is a picture, and half a second longer. -/
theorem applyMerge_replaces_regrouped :
    let t := ofTracks "t" regroupedTracks
    let settings : EditorSettings Rat := .standard
    let plan := planOfGapped (gappedTrack.clips.take 2)
    let asset : Asset Rat := ⟨"m", "m.mp4", "/m.mp4", .video, 4⟩
    (gappedTimeline.planMerge "audio-1" ["a", "b"] .tally).1 = .ok plan ∧
      t.index = .ofTracks t.tracks ∧ (t.clips.map Clip.id).Nodup ∧
      (t.tracks.map Track.id).Nodup ∧
      ∃ next, t.applyMerge plan asset settings .tally = (.ok ("x", next), IdSupply.tally.skip 1) ∧
        next.tracks.map (fun track => track.clips.map Clip.id) = [["v"], ["s"], ["c", "x"]] ∧
        (next.clip? "x").map (fun clip => (clip.medium, clip.stop)) = some (.audio, 4) ∧
        ∀ other ∈ next.clips, ∀ link, other.link = some link → next.clip? link = none →
          other ∈ t.clips ∧ t.clip? link = none := by
  intro t settings plan asset
  have hids : (t.clips.map Clip.id).Nodup := by decide +kernel
  have htracks : (t.tracks.map Track.id).Nodup := by decide +kernel
  have hunlinked : ∀ other ∈ t.clips, ∀ id ∈ plan.ids, other.link ≠ some id := by decide +kernel
  have hresult : (t.applyMerge plan asset settings .tally).1.toOption.map (fun result =>
      (result.2.tracks.map fun track => track.clips.map Clip.id,
        (result.2.clip? "x").map fun clip => (clip.medium, clip.stop))) =
          some ([["v"], ["s"], ["c", "x"]], some (.audio, 4)) := by
    decide +kernel
  cases hmerge : t.applyMerge plan asset settings .tally with
  | mk verdict left =>
      rw [hmerge] at hresult
      cases verdict with
      | error refusal => cases hresult
      | ok result =>
          obtain ⟨hleft, hfound⟩ := Prod.mk.inj (Option.some.inj hresult)
          obtain ⟨hmerged, rfl, _, _, _, hlinks⟩ := applyMerge_replaces t rfl hids htracks plan asset
            settings .tally result.1 result.2 left hmerge
          have hname : IdSupply.tally.next = "x" := by decide +kernel
          have hmade : result = ("x", result.2) := Prod.ext (hmerged.trans hname) rfl
          exact ⟨planMerge_gapped, rfl, hids, htracks, result.2, by rw [hmade], hleft, hfound,
            hlinks hunlinked⟩

end Montage.Timeline
