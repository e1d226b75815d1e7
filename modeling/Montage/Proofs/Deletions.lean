import Montage.Proofs.Entries
import Montage.Proofs.Edits

/-!
# Deletions filter the tracks

Clips are taken out one after the other, and the places behind them are noted again each time. When
all are out, the tracks hold what a filter leaves on them, and the index is as if made anew.
-/

namespace Montage.Timeline

variable {α : Type} {t next : Timeline α} {selection closed : ClipSet}

/-- A revision is its tracks indexed anew, beside the overlays. -/
theorem Revision.eq_assemble_tracks {keep : Clip α → Bool} {alter : Clip α → Clip α}
    {new : List (Clip α)} (h : t.Revision keep alter new next) :
    next = assemble t.id next.tracks t.captions t.shapes := by
  rw [assemble, ← h.inStep.index_eq, ← h.id_eq, ← h.captions_eq, ← h.shapes_eq]

/-- A revision that only drops clips is the timeline made anew from filtered tracks. -/
theorem Revision.eq_assemble {keep : Clip α → Bool}
    (h : t.Revision keep (fun clip => clip) [] next) :
    next = assemble t.id (t.tracks.map fun track => { track with clips := track.clips.filter keep })
      t.captions t.shapes := by
  have htracks : next.tracks =
      t.tracks.map fun track => { track with clips := track.clips.filter keep } := by
    refine List.ext_getElem? fun i => ?_
    rw [h.getElem?_tracks, List.getElem?_map]
    simp [Track.revise]
  rw [← htracks]
  exact h.eq_assemble_tracks

theorem delete_eq_error_iff {refusal : Refusal α} :
    t.delete selection = .error refusal ↔ t.linkClosure selection.toList = .error refusal := by
  unfold delete
  cases t.linkClosure selection.toList <;> simp [Except.map]

/-- A set lists its ids in increasing order. -/
theorem pairwise_lt_toList (ids : ClipSet) : ids.toList.Pairwise (· < ·) :=
  ids.ordered_toList.imp fun hlt => compareOfLessAndEq_eq_lt.1 hlt

/-- A set that is closed under links that go both ways is not linked to from outside. -/
theorem LinkClosed.not_linked (h : t.LinkClosed closed) (hstep : t.InStep)
    (hmutual : ∀ a ∈ t.clips, ∀ b ∈ t.clips, a.link = some b.id → b.link = some a.id)
    {clip : Clip α} (hclip : clip ∈ t.clips) (hout : clip.id ∉ closed) {id : ClipId}
    (hid : id ∈ closed) : clip.link ≠ some id := by
  intro hlink
  obtain ⟨partner, hpartner, hlinks⟩ := h id hid
  obtain ⟨hmem, rfl⟩ := hstep.clip?_eq_some_iff.1 hpartner
  exact hout (hlinks clip.id (hmutual clip hclip partner hmem hlink))

/--
A deletion is refused when the closure of the selection is, and for the same reason. Otherwise it
answers the closure in the order of the ids, and leaves the timeline made anew from its tracks
without those clips. No clip that is left links to one that is gone, if all links went both ways.
-/
theorem delete_filters (t : Timeline α) (hindex : t.index = .ofTracks t.tracks)
    (hids : (t.clips.map Clip.id).Nodup) (selection : ClipSet) :
    (∀ refusal, t.delete selection = .error refusal ↔
        t.linkClosure selection.toList = .error refusal) ∧
      ∀ removed next, t.delete selection = .ok (removed, next) →
        ∃ closed, t.linkClosure selection.toList = .ok closed ∧
          (∀ id, id ∈ removed ↔ id ∈ closed) ∧ removed.Pairwise (· < ·) ∧
          next = assemble t.id
            (t.tracks.map fun track =>
              { track with clips := track.clips.filter fun clip => clip.id ∉ removed })
            t.captions t.shapes ∧
          ((∀ a ∈ t.clips, ∀ b ∈ t.clips, a.link = some b.id → b.link = some a.id) →
            ∀ clip ∈ next.clips, ∀ id ∈ removed, clip.link ≠ some id) := by
  have hstep := inStep_of_index_eq hindex hids
  refine ⟨fun refusal => delete_eq_error_iff, fun removed next hdelete => ?_⟩
  obtain ⟨closed, hclosure, rfl, hrevision⟩ := delete_revision hstep hdelete
  refine ⟨closed, hclosure, fun id => Std.ExtTreeSet.mem_toList, pairwise_lt_toList closed,
    hrevision.eq_assemble, fun hmutual clip hclip id hid => ?_⟩
  have hclosed := (linkClosure_collected hstep.findsById hclosure).1
  rcases hrevision.mem_clips.1 hclip with ⟨old, hold, hkept, rfl⟩ | hnew
  · have hout : old.id ∉ closed := fun hmem =>
      of_decide_eq_true hkept (Std.ExtTreeSet.mem_toList.2 hmem)
    exact hclosed.not_linked hstep hmutual hold hout (Std.ExtTreeSet.mem_toList.1 hid)
  · cases hnew

/-- Two pictures with their sounds, and one clip more on each of the tracks. -/
def scatteredTracks : List (Track Rat) :=
  [⟨"video-1", .video,
      [⟨"v1", "video-1", "media/v.mp4", 0, 4, 0, .video, 1, 1, 0, some "s1"⟩,
        ⟨"v2", "video-1", "media/w.mp4", 4, 6, 0, .video, 1, 1, 0, none⟩,
        ⟨"v3", "video-1", "media/v.mp4", 6, 8, 4, .video, 1, 1, 0, some "s3"⟩]⟩,
    ⟨"av-1", .av,
      [⟨"s3", "av-1", "media/v.mp4", 6, 8, 4, .audio, 1, 1, 0, some "v3"⟩,
        ⟨"s0", "av-1", "media/x.wav", 8, 9, 0, .audio, 1, 1, 0, none⟩,
        ⟨"s1", "av-1", "media/v.mp4", 0, 4, 0, .audio, 1, 1, 0, some "v1"⟩]⟩]

/-- Both pairs are deleted by one half each, and the two other clips move up. -/
theorem delete_filters_scattered :
    let t := ofTracks "p" scatteredTracks
    let selection : ClipSet := .ofList ["v1", "s3", "gone"] compare
    t.index = .ofTracks t.tracks ∧ (t.clips.map Clip.id).Nodup ∧
      (∀ a ∈ t.clips, ∀ b ∈ t.clips, a.link = some b.id → b.link = some a.id) ∧
      ∃ removed next closed, t.delete selection = .ok (removed, next) ∧
        removed = ["s1", "s3", "v1", "v3"] ∧ t.linkClosure selection.toList = .ok closed ∧
        (∀ id, id ∈ removed ↔ id ∈ closed) ∧ removed.Pairwise (· < ·) ∧
        next = assemble t.id
          (t.tracks.map fun track =>
            { track with clips := track.clips.filter fun clip => clip.id ∉ removed })
          t.captions t.shapes ∧
        next.tracks.map (fun track => track.clips.map Clip.id) = [["v2"], ["s0"]] ∧
        ∀ clip ∈ next.clips, ∀ id ∈ removed, clip.link ≠ some id := by
  intro t selection
  have hids : (t.clips.map Clip.id).Nodup := by decide +kernel
  have hmutual : ∀ a ∈ t.clips, ∀ b ∈ t.clips, a.link = some b.id → b.link = some a.id := by
    decide +kernel
  have hresult : (t.delete selection).toOption.map (fun result =>
      (result.1, result.2.tracks.map fun track => track.clips.map Clip.id)) =
        some (["s1", "s3", "v1", "v3"], [["v2"], ["s0"]]) := by
    decide +kernel
  obtain ⟨_, hfilters⟩ := delete_filters t rfl hids selection
  rcases hdelete : t.delete selection with refusal | ⟨removed, next⟩
  · rw [hdelete] at hresult
    cases hresult
  · rw [hdelete] at hresult
    obtain ⟨hremoved, hleft⟩ := Prod.mk.inj (Option.some.inj hresult)
    obtain ⟨closed, hclosure, hmem, hordered, hnext, hlinks⟩ := hfilters removed next hdelete
    exact ⟨rfl, hids, hmutual, removed, next, closed, rfl, hremoved, hclosure, hmem, hordered,
      hnext, hleft, hlinks hmutual⟩

end Montage.Timeline
