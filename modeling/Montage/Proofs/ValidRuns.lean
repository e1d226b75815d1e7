import Mathlib.Data.List.Pairwise
import Montage.Proofs.Merges
import Montage.Proofs.Validity

/-!
# Runs on valid timelines

A session that begins at a timeline on which the audit finds nothing, whose linked clips agree
exactly and whose clips are all longer than the tolerance, never reaches a timeline on which the
audit finds anything.
-/

namespace Montage

namespace Timeline

/-! ## Beginnings -/

/-- What is asked of the timeline that a session begins at. -/
structure Workable (ε : Rat) (t : Timeline Rat) : Prop where
  track_ids_nodup : (t.tracks.map Track.id).Nodup
  index_eq : t.index = .ofTracks t.tracks
  issues_eq : t.issues ε = []
  long : ∀ clip ∈ t.clips, ε < clip.duration
  agree : ∀ clip ∈ t.clips, ∀ partner ∈ t.clips, clip.link = some partner.id →
    partner.start = clip.start ∧ partner.stop = clip.stop ∧ partner.offset = clip.offset ∧
      partner.speed = clip.speed

variable {ε : Rat} {t : Timeline Rat}

theorem Workable.inStep (h : t.Workable ε) : t.InStep :=
  inStep_of_issues_eq_nil h.index_eq h.issues_eq

theorem Workable.valid (h : t.Workable ε) : t.Valid ε t.layout := by
  have hsound := h.inStep.issues_eq_nil_iff.1 h.issues_eq
  have hhoused : t.Housed := fun track htrack clip hclip =>
    (hsound.fits track htrack clip hclip).track_eq
  refine ⟨rfl, hhoused, ?_, ?_, ?_, ?_⟩
  · intro clip hclip
    obtain ⟨track, htrack, hin⟩ := mem_clips.1 hclip
    have hfits := hsound.fits track htrack clip hin
    exact ⟨track.kind, hfits.track_eq ▸ mem_layout htrack, hfits.accepts⟩
  · intro clip hclip
    obtain ⟨track, htrack, hin⟩ := mem_clips.1 hclip
    have hfits := hsound.fits track htrack clip hin
    exact ⟨h.long clip hclip, hfits.start_nonneg, hfits.offset_nonneg, hfits.speed_pos,
      hfits.volume_nonneg⟩
  · intro a ha b hb hsame hid
    obtain ⟨track, htrack, hin⟩ := mem_clips.1 ha
    have hother := hhoused.mem_clips_track h.track_ids_nodup htrack hb
      (hsame.symm.trans (hhoused track htrack a hin))
    have hne : a ≠ b := fun heq => hid (congrArg Clip.id heq)
    have : Std.Symm fun a b : Clip Rat =>
        a.span.overlaps b.span ε = false ∧ b.span.overlaps a.span ε = false := ⟨fun _ _ => And.symm⟩
    exact ((hsound.apart track htrack).forall hin hother hne).1
  · intro clip hclip link hlink
    obtain ⟨partner, hpartner, rfl, hback, htrack, _⟩ := hsound.links clip hclip link hlink
    obtain ⟨hstart, hstop, hoffset, hspeed⟩ := h.agree clip hclip partner hpartner hlink
    exact ⟨partner, hpartner, rfl, hback, hstart, hstop, hoffset, hspeed, htrack⟩

theorem workable_standard (project : String) (audioTracks : Nat) :
    (standard project audioTracks).Workable ε where
  track_ids_nodup := by
    rw [← map_fst_layout, layout_standard]
    exact nodup_standardLayout audioTracks
  index_eq := rfl
  issues_eq := by
    rw [(inStep_standard project audioTracks).issues_eq_nil_iff]
    have hnone (clip : Clip Rat) (track : Track Rat)
        (htrack : track ∈ (standard project audioTracks).tracks) : clip ∉ track.clips := by
      intro hclip
      have hmem := mem_clips.2 ⟨track, htrack, hclip⟩
      rw [clips_standard] at hmem
      cases hmem
    refine ⟨by simp [clips_standard], fun track htrack clip hclip => ?_, fun track htrack => ?_,
      by simp [clips_standard]⟩
    · exact absurd hclip (hnone clip track htrack)
    · rw [List.eq_nil_iff_forall_not_mem.2 fun clip => hnone clip track htrack]
      exact .nil
  long := by simp [clips_standard]
  agree := by simp [clips_standard]

end Timeline

/-! ## Runs -/

theorem EditorSettings.tolerance_nonneg {settings : EditorSettings Rat}
    (h : settings.check = .ok ()) : 0 ≤ settings.tolerance := by
  unfold check at h
  split at h
  · cases h
  split at h
  · cases h
  split at h
  · cases h
  · rename_i hnonneg
    exact le_of_not_gt hnonneg

namespace Session

/-- Edits and releases keep timelines valid. -/
theorem kept_valid {settings : EditorSettings Rat} (hε : 0 ≤ settings.tolerance)
    {layout : List (TrackId × TrackKind)} (hlayout : (layout.map Prod.fst).Nodup) :
    Kept settings (Timeline.PlannedOn layout) (Timeline.Valid settings.tolerance layout) where
  edit hstep h hedit := hedit.valid hstep h hlayout hε
  release hfirst hgood hstep h hheld hpersist hrelease :=
    Timeline.release_valid hlayout hfirst hgood hstep h hheld hpersist hrelease

/--
With settings that are accepted, the audit finds nothing on any timeline that a session reaches from
a workable one, and every clip stays longer than the tolerance. New projects are workable.
-/
theorem run_issues_eq_nil (settings : EditorSettings Rat) (hsettings : settings.check = .ok ())
    (library : Library Rat) (observed : Bool) :
    (∀ project audioTracks,
      (Timeline.standard project audioTracks).Workable settings.tolerance) ∧
    ∀ t : Timeline Rat, t.Workable settings.tolerance → ∀ ids, t.Unnamed ids → ∀ calls,
      AppliesOwnPlans [] (start t library settings ids observed) calls →
        let last := ((start t library settings ids observed).run calls).timeline
        last.issues settings.tolerance = [] ∧
          ∀ clip ∈ last.clips, settings.tolerance < clip.duration := by
  refine ⟨Timeline.workable_standard, fun t hwork ids hids calls hcalls => ?_⟩
  have hε := EditorSettings.tolerance_nonneg hsettings
  have hlayout : (t.layout.map Prod.fst).Nodup := by
    rw [Timeline.map_fst_layout]
    exact hwork.track_ids_nodup
  have hsteady := run_steady_of_own_plans (s := start t library settings ids observed)
    (kept_valid hε hlayout)
    (fun _ hsteady _ _ hplan =>
      hsteady.good.plannedOn (planOf_of_mem_plansIn hsteady.inStep _ hplan))
    (start_steady hwork.valid hwork.inStep hids) (by simp) hcalls
  exact ⟨hsteady.inStep.issues_eq_nil_iff.2 (hsteady.good.sound hsteady.inStep hlayout hε),
    fun clip hclip => (hsteady.good.measured clip hclip).long⟩

/-- While a merge of two sounds is rendered, a film is placed, and cut in the middle of a drag. -/
def busyCalls : List (Call Rat) :=
  pairCalls ++ [.planMerge "audio-1" ["x", "xx"],
    .placeAsset ⟨"film", "film.mp4", "/film.mp4", .video, 4⟩ none (.instant 0),
    .pointerDown "xxxx" 0, .split "xxxx" 1, .pointerMove 200, .pointerUp,
    .applyMerge pairPlan pairAsset]

theorem run_issues_eq_nil_busy :
    (EditorSettings.standard : EditorSettings Rat).check = .ok () ∧
      (Timeline.standard (α := Rat) "p" 1).Workable EditorSettings.standard.tolerance ∧
      (Timeline.standard (α := Rat) "p" 1).Unnamed .tally ∧
      AppliesOwnPlans [] blank busyCalls ∧
      (blank.run busyCalls).timeline.clips.map (fun clip => (clip.start, clip.stop)) =
        [(10, 14), (1, 4), (10, 14), (1, 4), (0, 5)] ∧
      (blank.run busyCalls).timeline.issues EditorSettings.standard.tolerance = [] := by
  have hsettings : (EditorSettings.standard : EditorSettings Rat).check = .ok () := by
    decide +kernel
  have hids : (Timeline.standard (α := Rat) "p" 1).Unnamed .tally :=
    Timeline.unnamed_standard IdSupply.fresh_tally "p" 1
  have hmade : pairPlan ∈
      plansIn ((blank.run pairCalls).step (.planMerge "audio-1" ["x", "xx"])).1 := by
    rw [planMerge_pair]
    exact List.mem_singleton_self _
  have hcalls : AppliesOwnPlans [] blank busyCalls := by
    refine ⟨nofun, nofun, nofun, nofun, nofun, nofun, nofun, nofun, ?_, trivial⟩
    rintro _ _ ⟨⟩
    iterate 5 apply List.mem_append_right
    exact List.mem_append_left _ hmade
  have hruns := run_issues_eq_nil .standard hsettings .empty false
  have hwork := hruns.1 "p" 1
  exact ⟨hsettings, hwork, hids, hcalls, by decide +kernel,
    (hruns.2 _ hwork _ hids busyCalls hcalls).1⟩

end Session

end Montage
