import Montage.Proofs.Layout
import Montage.Proofs.Runs

/-!
# Merges of current clips

A plan is applied to what the timeline has become since it was made. The check asks that the planned
clips are where they were, and nothing else of a clip can have changed but its volume and its speed:
of those the check knows nothing.
-/

namespace Montage

variable {α : Type}

/-- The clip is where it was planned, alone, and plays its source from the same offset. -/
structure Clip.StandsAsPlanned [Scalar α] (current planned : Clip α) : Prop where
  track_eq : current.track = planned.track
  source_eq : current.source = planned.source
  offset_eq : current.offset = planned.offset
  start_same : (current.start == planned.start) = true
  stop_same : (current.stop == planned.stop) = true
  medium_eq : current.medium = planned.medium
  layer_eq : current.layer = planned.layer
  link_eq : current.link = none

namespace Timeline

variable [Scalar α] {t : Timeline α} {settings : EditorSettings α}

/-- A plan that passes the checks is of clips that go on as planned, if clips persist. -/
theorem checkMerge_current {first : Timeline α} {plan : MergePlan α} {asset : Asset α}
    (hfirst : first.InStep) (hplan : first.PlanOf plan) (h : t.InStep)
    (hpersist : Persist Clip.Continues first t)
    (hcheck : t.checkMerge plan asset settings = .ok ()) :
    ∀ planned ∈ plan.clips, ∃ current, t.clip? planned.id = some current ∧
      current.StandsAsPlanned planned := by
  intro planned hplanned
  obtain ⟨current, hcurrent, htrack, hsame, hlink⟩ :=
    checkCurrent_spec ((checkMerge_spec hcheck).2.1 planned hplanned)
  obtain ⟨hmem, hid⟩ := h.clip?_eq_some_iff.1 hcurrent
  obtain ⟨hfound, _⟩ := hfirst.clip?_eq_some_iff.1 (hplan.current planned hplanned).1
  have hcontinues := hpersist planned hfound current hmem hid
  simp only [Span.same, Clip.span, Bool.and_eq_true] at hsame
  exact ⟨current, hcurrent, htrack, hcontinues.source_eq, hcontinues.offset_eq, hsame.1, hsame.2,
    hcontinues.medium_eq, hcontinues.layer_eq, hlink⟩

end Timeline

namespace Session

variable [Scalar α]

/--
A plan that was made in a session is applied later only if every planned clip still stands as
planned. Otherwise the session stays as it is; at most an id is spent.
-/
theorem applyMerge_current (t : Timeline α) (hindex : t.index = .ofTracks t.tracks)
    (hnodup : (t.clips.map Clip.id).Nodup) (library : Library α) (settings other : EditorSettings α)
    (ids : IdSupply) (hids : t.Unnamed ids) (observed : Bool) (before after : List (Call α))
    (track : TrackId) (clips : List ClipId) (plan : MergePlan α) (asset : Asset α) :
    let s := (start t library settings ids observed).run before
    (s.step (.planMerge track clips)).1 = .ok (.plan plan) →
      let later := { (s.step (.planMerge track clips)).2.run after with settings := other }
      ((∃ merged, (later.step (.applyMerge plan asset)).1 = .ok (.merged merged)) ∧
        ∀ planned ∈ plan.clips, ∃ current, later.timeline.clip? planned.id = some current ∧
          current.StandsAsPlanned planned) ∨
      ∃ refusal count, later.step (.applyMerge plan asset) =
        (.error refusal, { later with ids := later.ids.skip count }) := by
  intro s hplanned later
  have hsteady : s.Steady fun _ => True := run_steady (.true settings)
    (start_steady trivial (Timeline.inStep_of_index_eq hindex hnodup) hids) before
  have hplan : s.timeline.PlanOf plan := planOf_of_mem_plansIn hsteady.inStep
    (.planMerge track clips) (by simp [hplanned, plansIn])
  -- Planning leaves the timeline as it is.
  have hsteadyPlan : (s.step (.planMerge track clips)).2.Steady fun _ => True :=
    run_steady (.true s.settings) hsteady [.planMerge track clips]
  have hunnamed : s.timeline.Unnamed (s.step (.planMerge track clips)).2.ids := hsteadyPlan.unnamed
  have hpersist : Timeline.Persist Clip.Continues s.timeline later.timeline :=
    run_continues hsteadyPlan hunnamed (.refl .refl hsteady.inStep) after
  have hlater : later.timeline.InStep := (run_steady (.true _) hsteadyPlan after).inStep
  cases hmerge : later.timeline.applyMerge plan asset later.settings later.ids with
  | mk result left =>
      cases result with
      | error refusal =>
          obtain ⟨count, rfl⟩ := Timeline.applyMerge_ids hmerge
          refine .inr ⟨refusal, count, ?_⟩
          simp only [step, step.answer, applyMerge, hmerge, Except.map]
      | ok result =>
          obtain ⟨merged, next⟩ := result
          obtain ⟨hcheck, _⟩ := Timeline.applyMerge_revision hlater hmerge
          refine .inl ⟨⟨merged, ?_⟩, Timeline.checkMerge_current hsteady.inStep hplan hlater
            hpersist hcheck⟩
          simp only [step, step.answer, applyMerge, hmerge, Except.map]

/-- Two sounds are placed, one after the other. -/
def pairCalls : List (Call Rat) :=
  [.placeAsset ⟨"a", "a.wav", "/a.wav", .audio, 2⟩ none (.instant 0),
    .placeAsset ⟨"b", "b.wav", "/b.wav", .audio, 2⟩ none (.instant 3)]

/-- The track of the two sounds. -/
def pairTrack : Track Rat :=
  ⟨"audio-1", .audio,
    [⟨"x", "audio-1", "media/a.wav", 0, 2, 0, .audio, 1, 1, 0, none⟩,
      ⟨"xx", "audio-1", "media/b.wav", 3, 5, 0, .audio, 1, 1, 0, none⟩]⟩

/-- The plan to merge the two sounds. -/
def pairPlan : MergePlan Rat :=
  ⟨"audio-1", .audio, pairTrack.clips, 0,
    Timeline.mergeRequest pairTrack pairTrack.clips 0 "xxx"⟩

def pairAsset : Asset Rat :=
  ⟨"m", "m.wav", "/m.wav", .audio, 5⟩

theorem planMerge_pair :
    ((blank.run pairCalls).step (.planMerge "audio-1" ["x", "xx"])).1 = .ok (.plan pairPlan) := by
  have htrack : (blank.run pairCalls).timeline.track? "audio-1" = some pairTrack := by
    decide +kernel
  have hplan : ((blank.run pairCalls).timeline.planMerge "audio-1" ["x", "xx"]
      (blank.run pairCalls).ids).1 = .ok pairPlan :=
    Timeline.planMerge_of_sorted htrack (by decide +kernel) (by decide) (by decide +kernel)
      (by decide +kernel) (by decide +kernel) rfl (by decide +kernel)
  simp only [step, step.answer, planMerge, hplan, Except.map]

theorem applyMerge_current_pair :
    let s := blank.run pairCalls
    let later := { (s.step (.planMerge "audio-1" ["x", "xx"])).2.run [.setVolume "x" (1 / 2)] with
      settings := .standard }
    (s.step (.planMerge "audio-1" ["x", "xx"])).1 = .ok (.plan pairPlan) ∧
      (((∃ merged, (later.step (.applyMerge pairPlan pairAsset)).1 = .ok (.merged merged)) ∧
        ∀ planned ∈ pairPlan.clips, ∃ current, later.timeline.clip? planned.id = some current ∧
          current.StandsAsPlanned planned) ∨
      ∃ refusal count, later.step (.applyMerge pairPlan pairAsset) =
        (.error refusal, { later with ids := later.ids.skip count })) := by
  refine ⟨planMerge_pair, ?_⟩
  exact applyMerge_current (.standard "p" 1) rfl (by simp [Timeline.clips_standard]) .empty
    .standard .standard .tally (Timeline.unnamed_standard IdSupply.fresh_tally "p" 1) false
    pairCalls [.setVolume "x" (1 / 2)] "audio-1" ["x", "xx"] pairPlan pairAsset planMerge_pair

/-- A merge replaces clips whose volume and speed were set after it was planned. -/
theorem applyMerge_of_adjusted :
    let s := blank.run pairCalls
    let later := (s.step (.planMerge "audio-1" ["x", "xx"])).2.run
      [.setVolume "x" (1 / 2), .setSpeed "xx" 2]
    (s.step (.planMerge "audio-1" ["x", "xx"])).1 = .ok (.plan pairPlan) ∧
      (later.step (.applyMerge pairPlan pairAsset)).1 = .ok (.merged "xxxx") ∧
      (later.step (.applyMerge pairPlan pairAsset)).2.timeline.clips.map Clip.id = ["xxxx"] ∧
      (¬ ∀ planned ∈ pairPlan.clips,
        (later.timeline.clip? planned.id).map Clip.volume = some planned.volume) ∧
      ¬ ∀ planned ∈ pairPlan.clips,
        (later.timeline.clip? planned.id).map Clip.speed = some planned.speed := by
  intro s later
  have hmerged : (later.applyMerge pairPlan pairAsset).1 = .ok "xxxx" := by decide +kernel
  refine ⟨planMerge_pair, ?_, by decide +kernel, by decide +kernel, by decide +kernel⟩
  simp only [step, step.answer, hmerged, Except.map]

/-- A track where two sounds have one id and one place; the index knows the last. -/
def doubledTrack : Track Rat :=
  ⟨"audio-1", .audio,
    [⟨"b", "audio-1", "media/first.wav", 0, 2, 0, .audio, 1, 1, 0, none⟩,
      ⟨"c", "audio-1", "media/c.wav", 3, 5, 0, .audio, 1, 1, 0, none⟩,
      ⟨"b", "audio-1", "media/last.wav", 0, 2, 0, .audio, 1, 1, 0, none⟩]⟩

/-- The plan to merge the last of the two sounds with the third. -/
def doubledPlan : MergePlan Rat :=
  let run := doubledTrack.clips.drop 1 |>.reverse
  ⟨"audio-1", .audio, run, 0, Timeline.mergeRequest doubledTrack run 0 "x"⟩

/-- Where ids are not distinct, a merge may replace another clip than the one that was planned. -/
theorem applyMerge_of_doubled :
    let s := start (.ofTracks "p" [doubledTrack]) .empty .standard .tally false
    let later := (s.step (.planMerge "audio-1" ["b", "c"])).2.run
      [.select "b" false, .deleteSelection]
    (s.step (.planMerge "audio-1" ["b", "c"])).1 = .ok (.plan doubledPlan) ∧
      (later.step (.applyMerge doubledPlan pairAsset)).1 = .ok (.merged "xx") ∧
      ¬ ∀ planned ∈ doubledPlan.clips,
        (later.timeline.clip? planned.id).map Clip.source = some planned.source := by
  intro s later
  have htrack : s.timeline.track? "audio-1" = some doubledTrack := by decide +kernel
  have hplan : (s.timeline.planMerge "audio-1" ["b", "c"] s.ids).1 = .ok doubledPlan :=
    Timeline.planMerge_of_sorted htrack (by decide +kernel) (by decide) (by decide +kernel)
      (by decide +kernel) (by decide +kernel) rfl (by decide +kernel)
  have hmerged : (later.applyMerge doubledPlan pairAsset).1 = .ok "xx" := by decide +kernel
  refine ⟨?_, ?_, by decide +kernel⟩
  · simp only [step, step.answer, planMerge, hplan, Except.map]
  · simp only [step, step.answer, hmerged, Except.map]

end Session

end Montage
