import Montage.Proofs.Faultless

/-!
# When the model is blamed

In a session on a new project a call does not blame the model, with one exception: a merge that passes
its checks, when the time that the rendering takes is lost in rounding where the merged clip starts.
-/

namespace Montage

variable {α : Type}

/-! ## Calls -/

namespace Session

/-- The answer blames the model, as a refusal or as the end of a drag. -/
def Blames (answer : Except (Refusal α) (Answer α)) : Prop :=
  ∃ refusal, refusal.category = .inconsistency ∧
    (answer = .error refusal ∨ answer = .ok (.dragEnd (some (.snappedBack refusal))))

theorem not_blames_ok {answer : Answer α}
    (h : ∀ reason, answer ≠ .dragEnd (some (.snappedBack reason))) :
    ¬ Blames (.ok answer : Except (Refusal α) (Answer α)) := by
  rintro ⟨refusal, _, hanswer | hanswer⟩
  · cases hanswer
  · exact h _ (Except.ok.inj hanswer)

theorem not_blames_error {refusal : Refusal α} (h : refusal.category = .validation) :
    ¬ Blames (.error refusal : Except (Refusal α) (Answer α)) := by
  rintro ⟨other, hother, hanswer | hanswer⟩
  · cases hanswer
    rw [h] at hother
    cases hother
  · cases hanswer

variable [Scalar α] {s : Session α} {audioTracks : Nat}

/-- A drag holds clips of a timeline that had the same tracks. -/
theorem Steady.release_faultless (h : s.Steady (Timeline.Twinned audioTracks)) {drag : Drag α}
    (hdrag : s.drag = some drag) {reason : Refusal α}
    (hrelease : drag.release s.timeline s.settings = .snappedBack reason) :
    reason.category = .validation := by
  obtain ⟨first, htwinned, _, _, ⟨closed, _, hheld⟩, _⟩ := h.drag drag hdrag
  refine Timeline.release_faultless (fun held hmem => ?_) hrelease
  rw [hheld] at hmem
  obtain ⟨clip, hclip, rfl⟩ := List.mem_map.1 hmem
  obtain ⟨track, htrack, hin⟩ := Timeline.mem_clips.1 (List.mem_filter.1 hclip).1
  rw [← Timeline.map_fst_layout, h.good.layout_eq, ← htwinned.layout_eq, Timeline.map_fst_layout,
    htwinned.housed track htrack clip hin]
  exact List.mem_map_of_mem htrack

variable {call : Call α}

theorem Refuses.faultless {refusal : Refusal α} {left : IdSupply}
    (hrefuses : s.Refuses call refusal left) (hordered : Scalar.Ordered α)
    (h : s.Steady (Timeline.Twinned audioTracks)) (hε : ¬ s.settings.tolerance < 0)
    (hcall : ∀ plan asset, call ≠ .applyMerge plan asset) : refusal.category = .validation := by
  have hconnected : s.timeline.Connected := h.good.paired.connected h.inStep
  cases hrefuses with
  | unknown => rfl
  | @place _ asset hint drop _ _ _ hplace =>
      exact Timeline.place_faultless hordered h.inStep h.unnamed hε asset hint drop _
        (congrArg Prod.fst hplace)
  | select hselect => exact hconnected.select_faultless _ _ _ _ hselect
  | press hselect => exact hconnected.select_faultless _ _ _ _ hselect
  | @split clip instant _ _ hsplit =>
      exact Timeline.split_faultless hordered h.inStep h.unnamed h.good.housed hconnected clip
        instant s.settings.tolerance _ (congrArg Prod.fst hsplit)
  | delete hdelete => exact hconnected.delete_faultless _ _ hdelete
  | setVolume hset => exact Timeline.setVolume_faultless _ _ _ hset
  | setSpeed hset => exact hconnected.setSpeed_faultless _ _ _ hset
  | planMerge hplan => exact Timeline.planMerge_faultless _ _ _ _ (congrArg Prod.fst hplan)
  | applyMerge => exact absurd rfl (hcall _ _)

theorem Outcome.not_blames {answer : Except (Refusal α) (Answer α)} {next : Session α}
    (hout : s.Outcome call answer next) (hordered : Scalar.Ordered α)
    (h : s.Steady (Timeline.Twinned audioTracks)) (hε : ¬ s.settings.tolerance < 0)
    (hcall : ∀ plan asset, call ≠ .applyMerge plan asset) : ¬ Blames answer := by
  have hconnected : s.timeline.Connected := h.good.paired.connected h.inStep
  cases hout with
  | refuse hrefuses => exact not_blames_error (hrefuses.faultless hordered h hε hcall)
  | slip _ hslip => exact not_blames_error (hconnected.start_faultless _ _ _ _ hslip)
  | snapBack _ hdrag hrelease =>
      have hreason := h.release_faultless hdrag hrelease
      rintro ⟨refusal, hrefusal, hanswer | hanswer⟩
      · cases hanswer
      · cases hanswer
        rw [hrefusal] at hreason
        cases hreason
  | edit hedits => cases hedits <;> exact not_blames_ok nofun
  | _ => exact not_blames_ok nofun

theorem applyMerge_blames_iff (h : s.timeline.InStep) (hids : s.timeline.Unnamed s.ids)
    {plan : MergePlan α} (htrack : plan.track ∈ s.timeline.tracks.map Track.id) (asset : Asset α) :
    Blames (s.step (.applyMerge plan asset)).1 ↔
      s.timeline.checkMerge plan asset s.settings = .ok () ∧
        plan.origin + asset.duration ≤ plan.origin := by
  have hanswer : (s.step (.applyMerge plan asset)).1 =
      (s.timeline.applyMerge plan asset s.settings s.ids).1.map fun merged => .merged merged.1 := by
    simp only [step, step.answer, applyMerge]
    split
    · rename_i hmerge
      rw [hmerge]
      rfl
    · rename_i hmerge
      rw [hmerge]
      rfl
  rw [hanswer]
  cases hcheck : s.timeline.checkMerge plan asset s.settings with
  | error refusal =>
      have hrefused : (s.timeline.applyMerge plan asset s.settings s.ids).1 = .error refusal := by
        simp only [Timeline.applyMerge, hcheck]
      rw [hrefused]
      refine iff_of_false ?_ (by simp)
      exact not_blames_error (Timeline.checkMerge_faultless htrack asset refusal hcheck)
  | ok =>
      have hmerge := Timeline.applyMerge_of_check h hids hcheck
      split at hmerge
      · rename_i hempty
        rw [hmerge]
        exact iff_of_true ⟨_, rfl, .inl rfl⟩ ⟨rfl, hempty⟩
      · rename_i hlong
        obtain ⟨next, hmerge⟩ := hmerge
        rw [hmerge]
        exact iff_of_false (not_blames_ok (by simp)) fun hboth => hlong hboth.2

/-- Of all calls, only a merge can blame the model, when it passes its checks and no time is left. -/
theorem step_blames_iff (hordered : Scalar.Ordered α)
    (h : s.Steady (Timeline.Twinned audioTracks)) (hε : ¬ s.settings.tolerance < 0)
    (call : Call α) (hcall : ∀ plan asset, call = .applyMerge plan asset →
      plan.track ∈ s.timeline.tracks.map Track.id) :
    Blames (s.step call).1 ↔ ∃ plan asset, call = .applyMerge plan asset ∧
      s.timeline.checkMerge plan asset s.settings = .ok () ∧
        plan.origin + asset.duration ≤ plan.origin := by
  by_cases hmerge : ∃ plan asset, call = .applyMerge plan asset
  · obtain ⟨plan, asset, rfl⟩ := hmerge
    rw [applyMerge_blames_iff h.inStep h.unnamed (hcall plan asset rfl) asset]
    constructor
    · intro hboth
      exact ⟨plan, asset, rfl, hboth⟩
    · rintro ⟨_, _, ⟨⟩, hboth⟩
      exact hboth
  · have hother (plan : MergePlan α) (asset : Asset α) : call ≠ .applyMerge plan asset :=
      fun heq => hmerge ⟨plan, asset, heq⟩
    exact iff_of_false ((s.step_outcome call).not_blames hordered h hε hother)
      fun ⟨plan, asset, heq, _⟩ => hother plan asset heq

/-! ## Runs -/

theorem run_settings (s : Session α) (calls : List (Call α)) :
    (s.run calls).settings = s.settings := by
  induction calls generalizing s with
  | nil => rfl
  | cons call calls ih => rw [run_cons, ih, step_settings]

/-- A plan that was made in a session is for a track that the session has. -/
theorem track_mem_of_own_plans (h : s.Steady (Timeline.Twinned audioTracks))
    {made : List (MergePlan α)}
    (hmade : ∀ plan ∈ made, plan.track ∈ (Timeline.standardLayout audioTracks).map Prod.fst)
    {calls : List (Call α)} {plan : MergePlan α} {asset : Asset α}
    (hcalls : AppliesOwnPlans made s (calls ++ [.applyMerge plan asset])) :
    plan.track ∈ (Timeline.standardLayout audioTracks).map Prod.fst := by
  induction calls generalizing s made with
  | nil => exact hmade plan (hcalls.1 plan asset rfl)
  | cons call calls ih =>
      refine ih ((step_advance s call fun _ _ _ => trivial).steady
        (Timeline.kept_twinned s.settings audioTracks) h) (fun plan hplan => ?_) hcalls.2
      rcases List.mem_append.1 hplan with hnew | hold
      · obtain ⟨track, htrack, hid, _⟩ := (planOf_of_mem_plansIn h.inStep call hnew).onTrack
        rw [← h.good.layout_eq, Timeline.map_fst_layout, ← hid]
        exact List.mem_map_of_mem htrack
      · exact hmade plan hold

/--
In a session on a new project, with settings that are accepted, the model is blamed if and only if a
merge passes all its checks and is given a rendering so short, or a place so far out, that the merged
clip would stop where it starts. No other call and no end of a drag ever blames the model.
-/
theorem run_blames_iff (project : String) (audioTracks : Nat) (library : Library Float)
    (settings : EditorSettings Float) (hsettings : settings.check = .ok ()) (ids : IdSupply)
    (hids : ids.Fresh fun _ => False) (observed : Bool) (calls : List (Call Float))
    (call : Call Float)
    (hcalls : AppliesOwnPlans [] (start (.standard project audioTracks) library settings ids
      observed) (calls ++ [call])) :
    let s := (start (.standard project audioTracks) library settings ids observed).run calls
    Blames (s.step call).1 ↔ ∃ plan asset, call = .applyMerge plan asset ∧
      s.timeline.checkMerge plan asset s.settings = .ok () ∧
        plan.origin + asset.duration ≤ plan.origin := by
  intro s
  have hstart : (start (.standard project audioTracks) library settings ids observed).Steady
      (Timeline.Twinned audioTracks) :=
    start_steady (Timeline.Twinned.standard project audioTracks)
      (Timeline.inStep_standard project audioTracks)
      (Timeline.unnamed_standard hids project audioTracks)
  have hsteady : s.Steady (Timeline.Twinned audioTracks) :=
    run_steady (Timeline.kept_twinned settings audioTracks) hstart calls
  have hsame : s.settings = settings := run_settings _ calls
  refine step_blames_iff Scalar.ordered_double hsteady ?_ call fun plan asset heq => ?_
  · rw [hsame]
    exact EditorSettings.tolerance_not_neg hsettings
  · rw [← Timeline.map_fst_layout, hsteady.good.layout_eq]
    exact track_mem_of_own_plans hstart (by simp) (heq ▸ hcalls)

/-- The standard settings, with their numbers written as doubles. -/
def doubleSettings : EditorSettings Float :=
  ⟨20, 15, 0.001, 1000, "media", 2⟩

/-- A session on a new project with one free audio track, in doubles. -/
def blankDouble : Session Float :=
  start (.standard "p" 1) .empty doubleSettings .tally false

/-- Two sounds are placed so far out that doubles lie sixteen seconds and more apart. -/
def farCalls : List (Call Float) :=
  [.placeAsset ⟨"a", "a.wav", "/a.wav", .audio, 1000⟩ none (.instant 1e17),
    .placeAsset ⟨"b", "b.wav", "/b.wav", .audio, 1000⟩ none (.instant 2e17),
    .planMerge "audio-1" ["x", "xx"]]

/-- The track of the two sounds. -/
def farTrack : Track Float :=
  ⟨"audio-1", .audio,
    [⟨"x", "audio-1", "media/a.wav", 1e17, 1e17 + 1000, 0, .audio, 1, 1, 0, none⟩,
      ⟨"xx", "audio-1", "media/b.wav", 2e17, 2e17 + 1000, 0, .audio, 1, 1, 0, none⟩]⟩

/-- The plan to merge the two sounds. -/
def farPlan : MergePlan Float :=
  ⟨"audio-1", .audio, farTrack.clips, 1e17,
    Timeline.mergeRequest farTrack farTrack.clips 1e17 "xxx"⟩

/-- A rendering of the given length. -/
def farAsset (seconds : Float) : Asset Float :=
  ⟨"m", "m.wav", "/m.wav", .audio, seconds⟩

theorem planMerge_far :
    ((blankDouble.run (farCalls.take 2)).step (.planMerge "audio-1" ["x", "xx"])).1 =
      .ok (.plan farPlan) := by
  let s := blankDouble.run (farCalls.take 2)
  have hplaced : (s.timeline.track? "audio-1", ["x", "xx"].map s.timeline.clip?, s.ids.next) =
      (some farTrack, farTrack.clips.map some, "xxx") := by decide +kernel
  obtain ⟨htrack, hclips, hnext⟩ := by simpa only [Prod.mk.injEq] using hplaced
  have hplan : (s.timeline.planMerge "audio-1" ["x", "xx"] s.ids).1 = .ok farPlan :=
    Timeline.planMerge_of_sorted htrack (by decide +kernel) (by decide) hclips (by decide +kernel)
      (by decide +kernel) rfl hnext
  simp only [step, step.answer, planMerge]
  rw [hplan]
  rfl

theorem farCalls_own (asset : Asset Float) :
    AppliesOwnPlans [] blankDouble (farCalls ++ [.applyMerge farPlan asset]) := by
  refine ⟨nofun, nofun, nofun, ?_, trivial⟩
  rintro _ _ ⟨⟩
  have hmade : plansIn ((blankDouble.run (farCalls.take 2)).step
      (.planMerge "audio-1" ["x", "xx"])).1 = [farPlan] := by
    rw [planMerge_far]
    rfl
  exact List.mem_append_left _ (hmade ▸ List.mem_singleton_self farPlan)

theorem run_blames_iff_far :
    doubleSettings.check = .ok () ∧ IdSupply.tally.Fresh (fun _ => False) ∧
      AppliesOwnPlans [] blankDouble (farCalls ++ [.applyMerge farPlan (farAsset 2000)]) ∧
      ¬ Blames ((blankDouble.run farCalls).step (.applyMerge farPlan (farAsset 2000))).1 := by
  have hsettings : doubleSettings.check = .ok () := by decide +kernel
  refine ⟨hsettings, IdSupply.fresh_tally, farCalls_own _, ?_⟩
  intro hblames
  obtain ⟨_, _, ⟨⟩, _, hempty⟩ := (run_blames_iff "p" 1 .empty doubleSettings hsettings .tally
    IdSupply.fresh_tally false farCalls (.applyMerge farPlan (farAsset 2000)) (farCalls_own _)).1
      hblames
  exact absurd hempty (by decide +kernel)

/-- A rendering of half a second is only too short, but the model is blamed. -/
theorem applyMerge_far_blames :
    doubleSettings.check = .ok () ∧ IdSupply.tally.Fresh (fun _ => False) ∧
      AppliesOwnPlans [] blankDouble (farCalls ++ [.applyMerge farPlan (farAsset 0.5)]) ∧
      ((blankDouble.run farCalls).step (.applyMerge farPlan (farAsset 0.5))).1 =
        .error (.inconsistent (.mergeRejected (.emptyClip "xxxx"))) ∧
      Blames ((blankDouble.run farCalls).step (.applyMerge farPlan (farAsset 0.5))).1 := by
  have hmerge : ((blankDouble.run farCalls).applyMerge farPlan (farAsset 0.5)).1 =
      .error (.inconsistent (.mergeRejected (.emptyClip "xxxx"))) := by
    decide +kernel
  have hanswer : ((blankDouble.run farCalls).step (.applyMerge farPlan (farAsset 0.5))).1 =
      .error (.inconsistent (.mergeRejected (.emptyClip "xxxx"))) := by
    simp only [step, step.answer, hmerge, Except.map]
  exact ⟨by decide +kernel, IdSupply.fresh_tally, farCalls_own _, hanswer, _, rfl, .inl hanswer⟩

end Session

end Montage
