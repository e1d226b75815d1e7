import Mathlib.Algebra.Order.Field.Rat
import Mathlib.Tactic.Linarith
import Montage.Proofs.Layout
import Montage.Proofs.Runs

/-!
# What a release moves

A release puts a dragged clip where it stood when the pointer went down, plus the shift. No edit
moves a start meanwhile, but a split moves an end: the clips move rigidly exactly when every dragged
clip still ends where it did.
-/

namespace Montage

variable {α : Type}

/-! ## Rigid moves -/

namespace Timeline

/-- Every clip is found again as it was, or later by the shift. -/
def MovedRigidly [Scalar α] (before after : Timeline α) (delta : α) : Prop :=
  ∀ clip ∈ before.clips, ∃ moved ∈ after.clips, moved.id = clip.id ∧
    (moved = clip ∨ moved = { clip with start := clip.start + delta, stop := clip.stop + delta })

/-- No clip that is found again has become longer or shorter. -/
def KeepsDurations [Scalar α] (before after : Timeline α) : Prop :=
  ∀ clip ∈ before.clips, ∀ moved ∈ after.clips, moved.id = clip.id →
    moved.duration = clip.duration

end Timeline

/-- Every dragged clip ends where it did when the pointer went down. -/
def Drag.Uncut (d : Drag α) (t : Timeline α) : Prop :=
  ∀ held ∈ d.held, ∀ clip, t.clip? held.clip = some clip → clip.stop = held.stop

namespace Timeline

/--
What becomes of clips when a drag is released: a dragged one starts later by the shift and ends by
the shift after where it ended at first, and the others are left alone.
-/
structure Released [Scalar α] (t next : Timeline α) (d : Drag α) (delta : α) : Prop where
  inStep : next.InStep
  dragged : ∀ held ∈ d.held, ∀ clip ∈ t.clips, clip.id = held.clip →
    { clip with start := clip.start + delta, stop := held.stop + delta } ∈ next.clips
  left : ∀ clip ∈ t.clips, (∀ held ∈ d.held, held.clip ≠ clip.id) → clip ∈ next.clips

theorem release_released [Scalar α] {settings : EditorSettings α} {first t next : Timeline α}
    {d : Drag α} {delta : α} (hfirst : first.InStep) (h : t.InStep) (hheld : d.HeldFrom first)
    (hpersist : Persist Resumes first t) (hrelease : d.release t settings = .moved next delta) :
    t.Released next d delta := by
  obtain ⟨_, _, hrevision⟩ := release_revision h (hheld.nodup_ids hfirst) hrelease
  obtain ⟨closed, hholds⟩ := hheld.holds hfirst
  refine ⟨hrevision.inStep, fun held hin clip hclip hid => ?_, fun clip hclip hfree => ?_⟩
  · obtain ⟨old, hold, hclosed, rfl⟩ := (hholds.mem_held held).1 hin
    have hmoved := hholds.moved delta old hold clip hclosed hid
    rw [← (hpersist old hold clip hclip hid).2] at hmoved
    exact hrevision.mem_clips.2 (.inl ⟨clip, hclip, rfl, hmoved⟩)
  · have hout : clip.id ∉ closed := by
      intro hin
      obtain ⟨held, hheldMem, hid⟩ := List.mem_map.1 ((hholds.mem_ids clip.id).2 hin)
      exact hfree held hheldMem hid
    exact hrevision.mem_clips.2 (.inl ⟨clip, hclip, rfl, hholds.left delta clip hout⟩)

namespace Released

variable {t next : Timeline Rat} {d : Drag Rat} {delta : Rat}

theorem movedRigidly_iff (h : t.Released next d delta) (hstep : t.InStep) (hdelta : delta ≠ 0) :
    t.MovedRigidly next delta ↔ d.Uncut t := by
  constructor
  · intro hrigid held hheld clip hfound
    obtain ⟨hclip, hid⟩ := hstep.clip?_eq_some_iff.1 hfound
    obtain ⟨moved, hmoved, hmovedId, hcases⟩ := hrigid clip hclip
    have heq := h.inStep.eq_of_id_eq hmoved (h.dragged held hheld clip hclip hid) hmovedId
    rcases hcases with hsame | hshift
    · -- The clip starts elsewhere, so it is not as it was.
      have hstart := congrArg Clip.start (hsame.symm.trans heq)
      simp only at hstart
      exact absurd (by linarith) hdelta
    · have hstop := congrArg Clip.stop (hshift.symm.trans heq)
      simp only at hstop
      linarith
  · intro huncut clip hclip
    by_cases hheld : ∃ held ∈ d.held, held.clip = clip.id
    · obtain ⟨held, hheld, hid⟩ := hheld
      have hstop := huncut held hheld clip (hid ▸ hstep.clip?_id hclip)
      exact ⟨_, h.dragged held hheld clip hclip hid.symm, rfl, .inr (by rw [hstop])⟩
    · exact ⟨clip, h.left clip hclip fun held hmem hid => hheld ⟨held, hmem, hid⟩, rfl, .inl rfl⟩

theorem keepsDurations_iff (h : t.Released next d delta) (hstep : t.InStep) :
    t.KeepsDurations next ↔ d.Uncut t := by
  constructor
  · intro hkeeps held hheld clip hfound
    obtain ⟨hclip, hid⟩ := hstep.clip?_eq_some_iff.1 hfound
    have hduration := hkeeps clip hclip _ (h.dragged held hheld clip hclip hid) rfl
    simp only [Clip.duration] at hduration
    linarith
  · intro huncut clip hclip moved hmoved hid
    by_cases hheld : ∃ held ∈ d.held, held.clip = clip.id
    · obtain ⟨held, hheld, hheldId⟩ := hheld
      have hstop := huncut held hheld clip (hheldId ▸ hstep.clip?_id hclip)
      rw [h.inStep.eq_of_id_eq hmoved (h.dragged held hheld clip hclip hheldId.symm) hid]
      simp only [Clip.duration, hstop]
      linarith
    · have hleft := h.left clip hclip fun held hmem hheldId => hheld ⟨held, hmem, hheldId⟩
      rw [h.inStep.eq_of_id_eq hmoved hleft hid]

end Released

end Timeline

/-! ## Releases of a session -/

namespace Session

theorem Outcome.of_moved {s next : Session Rat} {call : Call Rat} {drag : Drag Rat} {delta : Rat}
    (hout : s.Outcome call (.ok (.dragEnd (some (.moved delta)))) next)
    (hdrag : s.drag = some drag) :
    ∃ moved, drag.release s.timeline s.settings = .moved moved delta ∧
      next.timeline = if delta = 0 then s.timeline else moved := by
  cases hout with
  | @drop _ _ moved _ _ hheld hrelease hstill =>
      cases hdrag.symm.trans hheld
      exact ⟨moved, hrelease, by rw [if_pos (by simpa using hstill)]⟩
  | @move _ _ moved _ _ hheld hrelease hmoves =>
      cases hdrag.symm.trans hheld
      exact ⟨moved, hrelease, by rw [if_neg (by simpa using hmoves)]; rfl⟩
  | edit hedits => cases hedits

theorem step_release_eq {s : Session Rat} {call : Call Rat}
    (hcall : call = .pointerUp ∨ call = .pointerLeave) :
    s.step call = (.ok (.dragEnd s.pointerUp.1), s.pointerUp.2) := by
  rcases hcall with rfl | rfl <;> rfl

/--
A release that is answered with a shift moves clips rigidly, and keeps how long they play, exactly
when the shift is zero or no dragged clip has been cut since the pointer went down.
-/
theorem release_rigid_iff (t : Timeline Rat) (hindex : t.index = .ofTracks t.tracks)
    (hnodup : (t.clips.map Clip.id).Nodup) (library : Library Rat)
    (settings : EditorSettings Rat) (ids : IdSupply) (hids : t.Unnamed ids) (observed : Bool)
    (calls : List (Call Rat)) (call : Call Rat)
    (hcall : call = .pointerUp ∨ call = .pointerLeave) (drag : Drag Rat) (delta : Rat) :
    let s := (start t library settings ids observed).run calls
    s.drag = some drag → (s.step call).1 = .ok (.dragEnd (some (.moved delta))) →
      (s.timeline.MovedRigidly (s.step call).2.timeline delta ↔
        delta = 0 ∨ drag.Uncut s.timeline) ∧
      (s.timeline.KeepsDurations (s.step call).2.timeline ↔
        delta = 0 ∨ drag.Uncut s.timeline) := by
  intro s hdrag hanswer
  have hsteady : s.Steady fun _ => True := run_steady (.true settings)
    (start_steady trivial (Timeline.inStep_of_index_eq hindex hnodup) hids) calls
  obtain ⟨first, _, hfirst, _, hheld, hpersist⟩ := hsteady.drag drag hdrag
  have hout := s.step_outcome call
  rw [step_release_eq hcall] at hanswer hout ⊢
  rw [hanswer] at hout
  dsimp only at hout
  obtain ⟨next, hrelease, htimeline⟩ := hout.of_moved hdrag
  have hreleased := Timeline.release_released hfirst hsteady.inStep hheld hpersist hrelease
  simp only [htimeline]
  by_cases hzero : delta = 0
  · simp only [hzero, if_true, true_or, iff_true]
    refine ⟨fun clip hclip => ⟨clip, hclip, rfl, .inl rfl⟩, fun clip hclip moved hmoved hid => ?_⟩
    rw [hsteady.inStep.eq_of_id_eq hmoved hclip hid]
  · simp only [hzero, if_false, false_or]
    exact ⟨hreleased.movedRigidly_iff hsteady.inStep hzero,
      hreleased.keepsDurations_iff hsteady.inStep⟩

/-- A sound is placed and dragged by twenty seconds. -/
def dragCalls : List (Call Rat) :=
  [.placeAsset ⟨"a", "a.wav", "/a.wav", .audio, 10⟩ none (.instant 0), .pointerDown "x" 0,
    .pointerMove 400]

theorem release_rigid_iff_drag :
    let s := blank.run dragCalls
    let drag : Drag Rat := ⟨[⟨"x", "audio-1", 0, 10⟩], 0, 20⟩
    s.drag = some drag ∧ (s.step .pointerUp).1 = .ok (.dragEnd (some (.moved 20))) ∧
      drag.Uncut s.timeline ∧
      (s.timeline.MovedRigidly (s.step .pointerUp).2.timeline 20 ↔
        (20 : Rat) = 0 ∨ drag.Uncut s.timeline) := by
  intro s drag
  have hids : (Timeline.standard (α := Rat) "p" 1).Unnamed .tally :=
    Timeline.unnamed_standard IdSupply.fresh_tally "p" 1
  have hdrag : s.drag = some drag := by decide +kernel
  have hmoved : s.pointerUp.1 = some (.moved 20) := by decide +kernel
  have hanswer : (s.step .pointerUp).1 = .ok (.dragEnd (some (.moved 20))) := by
    rw [step_release_eq (.inl rfl), hmoved]
  have huncut : drag.Uncut s.timeline := by
    intro held hheld clip hclip
    obtain rfl := List.mem_singleton.1 hheld
    have hfound : (s.timeline.clip? "x").map Clip.stop = some 10 := by decide +kernel
    rw [hclip] at hfound
    exact Option.some.inj hfound
  exact ⟨hdrag, hanswer, huncut, (release_rigid_iff (.standard "p" 1) rfl
    (by simp [Timeline.clips_standard]) .empty .standard .tally hids false dragCalls .pointerUp
    (.inl rfl) drag 20 hdrag hanswer).1⟩

/-- A sound is placed, taken hold of, cut in the middle and dragged by twenty seconds. -/
def cutCalls : List (Call Rat) :=
  [.placeAsset ⟨"a", "a.wav", "/a.wav", .audio, 10⟩ none (.instant 0), .pointerDown "x" 0,
    .split "x" 5, .pointerMove 400]

/-- The release of a sound that was cut gives its left half the length of the whole. -/
theorem release_of_cut_not_rigid :
    let s := blank.run cutCalls
    (s.step .pointerUp).1 = .ok (.dragEnd (some (.moved 20))) ∧
      s.timeline.clips.map (fun clip => (clip.id, clip.start, clip.stop)) =
        [("x", 0, 5), ("xx", 5, 10)] ∧
      (s.step .pointerUp).2.timeline.clips.map (fun clip => (clip.id, clip.start, clip.stop)) =
        [("x", 20, 30), ("xx", 5, 10)] ∧
      ¬ s.timeline.MovedRigidly (s.step .pointerUp).2.timeline 20 ∧
      ¬ s.timeline.KeepsDurations (s.step .pointerUp).2.timeline := by
  intro s
  have hmoved : s.pointerUp.1 = some (.moved 20) := by decide +kernel
  have hrigid : ¬ ∀ clip ∈ s.timeline.clips, ∃ moved ∈ (s.step .pointerUp).2.timeline.clips,
      moved.id = clip.id ∧ (moved = clip ∨
        moved = { clip with start := clip.start + 20, stop := clip.stop + 20 }) := by
    decide +kernel
  have hkeeps : ¬ ∀ clip ∈ s.timeline.clips, ∀ moved ∈ (s.step .pointerUp).2.timeline.clips,
      moved.id = clip.id → moved.duration = clip.duration := by
    decide +kernel
  exact ⟨by rw [step_release_eq (.inl rfl), hmoved], by decide +kernel, by decide +kernel, hrigid,
    hkeeps⟩

end Session

end Montage
