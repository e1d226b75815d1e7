import Montage.Proofs.Commits

/-!
# Selections stay closed

Whatever links a timeline has, a selection holds clips that are there, and with a clip what it links
to. A click closes the selection that it makes, and every timeline that is committed has what is left
of the selection closed again, or else nothing selected.
-/

namespace Montage

variable {α : Type}

namespace Timeline

/-! ## Selections that calls make -/

theorem linkClosed_empty (t : Timeline α) : t.LinkClosed ∅ := by
  intro id hid
  simp at hid

/-- A click that succeeds makes a closed selection, additive or not. -/
theorem select_linkClosed {t : Timeline α} (hown : t.FindsById) {selection next : ClipSet}
    {clip : ClipId} {additive : Bool} (hselect : t.select selection clip additive = .ok next) :
    t.LinkClosed next := by
  have hclosure {seeds : List ClipId} {closed : ClipSet}
      (h : t.linkClosure seeds = .ok closed) : t.LinkClosed closed :=
    (linkClosure_collected hown h).1
  unfold select at hselect
  cases hclip : t.clip? clip with
  | none =>
      simp [hclip, bind, Except.bind, throw, throwThe, MonadExceptOf.throw] at hselect
  | some found =>
      simp only [hclip, Option.isNone_some, Bool.false_eq_true, if_false] at hselect
      split at hselect
      · exact hclosure hselect
      split at hselect
      · cases hgroup : t.linkClosure [clip] with
        | error refusal =>
            rw [hgroup] at hselect
            cases hselect
        | ok group =>
            rw [hgroup] at hselect
            exact hclosure hselect
      · exact hclosure hselect

/-- What is left of a selection is closed, and if that cannot be, nothing is left. -/
theorem retained_linkClosed {t : Timeline α} (hown : t.FindsById) (selection : ClipSet) :
    t.LinkClosed ((t.retainSelection selection).toOption.getD ∅) := by
  cases hretain : t.retainSelection selection with
  | error refusal => exact linkClosed_empty t
  | ok left => exact (linkClosure_collected hown hretain).1

end Timeline

/-! ## What a call does to the selection -/

namespace Session

/-- What becomes of the selection: it stays, a closed one takes its place, or a commit prunes it. -/
inductive Reselects (s next : Session α) : Prop
  | stays (htimeline : next.timeline = s.timeline) (hselection : next.selection = s.selection)
  | chosen (htimeline : next.timeline = s.timeline)
      (hclosed : s.timeline.LinkClosed next.selection)
  | pruned (hselection : next.selection =
      (next.timeline.retainSelection s.selection).toOption.getD ∅)

theorem Reselects.linkClosed {s next : Session α} (hchange : s.Reselects next)
    (hown : next.timeline.FindsById) (h : s.timeline.LinkClosed s.selection) :
    next.timeline.LinkClosed next.selection := by
  cases hchange with
  | stays htimeline hselection =>
      rw [htimeline, hselection]
      exact h
  | chosen htimeline hclosed =>
      rw [htimeline]
      exact hclosed
  | pruned hselection =>
      rw [hselection]
      exact Timeline.retained_linkClosed hown s.selection

variable [Scalar α] {s next : Session α} {call : Call α} {answer : Except (Refusal α) (Answer α)}

omit [Scalar α] in
/-- The selection that is dragged stays, or a click has made it. -/
theorem Grasps.reselects (hown : s.timeline.FindsById) {clip : ClipId} {selection : ClipSet}
    (h : s.Grasps clip selection) (drag : Option (Drag α)) :
    s.Reselects { s with selection, drag } := by
  cases h with
  | held => exact .stays rfl rfl
  | clicked hselect => exact .chosen rfl (Timeline.select_linkClosed hown hselect)

theorem Outcome.reselects (h : s.Outcome call answer next) (hown : s.timeline.FindsById) :
    s.Reselects next := by
  cases h with
  | slip hgrasp => exact hgrasp.reselects hown s.drag
  | press hgrasp => exact hgrasp.reselects hown _
  | select hselect => exact .chosen rfl (Timeline.select_linkClosed hown hselect)
  | clear => exact .chosen rfl (Timeline.linkClosed_empty s.timeline)
  | move => exact .pruned rfl
  | edit => exact .pruned rfl
  | _ => exact .stays rfl rfl

/-! ## Runs -/

theorem run_linkClosed (hmade : s.timeline.Made) (h : s.timeline.LinkClosed s.selection)
    (calls : List (Call α)) : (s.run calls).timeline.LinkClosed (s.run calls).selection := by
  induction calls generalizing s with
  | nil => exact h
  | cons call calls ih =>
      have hnext := step_made hmade call
      rw [run_cons]
      exact ih hnext (((s.step_outcome call).reselects hmade.truthful.findsById).linkClosed
        hnext.truthful.findsById h)

/--
Whatever timeline a session begins with, and whatever calls are made: a selected id is a clip's, and
what that clip links to is selected.
-/
theorem run_selection_closed (t : Timeline α) (hmade : t.Made) (library : Library α)
    (settings : EditorSettings α) (ids : IdSupply) (observed : Bool) (calls : List (Call α)) :
    let now := (start t library settings ids observed).run calls
    ∀ id ∈ now.selection, ∃ clip, now.timeline.clip? id = some clip ∧ clip.id = id ∧
      ∀ link, clip.link = some link → link ∈ now.selection := by
  intro now id hid
  have hnow : now.timeline.Made := run_made hmade calls
  have hclosed : now.timeline.LinkClosed now.selection :=
    run_linkClosed hmade (Timeline.linkClosed_empty t) calls
  obtain ⟨clip, hclip, hlinks⟩ := hclosed id hid
  exact ⟨clip, hclip, hnow.truthful.findsById id clip hclip, hlinks⟩

/-- A chain of links that ends in a circle, and a clip of which the link leads nowhere. -/
def chainedTrack : Track Rat :=
  ⟨"audio-1", .audio,
    [⟨"a", "audio-1", "media/a.wav", 0, 2, 0, .audio, 1, 1, 0, some "b"⟩,
      ⟨"b", "audio-1", "media/b.wav", 3, 5, 0, .audio, 1, 1, 0, some "c"⟩,
      ⟨"c", "audio-1", "media/c.wav", 6, 8, 0, .audio, 1, 1, 0, some "b"⟩,
      ⟨"d", "audio-1", "media/d.wav", 9, 11, 0, .audio, 1, 1, 0, some "gone"⟩]⟩

/-- The chain is selected, a click on the broken clip is refused, and the chain is moved. -/
def chainedCalls : List (Call Rat) :=
  [.select "a" false, .select "d" true, .pointerDown "b" 0, .pointerMove 400, .pointerUp]

theorem run_selection_closed_chained :
    let t := Timeline.ofTracks "p" [chainedTrack]
    let now := (start t .empty .standard .tally false).run chainedCalls
    t.Made ∧ now.revision = 1 ∧ now.selection.toList = ["a", "b", "c"] ∧
      ∀ id ∈ now.selection, ∃ clip, now.timeline.clip? id = some clip ∧ clip.id = id ∧
        ∀ link, clip.link = some link → link ∈ now.selection := by
  intro t now
  have hmade : t.Made := Timeline.made_of_index_eq rfl
  exact ⟨hmade, by decide +kernel, by decide +kernel,
    run_selection_closed t hmade .empty .standard .tally false chainedCalls⟩

end Session

end Montage
