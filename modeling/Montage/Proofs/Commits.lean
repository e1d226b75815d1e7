import Montage.Proofs.Closure
import Montage.Proofs.Layout
import Montage.Proofs.Made
import Montage.Proofs.Runs

/-!
# Calls that commit, and calls that are refused

A call commits one timeline, which is noted once under the next revision, or none. A call that is
refused leaves the session as it is, on any timeline whatever: what the pointer selects when it
goes down is closed under links, and therefore can be dragged.
-/

namespace Montage

variable {α : Type}

namespace Timeline

/-! ## Closures of closed sets -/

theorem Truthful.findsById {t : Timeline α} (h : t.Truthful) : t.FindsById := by
  intro id clip hclip
  simp only [clip?, Option.bind_eq_bind, Option.bind_eq_some_iff] at hclip
  obtain ⟨place, hplace, hat⟩ := hclip
  obtain ⟨found, hfound, hid⟩ := h id place hplace
  rw [hat] at hfound
  cases hfound
  exact hid

theorem LinkClosed.linkClosure_ok {t : Timeline α} {ids : ClipSet} (h : t.LinkClosed ids) :
    ∃ closed, t.linkClosure ids.toList = .ok closed :=
  h.linksStay.linkClosure_ok fun _ hid => Std.ExtTreeSet.mem_toList.1 hid

/-- A plain click that succeeds selects the clip, in a closed selection. -/
theorem select_spec {t : Timeline α} (hown : t.FindsById) {selection next : ClipSet}
    {clip : ClipId} (hselect : t.select selection clip false = .ok next) :
    (t.clip? clip).isSome ∧ clip ∈ next ∧ t.LinkClosed next := by
  unfold select at hselect
  cases hclip : t.clip? clip with
  | none =>
      simp [hclip, bind, Except.bind, throw, throwThe, MonadExceptOf.throw] at hselect
  | some found =>
      simp only [hclip, Option.isNone_some, Bool.not_false, if_true] at hselect
      obtain ⟨hclosed, hseeds⟩ := linkClosure_collected hown hselect
      exact ⟨rfl, hseeds clip (List.mem_singleton_self _) (by simp [hclip]), hclosed⟩

/-- A drag can begin at any clip of a closed selection. -/
theorem LinkClosed.start_ok [Scalar α] {t : Timeline α} {selection : ClipSet}
    (h : t.LinkClosed selection) {clip : ClipId} (hclip : (t.clip? clip).isSome)
    (hmem : clip ∈ selection) (pointer : α) :
    ∃ drag, Drag.start t selection clip pointer = .ok drag := by
  obtain ⟨closed, hclosure⟩ := h.linkClosure_ok
  obtain ⟨found, hfound⟩ := Option.isSome_iff_exists.1 hclip
  have hcontains : selection.contains clip = true := Std.ExtTreeSet.mem_iff_contains.1 hmem
  unfold Drag.start
  rw [hfound, hcontains, hclosure]
  exact ⟨_, rfl⟩

theorem split_rights_ne_nil [Scalar α] {t next : Timeline α} {id : ClipId} {instant ε : α}
    {ids left : IdSupply} {rights : List ClipId}
    (hsplit : t.split id instant ε ids = (.ok (some (rights, next)), left)) : rights ≠ [] := by
  obtain ⟨clips, _, hne, _, rfl, _⟩ := split_spec hsplit
  match clips, hne with
  | [_], _ => simp [rightHalves]
  | _ :: _ :: _, _ => simp [rightHalves]

end Timeline

/-! ## Which calls commit -/

/-- Whether a drag ended without a clip moving. -/
def DragEnd.isStill [Scalar α] : DragEnd α → Bool
  | .moved delta => delta == 0
  | .snappedBack _ => true

/-- Whether a call with the given answer makes a new timeline the present one. -/
def Call.commits [Scalar α] : Call α → Except (Refusal α) (Answer α) → Bool
  | .place _ _ _, .ok _ | .placeAsset _ _ _, .ok _ => true
  | .setVolume _ _, .ok _ | .setSpeed _ _, .ok _ | .applyMerge _ _, .ok _ => true
  | .split _ _, .ok (.rights ids) | .deleteSelection, .ok (.removed ids) => !ids.isEmpty
  | .pointerUp, .ok (.dragEnd (some how)) | .pointerLeave, .ok (.dragEnd (some how)) => !how.isStill
  | _, _ => false

theorem Call.commits_error [Scalar α] (call : Call α) (refusal : Refusal α) :
    call.commits (.error refusal) = false := by
  cases call <;> rfl

theorem Call.Releases.commits_eq [Scalar α] {call : Call α} (h : call.Releases)
    (how : DragEnd α) : call.commits (.ok (.dragEnd (some how))) = !how.isStill := by
  cases h <;> rfl

namespace Session

variable [Scalar α]

/-- The timelines that the calls commit, in their order. -/
def committed (s : Session α) : List (Call α) → List (Timeline α)
  | [] => []
  | call :: calls =>
      let (answer, next) := s.step call
      (if call.commits answer then [next.timeline] else []) ++ next.committed calls

/-- What an observed session has to show for a call, which has committed a timeline or not. -/
inductive Noted (s next : Session α) : Bool → Prop
  | none (hobserved : next.observed = s.observed) (htimeline : next.timeline = s.timeline)
      (hrevision : next.revision = s.revision) (houtbox : next.outbox = s.outbox) :
      Noted s next false
  | one (hobserved : next.observed = s.observed) (hrevision : next.revision = s.revision + 1)
      (houtbox : next.outbox = s.outbox ++ [⟨next.revision, next.timeline⟩]) : Noted s next true

variable {s : Session α}

theorem Edits.commits_eq_true {call : Call α} {answer : Answer α} {library : Library α}
    {next : Timeline α} {left : IdSupply} (h : s.Edits call answer library next left) :
    call.commits (.ok answer) = true := by
  cases h with
  | place hcall => cases hcall <;> rfl
  | split hsplit =>
      have hrights := List.isEmpty_eq_false_iff.2 (Timeline.split_rights_ne_nil hsplit)
      simp only [Call.commits, hrights, Bool.not_false]
  | delete _ hsome => simp only [Call.commits, hsome, Bool.not_false]
  | setVolume => rfl
  | setSpeed => rfl
  | applyMerge => rfl

omit [Scalar α] in
theorem commit_noted (h : s.observed = true) (next : Timeline α) (library : Library α)
    (ids : IdSupply) (drag : Option (Drag α)) :
    s.Noted ({ s with library, ids, drag }.commit next) true := by
  refine .one rfl rfl ?_
  simp [commit, h]

variable {call : Call α} {answer : Except (Refusal α) (Answer α)} {next : Session α}

theorem Outcome.noted (hout : s.Outcome call answer next) (h : s.observed = true) :
    s.Noted next (call.commits answer) := by
  cases hout with
  | refuse =>
      rw [Call.commits_error]
      exact .none rfl rfl rfl rfl
  | lift hcall => cases hcall <;> exact .none rfl rfl rfl rfl
  | snapBack hcall =>
      rw [hcall.commits_eq]
      exact .none rfl rfl rfl rfl
  | drop hcall _ _ hstill =>
      rw [hcall.commits_eq, DragEnd.isStill, hstill]
      exact .none rfl rfl rfl rfl
  | move hcall _ _ hmoves =>
      rw [hcall.commits_eq, DragEnd.isStill, hmoves]
      exact commit_noted h _ _ _ _
  | edit hedits =>
      rw [hedits.commits_eq_true]
      exact commit_noted h _ _ _ _
  | _ => exact .none rfl rfl rfl rfl

/-- A call commits one timeline, which is noted, or none. -/
theorem step_noted (h : s.observed = true) (call : Call α) :
    s.Noted (s.step call).2 (call.commits (s.step call).1) :=
  (s.step_outcome call).noted h

/-! ## Refused calls -/

/--
A call that is refused leaves the session as it is, but for ids that are spent: what the pointer
selects when it goes down can be dragged, so that a press fails only with its click.
-/
theorem Outcome.exists_skip_of_error {refusal : Refusal α}
    (hout : s.Outcome call (.error refusal) next)
    (h : ∀ clip pointer, call = .pointerDown clip pointer → s.timeline.Truthful) :
    ∃ count, next = { s with ids := s.ids.skip count } := by
  cases hout with
  | refuse hrefuses =>
      obtain ⟨count, rfl⟩ := hrefuses.exists_skip
      exact ⟨count, rfl⟩
  | @slip _ pointer _ _ hgrasp hslip =>
      cases hgrasp with
      | held => exact ⟨0, rfl⟩
      | clicked hselect =>
          obtain ⟨hclip, hmem, hclosed⟩ := Timeline.select_spec (h _ _ rfl).findsById hselect
          obtain ⟨drag, hstart⟩ := hclosed.start_ok hclip hmem pointer
          rw [hslip] at hstart
          cases hstart

theorem applyMerge_spares {plan : MergePlan α} {asset : Asset α} {refusal : Refusal α}
    (hrefused : (s.applyMerge plan asset).1 = .error refusal) :
    ∃ count, (s.applyMerge plan asset).2 = { s with ids := s.ids.skip count } := by
  have hout := s.applyMerge_outcome plan asset
  rw [hrefused] at hout
  exact hout.exists_skip_of_error nofun

/-! ## Releases that move nothing -/

theorem Outcome.of_isStill {how : DragEnd α}
    (hout : s.Outcome call (.ok (.dragEnd (some how))) next) (hstill : how.isStill = true) :
    next = { s with drag := none } := by
  cases hout with
  | snapBack => rfl
  | drop => rfl
  | move _ _ _ hmoves =>
      rw [DragEnd.isStill, hmoves] at hstill
      cases hstill
  | edit hedits => cases hedits

/-! ## Runs -/

/-- The outbox grows by the committed timelines, under the revisions that follow. -/
theorem run_noted (h : s.observed = true) (calls : List (Call α)) :
    (s.run calls).outbox = s.outbox ++
        (s.committed calls).mapIdx (fun i next => ⟨s.revision + i + 1, next⟩) ∧
      (s.run calls).revision = s.revision + (s.committed calls).length ∧
      (s.run calls).timeline = (s.committed calls).getLast?.getD s.timeline := by
  induction calls generalizing s with
  | nil => simp [run, committed]
  | cons call calls ih =>
      rw [run_cons]
      have hnoted := step_noted h call
      simp only [committed]
      cases hcommits : call.commits (s.step call).1 with
      | false =>
          rw [hcommits] at hnoted
          cases hnoted with
          | none hobserved htimeline hrevision houtbox =>
              obtain ⟨hbox, hcount, hlast⟩ := ih (hobserved.trans h)
              rw [hbox, hcount, hlast, houtbox, hrevision, htimeline]
              simp
      | true =>
          rw [hcommits] at hnoted
          cases hnoted with
          | one hobserved hrevision houtbox =>
              obtain ⟨hbox, hcount, hlast⟩ := ih (hobserved.trans h)
              rw [hbox, hcount, hlast, houtbox, hrevision]
              refine ⟨?_, ?_, ?_⟩
              · simp [List.mapIdx_cons, Nat.add_assoc, Nat.add_comm, Nat.add_left_comm]
              · simp only [if_true, List.length_append, List.length_singleton]
                omega
              · cases hrest : (s.step call).2.committed calls <;> simp [List.getLast?_cons]

/--
Whatever timeline a session begins with, and whatever calls are made: a call that is refused changes
nothing, a release that moves nothing only ends the drag, and the outbox holds the timelines that
calls committed, numbered from one, the present timeline last.
-/
theorem run_all_or_nothing (t : Timeline α) (hmade : t.Made) (library : Library α)
    (settings : EditorSettings α) (ids : IdSupply) (calls : List (Call α)) :
    let now := (start t library settings ids true).run calls
    let history := (start t library settings ids true).committed calls
    (∀ call refusal, (now.step call).1 = .error refusal →
        ∃ count, (now.step call).2 = { now with ids := now.ids.skip count }) ∧
      (∀ call how, (now.step call).1 = .ok (.dragEnd (some how)) → how.isStill = true →
        (now.step call).2 = { now with drag := none }) ∧
      now.outbox = history.mapIdx (fun i next => ⟨i + 1, next⟩) ∧
      now.revision = history.length ∧ now.timeline = history.getLast?.getD t := by
  intro now history
  have hnow : now.timeline.Made := run_made hmade calls
  obtain ⟨houtbox, hrevision, htimeline⟩ :=
    run_noted (s := start t library settings ids true) rfl calls
  have hempty : (start t library settings ids true).outbox = [] := rfl
  have hzero : (start t library settings ids true).revision = 0 := rfl
  simp only [hempty, hzero, List.nil_append, Nat.zero_add] at houtbox hrevision
  refine ⟨fun call refusal hrefused => ?_, fun call how hanswer hstill => ?_, houtbox, hrevision,
    htimeline⟩
  · have hout := now.step_outcome call
    rw [hrefused] at hout
    exact hout.exists_skip_of_error fun _ _ _ => hnow.truthful
  · have hout := now.step_outcome call
    rw [hanswer] at hout
    exact hout.of_isStill hstill

/-- A track where a link leads nowhere and an id stands twice. -/
def brokenTrack : Track Rat :=
  ⟨"audio-1", .audio,
    [⟨"a", "audio-1", "media/a.wav", 0, 2, 0, .audio, 1, 1, 0, some "gone"⟩,
      ⟨"b", "audio-1", "media/b.wav", 3, 5, 0, .audio, 1, 1, 0, none⟩,
      ⟨"b", "audio-1", "media/b.wav", 6, 8, 0, .audio, 1, 1, 0, none⟩]⟩

/-- One volume is set, one is refused, and a clip is held over another. -/
def brokenCalls : List (Call Rat) :=
  [.setVolume "b" (1 / 2), .setVolume "b" (-1), .pointerDown "b" 0, .pointerMove (-100)]

theorem run_all_or_nothing_broken :
    let t := Timeline.ofTracks "p" [brokenTrack]
    let now := (start t .empty .standard .tally true).run brokenCalls
    let history := (start t .empty .standard .tally true).committed brokenCalls
    t.Made ∧
      (now.step (.pointerDown "a" 0)).1 = .error (.inconsistent (.danglingLink "a" "gone")) ∧
      (∃ count, (now.step (.pointerDown "a" 0)).2 = { now with ids := now.ids.skip count }) ∧
      (now.step .pointerUp).1 =
        .ok (.dragEnd (some (.snappedBack (.overlap "audio-1" "a")))) ∧
      (now.step .pointerUp).2 = { now with drag := none } ∧
      now.outbox = history.mapIdx (fun i next => ⟨i + 1, next⟩) ∧ now.revision = 1 ∧
      now.revision = history.length ∧ now.timeline = history.getLast?.getD t := by
  intro t now history
  have hmade : t.Made := Timeline.made_of_index_eq rfl
  obtain ⟨hrefused, hstill, houtbox, hrevision, htimeline⟩ :=
    run_all_or_nothing t hmade .empty .standard .tally brokenCalls
  have hdown : (now.pointerDown "a" 0).1 = .error (.inconsistent (.danglingLink "a" "gone")) := by
    decide +kernel
  have hup : now.pointerUp.1 = some (.snappedBack (.overlap "audio-1" "a")) := by decide +kernel
  have hdownStep : (now.step (.pointerDown "a" 0)).1 =
      .error (.inconsistent (.danglingLink "a" "gone")) := by
    simp only [step, step.answer, hdown, Except.map]
  have hupStep : (now.step .pointerUp).1 =
      .ok (.dragEnd (some (.snappedBack (.overlap "audio-1" "a")))) := by
    simp only [step, hup]
  exact ⟨hmade, hdownStep, hrefused _ _ hdownStep, hupStep, hstill _ _ hupStep rfl, houtbox,
    by decide +kernel, hrevision, htimeline⟩

end Session

end Montage
