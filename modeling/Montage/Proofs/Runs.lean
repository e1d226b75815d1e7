import Montage.Proofs.Drags
import Montage.Proofs.Steps

/-!
# What a run keeps

A property of timelines holds along every run of calls when edits and releases keep it. A release
writes what the pointer found when it went down, so what is said of a session with a drag under way
is said of the timeline of that moment as well: `Session.Steady` is the invariant, `run_steady` the
induction.
-/

namespace Montage

variable {α : Type}

namespace Timeline

/-! ## Clips that persist -/

/-- The clips of the first timeline that are still there are related to what they were. -/
def Persist (R : Clip α → Clip α → Prop) (first t : Timeline α) : Prop :=
  ∀ old ∈ first.clips, ∀ clip ∈ t.clips, clip.id = old.id → R clip old

theorem Persist.refl {R : Clip α → Clip α → Prop} (hrefl : ∀ clip, R clip clip) {t : Timeline α}
    (h : t.InStep) : Persist R t t := by
  intro old hold clip hclip hid
  rw [h.eq_of_id_eq hclip hold hid]
  exact hrefl old

theorem Revision.persist {R : Clip α → Clip α → Prop} {first t next : Timeline α}
    {keep : Clip α → Bool} {alter : Clip α → Clip α} {new : List (Clip α)}
    (hrevision : t.Revision keep alter new next) (hid : ∀ clip, (alter clip).id = clip.id)
    (halter : ∀ clip old, R clip old → R (alter clip) old)
    (hnew : ∀ clip ∈ new, ∀ old ∈ first.clips, clip.id ≠ old.id) (h : Persist R first t) :
    Persist R first next := by
  intro old hold clip hclip heq
  rcases hrevision.mem_clips.1 hclip with ⟨source, hsource, _, rfl⟩ | hclip
  · exact halter source old (h old hold source hsource ((hid source).symm.trans heq))
  · exact absurd heq (hnew clip hclip old hold)

/-- The clip goes on where it started. -/
def Resumes (clip old : Clip α) : Prop :=
  clip.Continues old ∧ clip.start = old.start

end Timeline

namespace Session

variable [Scalar α]

/-! ## The invariant -/

/-- The property holds of the timeline, and of the one that a drag was begun on. -/
structure Steady (Good : Timeline α → Prop) (s : Session α) : Prop where
  good : Good s.timeline
  inStep : s.timeline.InStep
  unnamed : s.timeline.Unnamed s.ids
  drag : ∀ drag, s.drag = some drag → ∃ first, Good first ∧ first.InStep ∧ first.Unnamed s.ids ∧
    drag.HeldFrom first ∧ Timeline.Persist Timeline.Resumes first s.timeline

/-- Edits and releases keep the property. -/
structure Kept (settings : EditorSettings α) (Planned : MergePlan α → Prop)
    (Good : Timeline α → Prop) : Prop where
  edit : ∀ {t next : Timeline α} {ids left : IdSupply}, t.InStep → Good t →
    t.Edit settings Planned ids next left → Good next
  release : ∀ {first t next : Timeline α} {drag : Drag α} {delta : α}, first.InStep → Good first →
    t.InStep → Good t → drag.HeldFrom first → Timeline.Persist Timeline.Resumes first t →
    drag.release t settings = .moved next delta → Good next

variable {Good : Timeline α → Prop} {Planned : MergePlan α → Prop} {s next : Session α}

/-! ## One call -/

/-- What an advance does to clips. They keep their starts, or a drag has ended. -/
theorem Advance.lineage (h : s.Steady Good) (hadvance : s.Advance Planned next) :
    ∃ keep alter new count, s.timeline.Revision keep alter new next.timeline ∧
      (∀ clip, (alter clip).Continues clip) ∧
      (next.drag = none ∨ ∀ clip, (alter clip).start = clip.start) ∧
      next.ids = s.ids.skip count ∧ ∀ clip ∈ new, clip.id ∈ s.ids.upcoming count := by
  have hrest (count : Nat) (hids : next.ids = s.ids.skip count) (ht : next.timeline = s.timeline) :
      ∃ keep alter new count, s.timeline.Revision keep alter new next.timeline ∧
        (∀ clip, (alter clip).Continues clip) ∧
        (next.drag = none ∨ ∀ clip, (alter clip).start = clip.start) ∧
        next.ids = s.ids.skip count ∧ ∀ clip ∈ new, clip.id ∈ s.ids.upcoming count := by
    rw [ht]
    exact ⟨_, _, _, count, .refl h.inStep, .refl, .inr fun _ => rfl, hids, by simp⟩
  cases hadvance with
  | rest count hids htimeline _ => exact hrest count hids htimeline
  | press _ hids htimeline _ => exact hrest 0 hids htimeline
  | pull _ hids htimeline _ => exact hrest 0 hids htimeline
  | letGo hids htimeline _ => exact hrest 0 hids htimeline
  | release hdrag hrelease hids hnone =>
      obtain ⟨first, _, hfirst, _, hheld, _⟩ := h.drag _ hdrag
      obtain ⟨_, _, hrevision⟩ :=
        Timeline.release_revision h.inStep (hheld.nodup_ids hfirst) hrelease
      exact ⟨_, _, _, 0, hrevision, Timeline.dropped_continues _ _, .inl hnone, hids, by simp⟩
  | edit hedit _ =>
      obtain ⟨_, _, new, hrevision, halter, hids, hnew⟩ := hedit.lineage h.inStep
      refine ⟨_, _, _, new.length, hrevision, fun clip => (halter clip).1,
        .inr fun clip => (halter clip).2, hids, fun clip hclip => ?_⟩
      rw [← hnew]
      exact List.mem_map_of_mem hclip

theorem Advance.steady (hkept : Kept s.settings Planned Good) (h : s.Steady Good)
    (hadvance : s.Advance Planned next) : next.Steady Good := by
  obtain ⟨_, _, new, count, hrevision, halter, hstart, hids, hnew⟩ := hadvance.lineage h
  have hunnamed : next.timeline.Unnamed next.ids := by
    rw [hids]
    exact hrevision.unnamed h.unnamed (fun clip => (halter clip).id_eq) hnew
  -- A drag that goes on holds clips of the timeline that it held before.
  have hgoesOn (drag drag' : Drag α) (hdrag : s.drag = some drag) (hsome : next.drag = some drag')
      (hheld : drag'.held = drag.held) : ∃ first, Good first ∧ first.InStep ∧
        first.Unnamed next.ids ∧ drag'.HeldFrom first ∧
        Timeline.Persist Timeline.Resumes first next.timeline := by
    obtain ⟨first, hgood, hfirst, hfirstUnnamed, hfrom, hpersist⟩ := h.drag drag hdrag
    have hkeeps := hstart.resolve_left (by simp [hsome])
    refine ⟨first, hgood, hfirst, hids ▸ hfirstUnnamed.skip count, ?_,
      hrevision.persist (fun clip => (halter clip).id_eq) (fun clip old hresumes => ?_)
        (fun clip hclip old hold => ?_) hpersist⟩
    · unfold Drag.HeldFrom
      rw [hheld]
      exact hfrom
    · exact ⟨(halter clip).trans hresumes.1, (hkeeps clip).trans hresumes.2⟩
    · exact (hfirstUnnamed.ne (hnew clip hclip) hold).symm
  refine ⟨?_, hrevision.inStep, hunnamed, ?_⟩
  · cases hadvance with
    | rest _ _ htimeline _ => exact htimeline ▸ h.good
    | press _ _ htimeline _ => exact htimeline ▸ h.good
    | pull _ _ htimeline _ => exact htimeline ▸ h.good
    | letGo _ htimeline _ => exact htimeline ▸ h.good
    | release hdrag hrelease _ _ =>
        obtain ⟨first, hgood, hfirst, _, hheld, hpersist⟩ := h.drag _ hdrag
        exact hkept.release hfirst hgood h.inStep h.good hheld hpersist hrelease
    | edit hedit _ => exact hkept.edit h.inStep h.good hedit
  · intro drag hsome
    cases hadvance with
    | rest _ _ _ hdrag => exact hgoesOn drag drag (hdrag ▸ hsome) hsome rfl
    | press hpress hidsEq htimeline hdrag =>
        rw [hdrag] at hsome
        cases hsome
        rw [htimeline, hidsEq]
        exact ⟨s.timeline, h.good, h.inStep, h.unnamed, Drag.start_heldFrom h.inStep hpress,
          .refl (fun clip => ⟨.refl clip, rfl⟩) h.inStep⟩
    | pull hdrag _ _ hpulled =>
        refine hgoesOn _ drag hdrag hsome ?_
        rw [hpulled] at hsome
        cases hsome
        rfl
    | letGo _ _ hdrag => simp [hdrag] at hsome
    | release _ _ _ hdrag => simp [hdrag] at hsome
    | edit _ hdrag => exact hgoesOn drag drag (hdrag ▸ hsome) hsome rfl

/-! ## Whole runs -/

theorem run_cons (s : Session α) (call : Call α) (calls : List (Call α)) :
    s.run (call :: calls) = (s.step call).2.run calls := rfl

/-- A run keeps what edits and releases keep, whatever plans it applies. -/
theorem run_steady (hkept : Kept s.settings (fun _ => True) Good) (h : s.Steady Good)
    (calls : List (Call α)) : (s.run calls).Steady Good := by
  induction calls generalizing s with
  | nil => exact h
  | cons call calls ih =>
      rw [run_cons]
      refine ih ?_ ((step_advance s call fun _ _ _ => trivial).steady hkept h)
      rw [step_settings]
      exact hkept

/-- The plans that an answer hands out. -/
def plansIn : Except (Refusal α) (Answer α) → List (MergePlan α)
  | .ok (.plan plan) => [plan]
  | _ => []

/-- Only planning hands out a plan, and the plan is of the present timeline. -/
theorem Outcome.planOf {call : Call α} {answer : Except (Refusal α) (Answer α)}
    (h : s.Outcome call answer next) (hstep : s.timeline.InStep) {plan : MergePlan α}
    (hplan : plan ∈ plansIn answer) : s.timeline.PlanOf plan := by
  cases h with
  | plan hmade =>
      obtain rfl := List.mem_singleton.1 hplan
      exact Timeline.planOf_of_planMerge hstep (congrArg Prod.fst hmade)
  | edit hedits => cases hedits <;> cases hplan
  | _ => cases hplan

theorem planOf_of_mem_plansIn (h : s.timeline.InStep) (call : Call α)
    {plan : MergePlan α} (hplan : plan ∈ plansIn (s.step call).1) : s.timeline.PlanOf plan :=
  (s.step_outcome call).planOf h hplan

/-- Each plan that the calls apply is one of the given ones, or was an answer to a call before. -/
def AppliesOwnPlans : List (MergePlan α) → Session α → List (Call α) → Prop
  | _, _, [] => True
  | made, s, call :: calls =>
      (∀ plan asset, call = .applyMerge plan asset → plan ∈ made) ∧
        AppliesOwnPlans (plansIn (s.step call).1 ++ made) (s.step call).2 calls

/-- A run that applies its own plans keeps what edits and releases keep with plans so made. -/
theorem run_steady_of_own_plans (hkept : Kept s.settings Planned Good)
    (hplans : ∀ s : Session α, s.Steady Good →
      ∀ call plan, plan ∈ plansIn (s.step call).1 → Planned plan)
    (h : s.Steady Good) {made : List (MergePlan α)} (hmade : ∀ plan ∈ made, Planned plan)
    {calls : List (Call α)} (hcalls : AppliesOwnPlans made s calls) :
    (s.run calls).Steady Good := by
  induction calls generalizing s made with
  | nil => exact h
  | cons call calls ih =>
      obtain ⟨hcall, hcalls⟩ := hcalls
      have hadvance : s.Advance Planned (s.step call).2 :=
        step_advance s call fun plan asset heq => hmade plan (hcall plan asset heq)
      rw [run_cons]
      refine ih ?_ (hadvance.steady hkept h) (fun plan hplan => ?_) hcalls
      · rw [step_settings]
        exact hkept
      · rcases List.mem_append.1 hplan with hnew | hold
        · exact hplans s h call plan hnew
        · exact hmade plan hold

theorem Kept.true (settings : EditorSettings α) :
    Kept settings (fun _ => True) fun _ => True where
  edit _ _ _ := trivial
  release _ _ _ _ _ _ _ := trivial

/-- Along a run, clips of an earlier timeline go on or vanish, and none comes back as another. -/
theorem run_continues (h : s.Steady fun _ => True) {first : Timeline α}
    (hfirst : first.Unnamed s.ids)
    (hpersist : Timeline.Persist Clip.Continues first s.timeline) (calls : List (Call α)) :
    Timeline.Persist Clip.Continues first (s.run calls).timeline := by
  induction calls generalizing s with
  | nil => exact hpersist
  | cons call calls ih =>
      have hadvance : s.Advance (fun _ => True) (s.step call).2 :=
        step_advance s call fun _ _ _ => trivial
      obtain ⟨_, _, _, count, hrevision, halter, _, hids, hnew⟩ := hadvance.lineage h
      rw [run_cons]
      refine ih (hadvance.steady (.true _) h) (hids ▸ hfirst.skip count) ?_
      exact hrevision.persist (fun clip => (halter clip).id_eq)
        (fun clip old hcontinues => (halter clip).trans hcontinues)
        (fun clip hclip old hold => (hfirst.ne (hnew clip hclip) hold).symm) hpersist

/-! ## Beginnings -/

omit [Scalar α] in
theorem start_steady {t : Timeline α} {library : Library α} {settings : EditorSettings α}
    {ids : IdSupply} {observed : Bool} (hgood : Good t) (h : t.InStep) (hids : t.Unnamed ids) :
    (start t library settings ids observed).Steady Good where
  good := hgood
  inStep := h
  unnamed := hids
  drag drag hdrag := by simp [start] at hdrag

/-- A session on a new project with one free audio track, in exact time. -/
def blank : Session Rat :=
  start (.standard "p" 1) .empty .standard .tally false

end Session

end Montage
