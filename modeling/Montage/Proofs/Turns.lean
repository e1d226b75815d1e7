import Montage.Proofs.Commits
import Montage.Render.MergeDesk

/-!
# What one step of a merge can do

A step begins a merge, is a call on the session, or is the turn of a merge that has begun.
`MergeDesk.Turn` lists what can become of the desk in a turn; what is settled of a merge stays so,
and only a merge that succeeds changes more of the session than the ids that are left.
-/

namespace Montage

variable {α : Type}

namespace MergeStage

/-- The plan that a merge still has. -/
def plan? : MergeStage α → Option (MergePlan α)
  | planned plan | rendering plan | rendered plan _ | closing plan _ => some plan
  | finished _ => none

end MergeStage

namespace MergeDesk

variable [Scalar α]

/-! ## What a step does -/

omit [Scalar α] in
/-- Whether a merge has replaced its clips. -/
def Succeeds (desk : MergeDesk α) (n : Nat) : Prop :=
  ∃ merged, desk.outcome? n = some (.ok merged)

/-- The merge that a step is of; a new merge has the next number. -/
def Step.merge? (desk : MergeDesk α) : Step α → Option Nat
  | .plan _ _ => some desk.merges.length
  | .claim n | .answer n _ | .apply n | .release n | .abandon n => some n
  | .edit _ => none

/-- The clips that a new merge is to replace. -/
def Step.clips? : Step α → Option (List ClipId)
  | .plan _ clips => some clips
  | _ => none

/-- What a step of a merge that has begun can do. -/
inductive Turn (desk : MergeDesk α) (n : Nat) : MergeDesk α → Prop
  | rest : Turn desk n desk
  | refuse {plan reason} (hstage : desk.merges[n]? = some (.planned plan)) :
      Turn desk n (desk.put n (.finished (.error reason)))
  | claim {plan} (hstage : desk.merges[n]? = some (.planned plan))
      (hfree : ∀ id ∈ plan.ids, id ∉ desk.inFlight) :
      Turn desk n
        { desk.put n (.rendering plan) with inFlight := desk.inFlight.insertMany plan.ids }
  | fail {plan reason} (hstage : desk.merges[n]? = some (.rendering plan)) :
      Turn desk n (desk.put n (.closing plan (.error reason)))
  | arrive {plan asset} (hstage : desk.merges[n]? = some (.rendering plan)) :
      Turn desk n (desk.put n (.rendered plan asset))
  | apply {plan asset} (hstage : desk.merges[n]? = some (.rendered plan asset)) :
      Turn desk n
        { desk.put n (.closing plan ((desk.session.applyMerge plan asset).1.mapError .refused)) with
          session := (desk.session.applyMerge plan asset).2 }
  | release {plan outcome} (hstage : desk.merges[n]? = some (.closing plan outcome)) :
      Turn desk n ((desk.free plan.ids).put n (.finished outcome))
  | abandon {plan stage} (hstage : desk.merges[n]? = some stage) (hplan : stage.plan? = some plan)
      (hclaims : stage.claims = plan.ids) (houtcome : stage.outcome? = none) :
      Turn desk n ((desk.free plan.ids).put n (.finished (.error .abandoned)))

variable {desk next : MergeDesk α} {n : Nat}

theorem claim_turn (desk : MergeDesk α) (n : Nat) : desk.Turn n (desk.claim n) := by
  unfold claim
  split
  · rename_i plan hstage
    split
    · exact .refuse hstage
    · rename_i hfree
      rw [List.find?_eq_none] at hfree
      exact .claim hstage fun id hid hin => hfree id hid (Std.ExtTreeSet.mem_iff_contains.1 hin)
  · exact .rest

theorem answer_turn (desk : MergeDesk α) (n : Nat) (result : Except Failure (Asset α)) :
    desk.Turn n (desk.answer n result) := by
  unfold answer
  split
  · rename_i plan hstage
    cases result with
    | error reason => exact .fail hstage
    | ok asset => exact .arrive hstage
  · exact .rest

theorem apply_turn (desk : MergeDesk α) (n : Nat) : desk.Turn n (desk.apply n) := by
  unfold apply
  split
  · rename_i plan asset hstage
    exact .apply hstage
  · exact .rest

theorem release_turn (desk : MergeDesk α) (n : Nat) : desk.Turn n (desk.release n) := by
  unfold release
  split
  · rename_i plan outcome hstage
    exact .release hstage
  · exact .rest

theorem abandon_turn (desk : MergeDesk α) (n : Nat) : desk.Turn n (desk.abandon n) := by
  unfold abandon
  split
  · rename_i plan hstage
    exact .abandon hstage rfl rfl rfl
  · rename_i plan asset hstage
    exact .abandon hstage rfl rfl rfl
  · exact .rest

/-- What a step can do. -/
inductive StepsTo (desk : MergeDesk α) : Step α → MergeDesk α → Prop
  | begin (track : TrackId) (clips : List ClipId) :
      StepsTo desk (.plan track clips) (desk.plan track clips)
  | edit (call : Call α) :
      StepsTo desk (.edit call) { desk with session := (desk.session.step call).2 }
  | turn {step n next} (hof : step.merge? desk = some n) (hclips : step.clips? = none)
      (hturn : desk.Turn n next) : StepsTo desk step next

theorem stepsTo (desk : MergeDesk α) (step : Step α) : desk.StepsTo step (desk.step step) := by
  cases step with
  | plan track clips => exact .begin track clips
  | claim n => exact .turn rfl rfl (desk.claim_turn n)
  | answer n result => exact .turn rfl rfl (desk.answer_turn n result)
  | apply n => exact .turn rfl rfl (desk.apply_turn n)
  | release n => exact .turn rfl rfl (desk.release_turn n)
  | abandon n => exact .turn rfl rfl (desk.abandon_turn n)
  | edit call => exact .edit call

/-- A merge that has just begun claims nothing, and has replaced nothing. -/
theorem plan_merges (desk : MergeDesk α) (track : TrackId) (clips : List ClipId) :
    ∃ stage : MergeStage α, (desk.plan track clips).merges = desk.merges ++ [stage] ∧
      stage.claims = [] ∧ (∀ merged, stage.outcome? ≠ some (.ok merged)) ∧
      ∀ plan, stage.plan? = some plan → (desk.session.planMerge track clips).1 = .ok plan := by
  unfold plan
  cases hplan : desk.session.planMerge track clips with
  | mk result session =>
      cases result with
      | error refusal =>
          exact ⟨_, rfl, rfl, by simp [MergeStage.outcome?], by simp [MergeStage.plan?]⟩
      | ok plan => exact ⟨_, rfl, rfl, by simp [MergeStage.outcome?], by simp [MergeStage.plan?]⟩

/-! ## Stages that are put -/

omit [Scalar α] in
theorem getElem?_put {old : MergeStage α} (hold : desk.merges[n]? = some old)
    (stage : MergeStage α) (m : Nat) :
    (desk.put n stage).merges[m]? = if m = n then some stage else desk.merges[m]? := by
  have hlt : n < desk.merges.length := (List.getElem?_eq_some_iff.1 hold).1
  simp only [put, List.getElem?_set, hlt, if_true, eq_comm (a := n)]

/-! ## What becomes of a merge -/

omit [Scalar α] in
theorem Succeeds.lt (h : desk.Succeeds n) : n < desk.merges.length := by
  obtain ⟨merged, hmerged⟩ := h
  obtain ⟨stage, hstage, _⟩ := Option.bind_eq_some_iff.1 hmerged
  exact (List.getElem?_eq_some_iff.1 hstage).1

omit [Scalar α] in
theorem outcome?_put {old : MergeStage α} (hold : desk.merges[n]? = some old)
    (stage : MergeStage α) (m : Nat) :
    (desk.put n stage).outcome? m = if m = n then stage.outcome? else desk.outcome? m := by
  unfold outcome?
  rw [getElem?_put hold]
  split
  · rfl
  · rfl

omit [Scalar α] in
theorem outcome?_eq {stage : MergeStage α} (hstage : desk.merges[n]? = some stage) :
    desk.outcome? n = stage.outcome? := by
  simp [outcome?, hstage]

omit [Scalar α] in
theorem outcome?_put_of_some {old : MergeStage α} (hold : desk.merges[n]? = some old)
    (stage : MergeStage α)
    (hkeeps : ∀ outcome, old.outcome? = some outcome → stage.outcome? = some outcome) {m : Nat}
    {outcome : MergeOutcome α} (h : desk.outcome? m = some outcome) :
    (desk.put n stage).outcome? m = some outcome := by
  rw [outcome?_put hold]
  split
  · rename_i heq
    subst heq
    exact hkeeps outcome ((outcome?_eq hold).symm.trans h)
  · exact h

theorem Turn.outcome?_eq (hturn : desk.Turn n next) {m : Nat} {outcome : MergeOutcome α}
    (h : desk.outcome? m = some outcome) : next.outcome? m = some outcome := by
  cases hturn with
  | rest => exact h
  | refuse hstage => exact outcome?_put_of_some hstage _ nofun h
  | claim hstage => exact outcome?_put_of_some hstage (.rendering _) nofun h
  | fail hstage => exact outcome?_put_of_some hstage _ nofun h
  | arrive hstage => exact outcome?_put_of_some hstage _ nofun h
  | apply hstage => exact outcome?_put_of_some hstage (.closing _ _) nofun h
  | @release plan outcome hstage =>
      have hfreed : (desk.free plan.ids).merges[n]? = some (.closing plan outcome) := hstage
      exact outcome?_put_of_some hfreed (.finished outcome) (fun _ hsome => hsome) h
  | @abandon plan stage hstage _ _ hnone =>
      have hfreed : (desk.free plan.ids).merges[n]? = some stage := hstage
      refine outcome?_put_of_some hfreed _ (fun outcome hsome => ?_) h
      rw [hnone] at hsome
      cases hsome

theorem StepsTo.outcome?_eq {step : Step α} (hstep : desk.StepsTo step next) {m : Nat}
    {outcome : MergeOutcome α} (h : desk.outcome? m = some outcome) :
    next.outcome? m = some outcome := by
  cases hstep with
  | begin track clips =>
      obtain ⟨stage, hmerges, _⟩ := desk.plan_merges track clips
      unfold outcome? at h ⊢
      obtain ⟨old, hold, houtcome⟩ := Option.bind_eq_some_iff.1 h
      have hlt := (List.getElem?_eq_some_iff.1 hold).1
      simp only [hmerges, List.getElem?_append_left hlt, hold, Option.bind_some, houtcome]
  | edit call => exact h
  | turn _ _ hturn => exact hturn.outcome?_eq h

/-- What is settled of a merge stays so. -/
theorem Succeeds.run (h : desk.Succeeds n) (steps : List (Step α)) :
    (desk.run steps).Succeeds n := by
  induction steps generalizing desk with
  | nil => exact h
  | cons step steps ih =>
      obtain ⟨merged, hmerged⟩ := h
      exact ih ⟨merged, (desk.stepsTo step).outcome?_eq hmerged⟩

omit [Scalar α] in
theorem claim_eq {plan : MergePlan α} (hstage : desk.merges[n]? = some (.planned plan))
    (hfree : ∀ id ∈ plan.ids, id ∉ desk.inFlight) :
    desk.claim n =
      { desk.put n (.rendering plan) with inFlight := desk.inFlight.insertMany plan.ids } := by
  have hfind : (plan.ids.find? fun id => desk.inFlight.contains id) = none :=
    List.find?_eq_none.2 fun id hid hin => hfree id hid (Std.ExtTreeSet.mem_iff_contains.2 hin)
  simp only [claim, hstage, hfind]

/-- A merge alone with its clips succeeds if the session takes its rendering. -/
theorem succeeds_of_apply {plan : MergePlan α} {asset : Asset α} {merged : ClipId}
    (hstage : desk.merges[n]? = some (.planned plan)) (hfree : ∀ id ∈ plan.ids, id ∉ desk.inFlight)
    (hmerge : (desk.session.applyMerge plan asset).1 = .ok merged) :
    (desk.run [.claim n, .answer n (.ok asset), .apply n]).Succeeds n := by
  have hclaim := claim_eq hstage hfree
  have hrendering : (desk.claim n).merges[n]? = some (.rendering plan) := by
    rw [hclaim]
    exact (getElem?_put hstage _ n).trans (if_pos rfl)
  have hanswer : (desk.claim n).answer n (.ok asset) =
      (desk.claim n).put n (.rendered plan asset) := by
    simp only [answer, hrendering]
  have hrendered : ((desk.claim n).answer n (.ok asset)).merges[n]? =
      some (.rendered plan asset) := by
    rw [hanswer]
    exact (getElem?_put hrendering _ n).trans (if_pos rfl)
  have hsession : ((desk.claim n).answer n (.ok asset)).session = desk.session := by
    rw [hanswer, hclaim]
    rfl
  refine ⟨merged, ?_⟩
  have hput := (outcome?_put hrendered (.closing plan (.ok merged)) n).trans (if_pos rfl)
  show (((desk.claim n).answer n (.ok asset)).apply n).outcome? n = some (.ok merged)
  simp only [apply, hrendered, hsession, hmerge]
  exact hput

/-! ## What becomes of the session -/

/-- Only a merge that is applied has to do with the session. -/
theorem Turn.session_cases (hturn : desk.Turn n next) :
    next.session = desk.session ∨ ∃ plan asset,
      desk.merges[n]? = some (.rendered plan asset) ∧
        next =
          { desk.put n
              (.closing plan ((desk.session.applyMerge plan asset).1.mapError .refused)) with
            session := (desk.session.applyMerge plan asset).2 } := by
  cases hturn with
  | apply hstage => exact .inr ⟨_, _, hstage, rfl⟩
  | rest => exact .inl rfl
  | refuse => exact .inl rfl
  | claim => exact .inl rfl
  | fail => exact .inl rfl
  | arrive => exact .inl rfl
  | release => exact .inl rfl
  | abandon => exact .inl rfl

theorem StepsTo.advance {step : Step α} (hstep : desk.StepsTo step next) :
    desk.session.Advance (fun _ => True) next.session := by
  cases hstep with
  | begin track clips => exact Session.step_advance _ (.planMerge track clips) nofun
  | edit call => exact Session.step_advance _ call fun _ _ _ => trivial
  | turn _ _ hturn =>
      obtain heq | ⟨plan, asset, _, rfl⟩ := hturn.session_cases
      · rw [heq]
        exact .rest 0 rfl rfl rfl
      · exact Session.applyMerge_advance _ trivial asset

/-- A merge that does not succeed spends ids at most. -/
theorem StepsTo.session_eq {step : Step α} (hstep : desk.StepsTo step next)
    (hof : step.merge? desk = some n) (hfails : ¬ next.Succeeds n) :
    ∃ count, next.session = { desk.session with ids := desk.session.ids.skip count } := by
  cases hstep with
  | begin track clips =>
      obtain ⟨count, hids⟩ := desk.session.timeline.planMerge_ids track clips desk.session.ids
      exact ⟨count, by rw [← hids]; rfl⟩
  | edit call => cases hof
  | turn hof' _ hturn =>
      cases hof.symm.trans hof'
      obtain heq | ⟨plan, asset, hstage, rfl⟩ := hturn.session_cases
      · exact ⟨0, heq⟩
      · cases hresult : (desk.session.applyMerge plan asset).1 with
        | error refusal => exact Session.applyMerge_spares hresult
        | ok merged =>
            refine absurd ⟨merged, ?_⟩ hfails
            have hput := outcome?_put hstage (.closing plan (.ok merged)) n
            rw [if_pos rfl] at hput
            rw [hresult]
            exact hput

theorem run_append (desk : MergeDesk α) (steps later : List (Step α)) :
    desk.run (steps ++ later) = (desk.run steps).run later :=
  List.foldl_append

end MergeDesk

end Montage
