import Montage.Proofs.Turns

/-!
# Claims keep merges apart

A merge claims its clips only if no other merge does, and lets go of them when it ends, however it
ends. So what is in flight is at any time what the merges claim, and each clip is claimed once. A merge
can come to its end from wherever it stands.
-/

namespace Montage.MergeDesk

variable {α : Type} [Scalar α] {desk next : MergeDesk α} {n : Nat}

omit [Scalar α] in
/-- The clips that a merge has claimed. -/
def claims (desk : MergeDesk α) (n : Nat) : List ClipId :=
  (desk.merges[n]?.map MergeStage.claims).getD []

omit [Scalar α] in
theorem claims_put {old : MergeStage α} (hold : desk.merges[n]? = some old)
    (stage : MergeStage α) (m : Nat) :
    (desk.put n stage).claims m = if m = n then stage.claims else desk.claims m := by
  unfold claims
  rw [getElem?_put hold]
  split
  · rfl
  · rfl

omit [Scalar α] in
theorem claims_eq {stage : MergeStage α} (hstage : desk.merges[n]? = some stage) :
    desk.claims n = stage.claims := by
  simp [claims, hstage]

theorem claims_plan (desk : MergeDesk α) (track : TrackId) (clips : List ClipId) (m : Nat) :
    (desk.plan track clips).claims m = desk.claims m := by
  obtain ⟨stage, hmerges, hclaims, _⟩ := desk.plan_merges track clips
  unfold claims
  rw [hmerges]
  obtain hlt | hle := Nat.lt_or_ge m desk.merges.length
  · rw [List.getElem?_append_left hlt]
  · rw [List.getElem?_append_right hle, List.getElem?_eq_none hle]
    cases hindex : m - desk.merges.length with
    | zero => simp [hclaims]
    | succ => simp

/-- No two merges claim one clip, and what they claim is in flight. -/
structure Exclusive (desk : MergeDesk α) : Prop where
  disjoint : ∀ i j, i ≠ j → (desk.claims i).Disjoint (desk.claims j)
  mem_inFlight : ∀ id, id ∈ desk.inFlight ↔ ∃ n, id ∈ desk.claims n

namespace Exclusive

omit [Scalar α] in
theorem ofSession (s : Session α) : (MergeDesk.ofSession s).Exclusive where
  disjoint i j _ := by simp [claims, MergeDesk.ofSession]
  mem_inFlight id := by simp [claims, MergeDesk.ofSession]

omit [Scalar α] in
theorem of_claims_eq (h : desk.Exclusive) (hclaims : ∀ m, next.claims m = desk.claims m)
    (hinFlight : next.inFlight = desk.inFlight) : next.Exclusive where
  disjoint i j hne := by
    rw [hclaims, hclaims]
    exact h.disjoint i j hne
  mem_inFlight id := by
    simp only [hinFlight, hclaims]
    exact h.mem_inFlight id

omit [Scalar α] in
theorem put (h : desk.Exclusive) {old : MergeStage α} (hold : desk.merges[n]? = some old)
    (stage : MergeStage α) (hclaims : stage.claims = old.claims) :
    (desk.put n stage).Exclusive := by
  refine h.of_claims_eq (fun m => ?_) rfl
  rw [claims_put hold]
  split
  · rename_i heq
    rw [heq, hclaims, claims_eq hold]
  · rfl

omit [Scalar α] in
theorem claim (h : desk.Exclusive) {plan : MergePlan α}
    (hstage : desk.merges[n]? = some (.planned plan))
    (hfree : ∀ id ∈ plan.ids, id ∉ desk.inFlight) :
    Exclusive
      { desk.put n (.rendering plan) with inFlight := desk.inFlight.insertMany plan.ids } := by
  -- What is not in flight is claimed by no other merge.
  have hnew (m : Nat) : plan.ids.Disjoint (desk.claims m) := fun id hid hclaimed =>
    hfree id hid ((h.mem_inFlight id).2 ⟨m, hclaimed⟩)
  have hclaims (m : Nat) :
      claims { desk.put n (.rendering plan) with inFlight := desk.inFlight.insertMany plan.ids } m =
        if m = n then plan.ids else desk.claims m := claims_put hstage _ m
  refine ⟨fun i j hne => ?_, fun id => ?_⟩
  · rw [hclaims, hclaims]
    by_cases hi : i = n
    · rw [if_pos hi, if_neg fun hj => hne (hi.trans hj.symm)]
      exact hnew j
    · rw [if_neg hi]
      by_cases hj : j = n
      · rw [if_pos hj]
        exact fun id hclaimed hid => hnew i hid hclaimed
      · rw [if_neg hj]
        exact h.disjoint i j hne
  · simp only [Std.ExtTreeSet.mem_insertMany_list, List.contains_iff_mem, hclaims]
    constructor
    · rintro (hold | hid)
      · obtain ⟨m, hclaimed⟩ := (h.mem_inFlight id).1 hold
        have hne : m ≠ n := by
          rintro rfl
          simp [claims_eq hstage, MergeStage.claims] at hclaimed
        exact ⟨m, by rwa [if_neg hne]⟩
      · exact ⟨n, by rwa [if_pos rfl]⟩
    · rintro ⟨m, hclaimed⟩
      split at hclaimed
      · exact .inr hclaimed
      · exact .inl ((h.mem_inFlight id).2 ⟨m, hclaimed⟩)

omit [Scalar α] in
theorem mem_free {desk : MergeDesk α} {ids : List ClipId} {id : ClipId} :
    id ∈ (desk.free ids).inFlight ↔ id ∈ desk.inFlight ∧ id ∉ ids := by
  unfold free
  simp only
  induction ids generalizing desk with
  | nil => simp
  | cons first ids ih =>
      have hrest := @ih { desk with inFlight := desk.inFlight.erase first }
      rw [List.foldl_cons, hrest, Std.ExtTreeSet.mem_erase]
      simp only [ne_eq, Std.LawfulEqCmp.compare_eq_iff_eq, List.mem_cons, not_or]
      tauto

omit [Scalar α] in
theorem free (h : desk.Exclusive) {plan : MergePlan α} {old : MergeStage α}
    (hold : desk.merges[n]? = some old) (hclaims : old.claims = plan.ids)
    (outcome : MergeOutcome α) : ((desk.free plan.ids).put n (.finished outcome)).Exclusive := by
  have hfreed : (desk.free plan.ids).merges[n]? = some old := hold
  have hput (m : Nat) : ((desk.free plan.ids).put n (.finished outcome)).claims m =
      if m = n then [] else desk.claims m := claims_put hfreed (.finished outcome) m
  refine ⟨fun i j hne => ?_, fun id => ?_⟩
  · rw [hput, hput]
    split
    · exact List.disjoint_nil_left _
    · split
      · exact List.disjoint_nil_right _
      · exact h.disjoint i j hne
  · have hmem : id ∈ ((desk.free plan.ids).put n (.finished outcome)).inFlight ↔
        id ∈ desk.inFlight ∧ id ∉ plan.ids := mem_free
    rw [hmem, h.mem_inFlight]
    have hown : desk.claims n = plan.ids := (claims_eq hold).trans hclaims
    simp only [hput]
    constructor
    · rintro ⟨⟨m, hclaimed⟩, hnot⟩
      have hne : m ≠ n := by
        rintro rfl
        exact hnot (hown ▸ hclaimed)
      exact ⟨m, by rwa [if_neg hne]⟩
    · rintro ⟨m, hclaimed⟩
      split at hclaimed
      · cases hclaimed
      · rename_i hne
        exact ⟨⟨m, hclaimed⟩, fun hid => h.disjoint m n hne hclaimed (hown ▸ hid)⟩

theorem turn (h : desk.Exclusive) (hturn : desk.Turn n next) : next.Exclusive := by
  cases hturn with
  | rest => exact h
  | refuse hstage => exact h.put hstage _ rfl
  | claim hstage hfree => exact h.claim hstage hfree
  | fail hstage => exact h.put hstage _ rfl
  | arrive hstage => exact h.put hstage _ rfl
  | apply hstage => exact (h.put hstage (.closing _ _) rfl).of_claims_eq (fun _ => rfl) rfl
  | release hstage => exact h.free hstage rfl _
  | abandon hstage _ hclaims _ => exact h.free hstage hclaims _

theorem step (h : desk.Exclusive) {step : Step α} (hstep : desk.StepsTo step next) :
    next.Exclusive := by
  cases hstep with
  | begin track clips => exact h.of_claims_eq (desk.claims_plan track clips) rfl
  | edit call => exact h.of_claims_eq (fun _ => rfl) rfl
  | turn _ _ hturn => exact h.turn hturn

theorem run (h : desk.Exclusive) (steps : List (Step α)) : (desk.run steps).Exclusive := by
  induction steps generalizing desk with
  | nil => exact h
  | cons step steps ih => exact ih (h.step (desk.stepsTo step))

omit [Scalar α] in
theorem inFlight_eq_empty (h : desk.Exclusive)
    (hdone : ∀ stage ∈ desk.merges, ∃ outcome, stage = .finished outcome) : desk.inFlight = ∅ := by
  refine Std.ExtTreeSet.ext_mem fun id => ?_
  rw [h.mem_inFlight]
  refine iff_of_false (fun ⟨n, hclaimed⟩ => ?_) Std.ExtTreeSet.not_mem_empty
  unfold claims at hclaimed
  cases hstage : desk.merges[n]? with
  | none => simp [hstage] at hclaimed
  | some stage =>
      obtain ⟨outcome, rfl⟩ := hdone stage (List.mem_of_getElem? hstage)
      simp [hstage, MergeStage.claims] at hclaimed

end Exclusive

/-! ## Merges that end -/

/-- How many steps a merge has before it at most. -/
def stepsLeft : MergeStage α → Nat
  | .planned _ => 4
  | .rendering _ => 3
  | .rendered _ _ => 2
  | .closing _ _ => 1
  | .finished _ => 0

/-- No merge but the given one has gone on, which has so many steps before it at most. -/
def GoesOn (desk next : MergeDesk α) (n left : Nat) : Prop :=
  ∃ stage, next.merges = desk.merges.set n stage ∧ stepsLeft stage ≤ left

namespace GoesOn

variable {mid : MergeDesk α} {stage : MergeStage α} {left : Nat}

omit [Scalar α] in
theorem rest (hstage : desk.merges[n]? = some stage) (hleft : stepsLeft stage ≤ left) :
    desk.GoesOn desk n left := by
  obtain ⟨hlt, rfl⟩ := List.getElem?_eq_some_iff.1 hstage
  exact ⟨_, (List.set_getElem_self hlt).symm, hleft⟩

omit [Scalar α] in
theorem trans (h : desk.GoesOn mid n left) (hlt : n < desk.merges.length) {fewer : Nat}
    (hnext : ∀ stage, mid.merges[n]? = some stage → stepsLeft stage ≤ left →
      mid.GoesOn next n fewer) : desk.GoesOn next n fewer := by
  obtain ⟨stage, hmid, hleft⟩ := h
  obtain ⟨last, hlast, hfewer⟩ := hnext stage (by rw [hmid, List.getElem?_set_self hlt]) hleft
  exact ⟨last, by rw [hlast, hmid, List.set_set], hfewer⟩

end GoesOn

variable {stage : MergeStage α}

omit [Scalar α] in
theorem claim_goesOn (hstage : desk.merges[n]? = some stage) :
    desk.GoesOn (desk.claim n) n 3 := by
  unfold claim
  split
  · split
    · exact ⟨_, rfl, by simp [stepsLeft]⟩
    · exact ⟨_, rfl, by simp [stepsLeft]⟩
  · exact .rest hstage (by cases stage <;> simp_all [stepsLeft])

omit [Scalar α] in
theorem answer_goesOn (hstage : desk.merges[n]? = some stage) (hleft : stepsLeft stage ≤ 3)
    (result : Except Failure (Asset α)) : desk.GoesOn (desk.answer n result) n 2 := by
  unfold answer
  split
  · split
    · exact ⟨_, rfl, by simp [stepsLeft]⟩
    · exact ⟨_, rfl, by simp [stepsLeft]⟩
  · exact .rest hstage (by cases stage <;> simp_all [stepsLeft])

theorem apply_goesOn (hstage : desk.merges[n]? = some stage) (hleft : stepsLeft stage ≤ 2) :
    desk.GoesOn (desk.apply n) n 1 := by
  unfold apply
  split
  · exact ⟨_, rfl, by simp [stepsLeft]⟩
  · exact .rest hstage (by cases stage <;> simp_all [stepsLeft])

omit [Scalar α] in
theorem release_goesOn (hstage : desk.merges[n]? = some stage) (hleft : stepsLeft stage ≤ 1) :
    desk.GoesOn (desk.release n) n 0 := by
  unfold release
  split
  · exact ⟨_, rfl, by simp [stepsLeft]⟩
  · exact .rest hstage (by cases stage <;> simp_all [stepsLeft])

theorem settle_goesOn (hlt : n < desk.merges.length) (result : Except Failure (Asset α)) :
    desk.GoesOn ((desk.claim n).settle n result) n 0 :=
  (((claim_goesOn (List.getElem?_eq_getElem hlt)).trans hlt fun _ hstage hleft =>
    answer_goesOn hstage hleft result).trans hlt fun _ hstage hleft =>
      apply_goesOn hstage hleft).trans hlt fun _ hstage hleft => release_goesOn hstage hleft

/-- A merge has come to its end: its clips are free, and nothing else has become of the merges. -/
structure Frees (desk next : MergeDesk α) (n : Nat) (outcome : MergeOutcome α) : Prop where
  merges_eq : next.merges = desk.merges.set n (.finished outcome)
  mem_inFlight : ∀ id, id ∈ next.inFlight ↔ id ∈ desk.inFlight ∧ id ∉ desk.claims n

/--
A merge that claims clips ends when it is released, or when nobody waits for it any longer; and the
steps of a merge, made one after the other, end it from wherever it stands.
-/
structure Ends (desk : MergeDesk α) (n : Nat) : Prop where
  release : ∀ plan outcome, desk.merges[n]? = some (.closing plan outcome) →
    desk.Frees (desk.release n) n outcome
  abandon : ∀ plan, desk.merges[n]? = some (.rendering plan) ∨
      (∃ asset, desk.merges[n]? = some (.rendered plan asset)) →
    desk.Frees (desk.abandon n) n (.error .abandoned)
  settle : n < desk.merges.length → ∀ result,
    ∃ outcome, desk.Frees ((desk.claim n).settle n result) n outcome

namespace Exclusive

variable {outcome : MergeOutcome α}

omit [Scalar α] in
theorem frees (h : desk.Exclusive) (hnext : next.Exclusive)
    (hmerges : next.merges = desk.merges.set n (.finished outcome)) :
    desk.Frees next n outcome := by
  have hclaims (m : Nat) : next.claims m = if m = n then [] else desk.claims m := by
    unfold claims
    rw [hmerges, List.getElem?_set]
    split
    · rename_i heq
      rw [if_pos heq.symm]
      split <;> rfl
    · rename_i hne
      rw [if_neg fun heq => hne heq.symm]
  refine ⟨hmerges, fun id => ?_⟩
  rw [hnext.mem_inFlight, h.mem_inFlight]
  simp only [hclaims]
  constructor
  · rintro ⟨m, hclaimed⟩
    split at hclaimed
    · cases hclaimed
    · rename_i hne
      exact ⟨⟨m, hclaimed⟩, fun hown => h.disjoint m n hne hclaimed hown⟩
  · rintro ⟨⟨m, hclaimed⟩, hnot⟩
    have hne : m ≠ n := by
      rintro rfl
      exact hnot hclaimed
    exact ⟨m, by rwa [if_neg hne]⟩

theorem ends (h : desk.Exclusive) (n : Nat) : desk.Ends n where
  release plan outcome hstage :=
    h.frees (h.turn (desk.release_turn n)) (by simp only [MergeDesk.release, hstage]; rfl)
  abandon plan hstage := by
    refine h.frees (h.turn (desk.abandon_turn n)) ?_
    obtain hstage | ⟨asset, hstage⟩ := hstage
    · simp only [MergeDesk.abandon, hstage]
      rfl
    · simp only [MergeDesk.abandon, hstage]
      rfl
  settle hlt result := by
    obtain ⟨stage, hmerges, hleft⟩ := settle_goesOn hlt result
    cases stage with
    | finished outcome =>
        exact ⟨outcome, h.frees (h.run [.claim n, .answer n result, .apply n, .release n]) hmerges⟩
    | _ => simp [stepsLeft] at hleft

end Exclusive

end Montage.MergeDesk
