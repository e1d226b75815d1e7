import Montage.Proofs.Claims
import Montage.Proofs.Merges

/-!
# Merges keep out of each other's way

The steps of merges come in any order, among each other and among the calls on the session. Of two
merges of one clip at most one replaces it: the other claims too late, or it finds the clip gone.
-/

namespace Montage

variable {α : Type}

namespace Session

/-! ## Ids that never come back -/

/-- No clip has the id, and none will be given it. -/
structure Gone (s : Session α) (id : ClipId) : Prop where
  absent : ∀ clip ∈ s.timeline.clips, clip.id ≠ id
  unnamed : ∀ n, s.ids.used ≤ n → s.ids.name n ≠ id

variable [Scalar α] {Good : Timeline α → Prop} {Planned : MergePlan α → Prop}
  {s next : Session α} {id : ClipId}

theorem Advance.gone (hadvance : s.Advance Planned next) (h : s.Steady Good) (hgone : s.Gone id) :
    next.Gone id := by
  obtain ⟨_, _, new, count, hrevision, halter, _, hids, hnew⟩ := hadvance.lineage h
  constructor
  · intro clip hclip
    rcases hrevision.mem_clips.1 hclip with ⟨old, hold, _, rfl⟩ | hclip
    · rw [(halter old).id_eq]
      exact hgone.absent old hold
    · obtain ⟨n, hn, _, heq⟩ := IdSupply.mem_upcoming.1 (hnew clip hclip)
      rw [← heq]
      exact hgone.unnamed n hn
  · rw [hids]
    exact fun n hn => hgone.unnamed n (Nat.le_trans (Nat.le_add_right _ count) hn)

/-- What one call removes does not come back. -/
theorem Advance.gone_of_absent (hadvance : s.Advance Planned next) (h : s.Steady Good)
    (hpresent : ∃ clip ∈ s.timeline.clips, clip.id = id)
    (habsent : ∀ clip ∈ next.timeline.clips, clip.id ≠ id) : next.Gone id := by
  obtain ⟨_, _, _, count, _, _, _, hids, _⟩ := hadvance.lineage h
  refine ⟨habsent, ?_⟩
  rw [hids]
  rintro n hn rfl
  exact h.unnamed.unused n (Nat.le_trans (Nat.le_add_right _ count) hn) hpresent

/-- A merge that is applied finds its clips, and they are gone then. -/
theorem applyMerge_gone (h : s.Steady Good) {plan : MergePlan α} {asset : Asset α}
    {merged : ClipId} (hmerge : (s.applyMerge plan asset).1 = .ok merged) (hid : id ∈ plan.ids) :
    ¬ s.Gone id ∧ (s.applyMerge plan asset).2.Gone id := by
  have hadvance : s.Advance (fun _ => True) (s.applyMerge plan asset).2 :=
    s.applyMerge_advance trivial asset
  have hout := s.applyMerge_outcome plan asset
  rw [hmerge] at hout
  generalize (s.applyMerge plan asset).2 = next at hadvance hout ⊢
  cases hout with
  | edit hedits =>
      cases hedits with
      | applyMerge hresult =>
          obtain ⟨hcheck, hrevision, _⟩ := Timeline.applyMerge_revision h.inStep hresult
          obtain ⟨_, hcurrent, _⟩ := Timeline.checkMerge_spec hcheck
          obtain ⟨planned, hplanned, rfl⟩ := List.mem_map.1 hid
          obtain ⟨current, hclip, _⟩ := Timeline.checkCurrent_spec (hcurrent planned hplanned)
          have hpresent : ∃ clip ∈ s.timeline.clips, clip.id = planned.id :=
            ⟨current, h.inStep.clip?_eq_some_iff.1 hclip⟩
          refine ⟨fun hgone => ?_, hadvance.gone_of_absent h hpresent fun clip hclip => ?_⟩
          · obtain ⟨clip, hmem, hsame⟩ := hpresent
            exact hgone.absent clip hmem hsame
          · rcases hrevision.mem_clips.1 hclip with ⟨old, _, hkept, rfl⟩ | hnew
            · rintro heq
              simp [heq, hid] at hkept
            · rw [List.mem_singleton.1 hnew]
              rintro heq
              obtain ⟨clip, hmem, hsame⟩ := hpresent
              exact h.unnamed.unused s.ids.used (Nat.le_refl _) ⟨clip, hmem, hsame.trans heq.symm⟩

end Session

namespace MergeDesk

variable [Scalar α] {desk next : MergeDesk α} {n : Nat}

/-! ## One clip, one merge -/

theorem run_steady (h : desk.session.Steady fun _ => True) (steps : List (Step α)) :
    (desk.run steps).session.Steady fun _ => True := by
  induction steps generalizing desk with
  | nil => exact h
  | cons step steps ih => exact ih ((desk.stepsTo step).advance.steady (.true _) h)

theorem run_gone (h : desk.session.Steady fun _ => True) {id : ClipId}
    (hgone : desk.session.Gone id) (steps : List (Step α)) : (desk.run steps).session.Gone id := by
  induction steps generalizing desk with
  | nil => exact hgone
  | cons step steps ih =>
      have hadvance := (desk.stepsTo step).advance
      exact ih (hadvance.steady (.true _) h) (hadvance.gone h hgone)

omit [Scalar α] in
/-- What the merges are to replace, in the order of their numbers. -/
def requests (steps : List (Step α)) : List (List ClipId) :=
  steps.filterMap Step.clips?

/-- Each merge is of the clips that it was asked to replace, and once it has, they are gone. -/
structure Accounted (requests : List (List ClipId)) (desk : MergeDesk α) : Prop where
  steady : desk.session.Steady fun _ => True
  length_eq : desk.merges.length = requests.length
  planned : ∀ {n : Nat} {clips : List ClipId} {stage : MergeStage α} {plan : MergePlan α},
    requests[n]? = some clips → desk.merges[n]? = some stage → stage.plan? = some plan →
      ∀ id, id ∈ plan.ids ↔ id ∈ clips
  gone : ∀ {n : Nat} {clips : List ClipId}, requests[n]? = some clips → desk.Succeeds n →
    ∀ id ∈ clips, desk.session.Gone id
  sole : ∀ {i j : Nat} {clips other : List ClipId} {id : ClipId}, i ≠ j →
    requests[i]? = some clips → requests[j]? = some other → id ∈ clips → id ∈ other →
      desk.Succeeds i → ¬ desk.Succeeds j

theorem getElem?_concat_eq_some {β : Type} {entries : List β} {last entry : β} {m : Nat}
    (h : (entries ++ [last])[m]? = some entry) :
    entries[m]? = some entry ∨ (m = entries.length ∧ last = entry) := by
  rw [List.getElem?_append] at h
  split at h
  · exact .inl h
  · rename_i hle
    obtain ⟨hlt, heq⟩ := List.getElem?_eq_some_iff.1 h
    rw [List.length_singleton] at hlt
    exact .inr ⟨by omega, by simpa using heq⟩

namespace Accounted

variable {asked : List (List ClipId)}

omit [Scalar α] in
theorem ofSession {s : Session α} (h : s.Steady fun _ => True) :
    Accounted [] (MergeDesk.ofSession s) where
  steady := h
  length_eq := rfl
  planned hclips := by simp at hclips
  gone hclips := by simp at hclips
  sole _ hclips := by simp at hclips

omit [Scalar α] in
theorem of_eq (h : desk.Accounted asked) (hsession : next.session = desk.session)
    (hmerges : next.merges = desk.merges) : next.Accounted asked := by
  obtain ⟨session, inFlight, merges⟩ := desk
  obtain ⟨_, _, _⟩ := next
  cases hsession
  cases hmerges
  exact ⟨h.steady, h.length_eq, h.planned, h.gone, h.sole⟩

/-- Whatever happens to the session, what has been said of the merges stays true. -/
theorem advance (h : desk.Accounted asked) {session : Session α}
    (hadvance : desk.session.Advance (fun _ => True) session) :
    Accounted asked { desk with session } where
  steady := hadvance.steady (.true _) h.steady
  length_eq := h.length_eq
  planned := h.planned
  gone hclips hsucceeds id hid := hadvance.gone h.steady (h.gone hclips hsucceeds id hid)
  sole := h.sole

omit [Scalar α] in
theorem put (h : desk.Accounted asked) {old : MergeStage α}
    (hold : desk.merges[n]? = some old) (stage : MergeStage α)
    (hplan : ∀ plan, stage.plan? = some plan → old.plan? = some plan)
    (houtcome : ∀ merged, stage.outcome? = some (.ok merged) → old.outcome? = some (.ok merged)) :
    (desk.put n stage).Accounted asked := by
  have hback {m : Nat} (hsucceeds : (desk.put n stage).Succeeds m) : desk.Succeeds m := by
    obtain ⟨merged, hmerged⟩ := hsucceeds
    rw [outcome?_put hold] at hmerged
    split at hmerged
    · rename_i heq
      subst heq
      exact ⟨merged, (outcome?_eq hold).trans (houtcome merged hmerged)⟩
    · exact ⟨merged, hmerged⟩
  exact {
    steady := h.steady
    length_eq := by simpa [MergeDesk.put] using h.length_eq
    planned := fun {m clips other plan} hclips hstage hsome => by
      rw [getElem?_put hold] at hstage
      split at hstage
      · rename_i heq
        subst heq
        cases hstage
        exact h.planned hclips hold (hplan plan hsome)
      · exact h.planned hclips hstage hsome
    gone := fun hclips hsucceeds => h.gone hclips (hback hsucceeds)
    sole := fun hne hclips hother hid hid' hi hj =>
      h.sole hne hclips hother hid hid' (hback hi) (hback hj) }

/-- A merge that replaces its clips is the first to replace any of them, and the last. -/
theorem succeed (h : desk.Accounted asked) {plan : MergePlan α} {asset : Asset α}
    {merged : ClipId} (hstage : desk.merges[n]? = some (.rendered plan asset))
    (hmerge : (desk.session.applyMerge plan asset).1 = .ok merged) :
    Accounted asked
      { desk.put n (.closing plan (.ok merged)) with
        session := (desk.session.applyMerge plan asset).2 } := by
  have hadvance : desk.session.Advance (fun _ => True) (desk.session.applyMerge plan asset).2 :=
    desk.session.applyMerge_advance trivial asset
  -- Another merge has replaced its clips only if it had before.
  have hback {m : Nat} (hne : m ≠ n)
      (hsucceeds : (desk.put n (.closing plan (.ok merged))).Succeeds m) : desk.Succeeds m := by
    obtain ⟨other, hother⟩ := hsucceeds
    rw [outcome?_put hstage, if_neg hne] at hother
    exact ⟨other, hother⟩
  have hown {clips : List ClipId} (hclips : asked[n]? = some clips) {id : ClipId}
      (hid : id ∈ clips) :
      ¬ desk.session.Gone id ∧ (desk.session.applyMerge plan asset).2.Gone id :=
    Session.applyMerge_gone h.steady hmerge ((h.planned hclips hstage rfl id).2 hid)
  exact {
    steady := hadvance.steady (.true _) h.steady
    length_eq := by simpa [MergeDesk.put] using h.length_eq
    planned := fun {m clips stage other} hclips hput hsome => by
      have hnow := (getElem?_put hstage (.closing plan (.ok merged)) m).symm.trans hput
      by_cases hm : m = n
      · subst hm
        rw [if_pos rfl] at hnow
        cases hnow
        cases hsome
        exact h.planned hclips hstage rfl
      · rw [if_neg hm] at hnow
        exact h.planned hclips hnow hsome
    gone := fun {m clips} hclips hsucceeds id hid => by
      by_cases hm : m = n
      · subst hm
        exact (hown hclips hid).2
      · exact hadvance.gone h.steady (h.gone hclips (hback hm hsucceeds) id hid)
    sole := fun {i j clips other id} hne hclips hother hid hid' hi hj => by
      by_cases hin : i = n
      · subst hin
        exact (hown hclips hid).1 (h.gone hother (hback hne.symm hj) id hid')
      · by_cases hjn : j = n
        · subst hjn
          exact (hown hother hid').1 (h.gone hclips (hback hin hi) id hid)
        · exact h.sole hne hclips hother hid hid' (hback hin hi) (hback hjn hj) }

theorem turn (h : desk.Accounted asked) (hturn : desk.Turn n next) : next.Accounted asked := by
  cases hturn with
  | rest => exact h
  | refuse hstage => exact h.put hstage _ nofun nofun
  | claim hstage =>
      exact (h.put hstage (.rendering _) (fun _ hsome => hsome) nofun).of_eq rfl rfl
  | fail hstage => exact h.put hstage _ (fun _ hsome => hsome) nofun
  | arrive hstage => exact h.put hstage _ (fun _ hsome => hsome) nofun
  | @apply plan asset hstage =>
      cases hmerge : (desk.session.applyMerge plan asset).1 with
      | ok merged => exact h.succeed hstage hmerge
      | error refusal =>
          exact (h.put hstage (.closing _ (.error (.refused refusal)))
            (fun _ hsome => hsome) nofun).advance (Session.applyMerge_advance _ trivial asset)
  | release hstage =>
      exact (h.put hstage (.finished _) nofun fun _ hsome => hsome).of_eq rfl rfl
  | abandon hstage =>
      refine (h.put hstage (.finished _) nofun fun merged hsome => ?_).of_eq rfl rfl
      simp [MergeStage.outcome?] at hsome

theorem plan (h : desk.Accounted asked) (track : TrackId) (clips : List ClipId) :
    (desk.plan track clips).Accounted (asked ++ [clips]) := by
  have hadvance := (desk.stepsTo (.plan track clips)).advance
  obtain ⟨stage, hmerges, _, hfresh, hmade⟩ := desk.plan_merges track clips
  have hback {m : Nat} (hsucceeds : (desk.plan track clips).Succeeds m) : desk.Succeeds m := by
    obtain ⟨merged, hmerged⟩ := hsucceeds
    unfold outcome? at hmerged
    obtain ⟨old, hold, houtcome⟩ := Option.bind_eq_some_iff.1 hmerged
    rw [hmerges] at hold
    obtain hold | ⟨_, rfl⟩ := getElem?_concat_eq_some hold
    · exact ⟨merged, by rw [outcome?_eq hold, houtcome]⟩
    · exact absurd houtcome (hfresh merged)
  -- What has replaced its clips is not the merge that begins.
  have hasked {m : Nat} {own : List ClipId} (hown : (asked ++ [clips])[m]? = some own)
      (hsucceeds : desk.Succeeds m) : asked[m]? = some own := by
    obtain hold | ⟨rfl, _⟩ := getElem?_concat_eq_some hown
    · exact hold
    · exact absurd hsucceeds.lt (by rw [h.length_eq]; exact Nat.lt_irrefl _)
  exact {
    steady := hadvance.steady (.true _) h.steady
    length_eq := by simp [hmerges, h.length_eq]
    planned := fun {m own other plan} hown hother hsome => by
      rw [hmerges] at hother
      obtain hown | ⟨rfl, rfl⟩ := getElem?_concat_eq_some hown
      · obtain hother | ⟨rfl, _⟩ := getElem?_concat_eq_some hother
        · exact h.planned hown hother hsome
        · rw [h.length_eq, List.getElem?_eq_none (Nat.le_refl _)] at hown
          cases hown
      · rw [← h.length_eq, List.getElem?_concat_length] at hother
        cases hother
        exact Timeline.planMerge_mem_ids h.steady.inStep (hmade plan hsome)
    gone := fun hown hsucceeds id hid =>
      hadvance.gone h.steady (h.gone (hasked hown (hback hsucceeds)) (hback hsucceeds) id hid)
    sole := fun hne hown hother hid hid' hi hj =>
      h.sole hne (hasked hown (hback hi)) (hasked hother (hback hj)) hid hid' (hback hi)
        (hback hj) }

theorem step (h : desk.Accounted asked) {step : Step α} (hstep : desk.StepsTo step next) :
    next.Accounted (asked ++ step.clips?.toList) := by
  cases hstep with
  | begin track clips => exact h.plan track clips
  | edit call =>
      rw [show (Step.edit call).clips? = none from rfl, Option.toList_none, List.append_nil]
      exact h.advance (StepsTo.edit call).advance
  | turn _ hclips hturn =>
      rw [hclips, Option.toList_none, List.append_nil]
      exact h.turn hturn

theorem run (h : desk.Accounted asked) (steps : List (Step α)) :
    (desk.run steps).Accounted (asked ++ requests steps) := by
  induction steps generalizing desk asked with
  | nil =>
      rw [requests, List.filterMap_nil, List.append_nil]
      exact h
  | cons step steps ih =>
      have hrequests : requests (step :: steps) = step.clips?.toList ++ requests steps := by
        cases hclips : step.clips? with
        | none => simp [requests, hclips]
        | some clips => simp [requests, hclips]
      rw [hrequests, ← List.append_assoc]
      exact ih (h.step (desk.stepsTo step))

end Accounted

/-- A merge claims what it is to replace, and of two that share a clip one at most succeeds. -/
structure Sole (asked : List (List ClipId)) (desk : MergeDesk α) : Prop where
  claims_iff : ∀ n clips, asked[n]? = some clips → desk.claims n ≠ [] →
    ∀ id, id ∈ desk.claims n ↔ id ∈ clips
  one_succeeds : ∀ i j clips other id, i ≠ j → asked[i]? = some clips → asked[j]? = some other →
    id ∈ clips → id ∈ other → desk.Succeeds i → ¬ desk.Succeeds j

omit [Scalar α] in
theorem Accounted.toSole {asked : List (List ClipId)} (h : desk.Accounted asked) :
    desk.Sole asked where
  claims_iff n clips hclips hclaims id := by
    cases hstage : desk.merges[n]? with
    | none => simp [claims, hstage] at hclaims
    | some stage =>
        rw [claims_eq hstage] at hclaims ⊢
        cases stage with
        | planned plan => exact absurd rfl hclaims
        | finished outcome => exact absurd rfl hclaims
        | rendering plan => exact h.planned hclips hstage rfl id
        | rendered plan asset => exact h.planned hclips hstage rfl id
        | closing plan outcome => exact h.planned hclips hstage rfl id
  one_succeeds _ _ _ _ _ := h.sole

/-- The clips that a merge takes off the timeline when it is applied. -/
def removed (desk : MergeDesk α) (n : Nat) : List ClipId :=
  (desk.session.timeline.clips.map Clip.id).filter fun id =>
    id ∉ (desk.apply n).session.timeline.clips.map Clip.id

/-- No clip is removed twice. -/
theorem removed_disjoint (h : desk.session.Steady fun _ => True) (i j : Nat)
    (between : List (Step α)) :
    (desk.removed i).Disjoint ((desk.run (.apply i :: between)).removed j) := by
  intro id hfirst hsecond
  simp only [removed, List.mem_filter, List.mem_map, decide_eq_true_eq, not_exists,
    not_and] at hfirst hsecond
  have hadvance := (desk.stepsTo (.apply i)).advance
  have hgone := hadvance.gone_of_absent h hfirst.1 hfirst.2
  obtain ⟨clip, hclip, hid⟩ := hsecond.1
  exact (run_gone (hadvance.steady (.true _) h) hgone between).absent clip hclip hid

/--
However the steps of merges and the calls on the session come: what is in flight is what merges
claim, no two of them the same clip; each merge can end, and then its clips are free; a merge whose
clips no other claims can still succeed; where ids are fresh, of two merges of one clip at most one
succeeds, and no clip is removed twice; and a merge that does not succeed leaves the session as it
is, but for ids that are spent.
-/
theorem merges_exclude (t : Timeline α) (library : Library α) (settings : EditorSettings α)
    (ids : IdSupply) (observed : Bool) :
    let desk := MergeDesk.ofSession (.start t library settings ids observed)
    (∀ steps, (desk.run steps).Exclusive ∧
      ((∀ stage ∈ (desk.run steps).merges, ∃ outcome, stage = .finished outcome) →
        (desk.run steps).inFlight = ∅)) ∧
    (∀ steps n, (desk.run steps).Ends n) ∧
    (∀ steps n plan asset merged, (desk.run steps).merges[n]? = some (.planned plan) →
      (∀ m, plan.ids.Disjoint ((desk.run steps).claims m)) →
      ((desk.run steps).session.applyMerge plan asset).1 = .ok merged →
        (desk.run (steps ++ [.claim n, .answer n (.ok asset), .apply n])).Succeeds n) ∧
    (t.index = .ofTracks t.tracks → (t.clips.map Clip.id).Nodup → t.Unnamed ids →
      (∀ steps, (desk.run steps).Sole (requests steps)) ∧
      ∀ before between i j, ((desk.run before).removed i).Disjoint
        ((desk.run (before ++ .apply i :: between)).removed j)) ∧
    ∀ before step later n, step.merge? (desk.run before) = some n →
      ¬ (desk.run (before ++ step :: later)).Succeeds n →
        let was := (desk.run before).session
        ∃ count,
          ((desk.run before).step step).session = { was with ids := was.ids.skip count } := by
  intro desk
  have hexclusive (steps : List (Step α)) : (desk.run steps).Exclusive :=
    (Exclusive.ofSession _).run steps
  refine ⟨fun steps => ⟨hexclusive steps, (hexclusive steps).inFlight_eq_empty⟩,
    fun steps => (hexclusive steps).ends,
    fun steps n plan asset merged hstage hfree hmerge => ?_, fun hindex hnodup hids => ?_,
    fun before step later n hof hfails => ?_⟩
  · rw [run_append]
    refine succeeds_of_apply hstage (fun id hid hin => ?_) hmerge
    obtain ⟨m, hclaimed⟩ := ((hexclusive steps).mem_inFlight id).1 hin
    exact hfree m hid hclaimed
  · have hsteady : desk.session.Steady fun _ => True :=
      Session.start_steady trivial (Timeline.inStep_of_index_eq hindex hnodup) hids
    refine ⟨fun steps => ((Accounted.ofSession hsteady).run steps).toSole,
      fun before between i j => ?_⟩
    rw [run_append]
    exact removed_disjoint (run_steady hsteady before) i j between
  · refine ((desk.run before).stepsTo step).session_eq hof fun hsucceeds => hfails ?_
    rw [run_append]
    exact hsucceeds.run later

/-- Two merges of the same two sounds are begun before either claims them. -/
def pairBegun : List (Step Rat) :=
  Session.pairCalls.map .edit ++ [.plan "audio-1" ["x", "xx"], .plan "audio-1" ["xx", "x"]]

/-- The first merge replaces the sounds. -/
def pairFirst : List (Step Rat) :=
  [.claim 0, .answer 0 (.ok Session.pairAsset), .apply 0]

/-- The second merge claims the sounds after the first has let go of them. -/
def pairSecond : List (Step Rat) :=
  [.release 0, .claim 1, .answer 1 (.ok Session.pairAsset)]

def pairDesk : MergeDesk Rat :=
  .ofSession Session.blank

theorem pair_begun :
    (pairDesk.run pairBegun).merges[0]? = some (.planned Session.pairPlan) ∧
      (∀ m, (pairDesk.run pairBegun).claims m = []) ∧
      ((pairDesk.run pairBegun).session.applyMerge Session.pairPlan Session.pairAsset).1 =
        .ok "xxxxx" := by
  have hplan : ((Session.blank.run Session.pairCalls).planMerge "audio-1" ["x", "xx"]).1 =
      .ok Session.pairPlan := by
    have hstep := Session.planMerge_pair
    cases hmade : ((Session.blank.run Session.pairCalls).planMerge "audio-1" ["x", "xx"]).1 with
    | error refusal => simp [Session.step, Session.step.answer, hmade, Except.map] at hstep
    | ok plan => simpa [Session.step, Session.step.answer, hmade, Except.map] using hstep
  let placed : MergeDesk Rat := .ofSession (Session.blank.run Session.pairCalls)
  have hbegun : pairDesk.run pairBegun =
      (placed.plan "audio-1" ["x", "xx"]).plan "audio-1" ["xx", "x"] := rfl
  have hfirst : (placed.plan "audio-1" ["x", "xx"]).merges = [.planned Session.pairPlan] := by
    simp only [plan, placed, MergeDesk.ofSession, hplan, List.nil_append]
  obtain ⟨stage, hsecond, _⟩ :=
    (placed.plan "audio-1" ["x", "xx"]).plan_merges "audio-1" ["xx", "x"]
  refine ⟨?_, fun m => ?_, by decide +kernel⟩
  · rw [hbegun, hsecond, hfirst]
    rfl
  · rw [hbegun, claims_plan, claims_plan]
    rfl

theorem merges_exclude_pair :
    let t : Timeline Rat := .standard "p" 1
    (t.index = .ofTracks t.tracks ∧ (t.clips.map Clip.id).Nodup ∧ t.Unnamed .tally) ∧
      (pairDesk.run (pairBegun ++ pairFirst ++ pairSecond ++ [.apply 1])).Succeeds 0 ∧
      ¬ (pairDesk.run (pairBegun ++ pairFirst ++ pairSecond ++ [.apply 1])).Succeeds 1 ∧
      (pairDesk.run (pairBegun ++ pairFirst ++ pairSecond)).Exclusive ∧
      "x" ∈ (pairDesk.run (pairBegun ++ [.claim 0])).inFlight ∧
      (pairDesk.run (pairBegun ++ pairFirst ++ pairSecond ++ [.apply 1, .release 1])).inFlight = ∅ ∧
      let was := (pairDesk.run (pairBegun ++ pairFirst ++ pairSecond)).session
      ∃ count, ((pairDesk.run (pairBegun ++ pairFirst ++ pairSecond)).step (.apply 1)).session =
        { was with ids := was.ids.skip count } := by
  intro t
  have hindex : t.index = .ofTracks t.tracks := rfl
  have hnodup : (t.clips.map Clip.id).Nodup := by simp [t, Timeline.clips_standard]
  have hids : t.Unnamed .tally := Timeline.unnamed_standard IdSupply.fresh_tally "p" 1
  have hdesk : MergeDesk.ofSession (.start t .empty .standard .tally false) = pairDesk := rfl
  have hall := merges_exclude t .empty .standard .tally false
  simp only [hdesk] at hall
  obtain ⟨hclaims, hends, hfree, hfresh, hspares⟩ := hall
  obtain ⟨hstage, hnone, hmerge⟩ := pair_begun
  have happlied : (pairDesk.run (pairBegun ++ pairFirst)).Succeeds 0 := by
    refine hfree pairBegun 0 Session.pairPlan Session.pairAsset "xxxxx" hstage (fun m => ?_) hmerge
    rw [hnone m]
    exact List.disjoint_nil_right _
  have hfirst : (pairDesk.run (pairBegun ++ pairFirst ++ pairSecond ++ [.apply 1])).Succeeds 0 := by
    rw [run_append, run_append]
    exact (happlied.run pairSecond).run [.apply 1]
  have hsecond : ¬ (pairDesk.run (pairBegun ++ pairFirst ++ pairSecond ++ [.apply 1])).Succeeds 1 :=
    ((hfresh hindex hnodup hids).1 _).one_succeeds 0 1 ["x", "xx"] ["xx", "x"] "x" (by decide)
      rfl rfl (by decide) (by decide) hfirst
  have hclaimed : "x" ∈ (pairDesk.run (pairBegun ++ [.claim 0])).inFlight := by
    have hnobody : ∀ id ∈ Session.pairPlan.ids, id ∉ (pairDesk.run pairBegun).inFlight := by
      intro id _ hin
      obtain ⟨m, hclaimed⟩ := ((hclaims pairBegun).1.mem_inFlight id).1 hin
      simp [hnone m] at hclaimed
    have hclaim : pairDesk.run (pairBegun ++ [.claim 0]) = (pairDesk.run pairBegun).claim 0 :=
      run_append _ _ _
    rw [hclaim, claim_eq hstage hnobody]
    exact Std.ExtTreeSet.mem_insertMany_list.2 (.inr (by decide))
  -- Each of the two merges has come to its end.
  have hended : (pairDesk.run (pairBegun ++ pairFirst ++ pairSecond ++
      [.apply 1, .release 1])).inFlight = ∅ := by
    have hlength : (pairDesk.run pairBegun).merges.length = 2 := rfl
    obtain ⟨first, second, hbegun⟩ := List.length_eq_two.1 hlength
    obtain ⟨one, hone⟩ := (hends pairBegun 0).settle (by simp [hlength]) (.ok Session.pairAsset)
    have hmid : (pairDesk.run (pairBegun ++ pairFirst ++ [.release 0])).merges =
        [.finished one, second] := by
      refine hone.merges_eq.trans ?_
      rw [hbegun]
      rfl
    obtain ⟨two, htwo⟩ := (hends (pairBegun ++ pairFirst ++ [.release 0]) 1).settle
      (by rw [hmid]; exact Nat.one_lt_two) (.ok Session.pairAsset)
    have hmerges : (pairDesk.run (pairBegun ++ pairFirst ++ pairSecond ++
        [.apply 1, .release 1])).merges = [.finished one, .finished two] := by
      refine htwo.merges_eq.trans ?_
      rw [hmid]
      rfl
    refine (hclaims _).2 fun stage hstage => ?_
    rw [hmerges] at hstage
    rcases List.mem_pair.1 hstage with rfl | rfl
    · exact ⟨one, rfl⟩
    · exact ⟨two, rfl⟩
  exact ⟨⟨hindex, hnodup, hids⟩, hfirst, hsecond,
    (hclaims (pairBegun ++ pairFirst ++ pairSecond)).1, hclaimed, hended,
    hspares (pairBegun ++ pairFirst ++ pairSecond) (.apply 1) [] 1 rfl hsecond⟩

end MergeDesk

end Montage
