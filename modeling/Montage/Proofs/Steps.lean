import Montage.Proofs.Outcomes

/-!
# What one call can do

A call on a session leaves the timeline as it is, edits it, or releases a drag onto it.
`Session.Advance` lists what becomes of the timeline, the drag and the ids; the selection, the
library and the outbox have no part in it.
-/

namespace Montage.Session

variable {α : Type}

variable [Scalar α]

/-! ## Advances -/

/-- What one call can make of a session, when the plans that it may apply are of a given kind. -/
inductive Advance (Planned : MergePlan α → Prop) (s next : Session α) : Prop
  | rest (count : Nat) (hids : next.ids = s.ids.skip count) (htimeline : next.timeline = s.timeline)
      (hdrag : next.drag = s.drag)
  | press {selection clip pointer drag}
      (h : Drag.start s.timeline selection clip pointer = .ok drag) (hids : next.ids = s.ids)
      (htimeline : next.timeline = s.timeline) (hdrag : next.drag = some drag)
  | pull {drag delta} (h : s.drag = some drag) (hids : next.ids = s.ids)
      (htimeline : next.timeline = s.timeline)
      (hdrag : next.drag = some { drag with delta := delta })
  | letGo (hids : next.ids = s.ids) (htimeline : next.timeline = s.timeline)
      (hdrag : next.drag = none)
  | release {drag delta} (h : s.drag = some drag)
      (hrelease : drag.release s.timeline s.settings = .moved next.timeline delta)
      (hids : next.ids = s.ids) (hdrag : next.drag = none)
  | edit (h : s.timeline.Edit s.settings Planned s.ids next.timeline next.ids)
      (hdrag : next.drag = s.drag)

variable {Planned : MergePlan α → Prop} {s next : Session α} {call : Call α}
  {answer : Except (Refusal α) (Answer α)}

theorem Outcome.advance (h : s.Outcome call answer next)
    (hplan : ∀ plan asset, call = .applyMerge plan asset → Planned plan) :
    s.Advance Planned next := by
  cases h with
  | refuse hrefuses =>
      obtain ⟨count, rfl⟩ := hrefuses.exists_skip
      exact .rest count rfl rfl rfl
  | @plan track clips _ _ hmade =>
      obtain ⟨count, hids⟩ := s.timeline.planMerge_ids track clips s.ids
      rw [hmade] at hids
      exact .rest count hids rfl rfl
  | splitNothing hsplit =>
      obtain ⟨count, rfl⟩ := Timeline.split_ids hsplit
      exact .rest count rfl rfl rfl
  | press _ hstart => exact .press hstart rfl rfl rfl
  | pull hdrag => exact .pull hdrag rfl rfl rfl
  | snapBack => exact .letGo rfl rfl rfl
  | drop => exact .letGo rfl rfl rfl
  | move _ hdrag hrelease => exact .release hdrag hrelease rfl rfl
  | edit hedits => exact .edit (hedits.edit hplan) rfl
  | _ => exact .rest 0 rfl rfl rfl

theorem Outcome.settings_eq (h : s.Outcome call answer next) : next.settings = s.settings := by
  cases h <;> rfl

/-! ## Steps -/

/-- Every call advances the session. -/
theorem step_advance (s : Session α) (call : Call α)
    (hplan : ∀ plan asset, call = .applyMerge plan asset → Planned plan) :
    s.Advance Planned (s.step call).2 :=
  (s.step_outcome call).advance hplan

theorem applyMerge_advance (s : Session α) {plan : MergePlan α} (hplan : Planned plan)
    (asset : Asset α) : s.Advance Planned (s.applyMerge plan asset).2 :=
  s.step_advance (.applyMerge plan asset) fun _ _ heq => by
    cases heq
    exact hplan

theorem step_settings (s : Session α) (call : Call α) : (s.step call).2.settings = s.settings :=
  (s.step_outcome call).settings_eq

end Montage.Session
