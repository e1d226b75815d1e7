import Montage.Proofs.Lineage
import Montage.Session.Call

/-!
# What a call can come to

`Session.Outcome` lists what a call can answer, with the session after it and what the timeline had to
say to it. Whatever holds of every call is proved of these cases, so that the calls themselves are
taken apart only here.
-/

namespace Montage

variable {α : Type}

/-- A call that ends a drag. -/
inductive Call.Releases : Call α → Prop
  | up : Releases .pointerUp
  | leave : Releases .pointerLeave

namespace Session

variable [Scalar α]

/-! ## Cases -/

/-- A call that places an asset: one of the library, or one that comes with the call. -/
inductive Places (s : Session α) (asset : Asset α) (hint : Option TrackId) (drop : Drop α) :
    Call α → Prop
  | named {id} (h : s.library.find? id = some asset) : Places s asset hint drop (.place id hint drop)
  | brought : Places s asset hint drop (.placeAsset asset hint drop)

/-- The selection that is dragged when the pointer goes down on a clip. -/
inductive Grasps (s : Session α) (clip : ClipId) : ClipSet → Prop
  | held (h : clip ∈ s.selection) : Grasps s clip s.selection
  | clicked {selection} (h : s.timeline.select s.selection clip false = .ok selection) :
      Grasps s clip selection

/-- Why a call is refused, and the ids that are left. -/
inductive Refuses (s : Session α) : Call α → Refusal α → IdSupply → Prop
  | unknown {id hint drop} (h : s.library.find? id = none) :
      Refuses s (.place id hint drop) (.assetNotFound id) s.ids
  | place {call asset hint drop refusal left} (hcall : s.Places asset hint drop call)
      (h : s.timeline.place asset hint drop s.settings s.ids = (.error refusal, left)) :
      Refuses s call refusal left
  | select {clip additive refusal}
      (h : s.timeline.select s.selection clip additive = .error refusal) :
      Refuses s (.select clip additive) refusal s.ids
  | press {clip pointer refusal} (h : s.timeline.select s.selection clip false = .error refusal) :
      Refuses s (.pointerDown clip pointer) refusal s.ids
  | split {clip instant refusal left}
      (h : s.timeline.split clip instant s.settings.tolerance s.ids = (.error refusal, left)) :
      Refuses s (.split clip instant) refusal left
  | delete {refusal} (h : s.timeline.delete s.selection = .error refusal) :
      Refuses s .deleteSelection refusal s.ids
  | setVolume {clip volume refusal} (h : s.timeline.setVolume clip volume = .error refusal) :
      Refuses s (.setVolume clip volume) refusal s.ids
  | setSpeed {clip speed refusal} (h : s.timeline.setSpeed clip speed = .error refusal) :
      Refuses s (.setSpeed clip speed) refusal s.ids
  | planMerge {track clips refusal left}
      (h : s.timeline.planMerge track clips s.ids = (.error refusal, left)) :
      Refuses s (.planMerge track clips) refusal left
  | applyMerge {plan asset refusal left}
      (h : s.timeline.applyMerge plan asset s.settings s.ids = (.error refusal, left)) :
      Refuses s (.applyMerge plan asset) refusal left

/-- What an edit answers, with the library, the timeline and the ids after it. -/
inductive Edits (s : Session α) :
    Call α → Answer α → Library α → Timeline α → IdSupply → Prop
  | place {call asset hint drop placed next left} (hcall : s.Places asset hint drop call)
      (h : s.timeline.place asset hint drop s.settings s.ids = (.ok (placed, next), left)) :
      Edits s call (.placed placed) (s.library.register asset) next left
  | split {clip instant rights next left}
      (h : s.timeline.split clip instant s.settings.tolerance s.ids =
        (.ok (some (rights, next)), left)) :
      Edits s (.split clip instant) (.rights rights) s.library next left
  | delete {removed next} (h : s.timeline.delete s.selection = .ok (removed, next))
      (hsome : removed.isEmpty = false) :
      Edits s .deleteSelection (.removed removed) s.library next s.ids
  | setVolume {clip volume next} (h : s.timeline.setVolume clip volume = .ok next) :
      Edits s (.setVolume clip volume) .done s.library next s.ids
  | setSpeed {clip speed next} (h : s.timeline.setSpeed clip speed = .ok next) :
      Edits s (.setSpeed clip speed) .done s.library next s.ids
  | applyMerge {plan asset merged next left}
      (h : s.timeline.applyMerge plan asset s.settings s.ids = (.ok (merged, next), left)) :
      Edits s (.applyMerge plan asset) (.merged merged) (s.library.register asset) next left

/-- What a call answers, and the session after it. -/
inductive Outcome (s : Session α) :
    Call α → Except (Refusal α) (Answer α) → Session α → Prop
  | refuse {call refusal left} (h : s.Refuses call refusal left) :
      Outcome s call (.error refusal) { s with ids := left }
  /-- The clip is selected, but the selection cannot be dragged. -/
  | slip {clip pointer selection refusal} (hgrasp : s.Grasps clip selection)
      (h : Drag.start s.timeline selection clip pointer = .error refusal) :
      Outcome s (.pointerDown clip pointer) (.error refusal) { s with selection }
  | register (asset : Asset α) : Outcome s (.register asset) (.ok .done) (s.register asset)
  | select {clip additive selection}
      (h : s.timeline.select s.selection clip additive = .ok selection) :
      Outcome s (.select clip additive) (.ok (.selection selection)) { s with selection }
  | clear : Outcome s .clearSelection (.ok .done) { s with selection := ∅ }
  | press {clip pointer selection drag} (hgrasp : s.Grasps clip selection)
      (h : Drag.start s.timeline selection clip pointer = .ok drag) :
      Outcome s (.pointerDown clip pointer) (.ok .done) { s with selection, drag := some drag }
  | hover {pointer} (h : s.drag = none) : Outcome s (.pointerMove pointer) (.ok (.shift none)) s
  | pull {pointer drag} (h : s.drag = some drag) :
      Outcome s (.pointerMove pointer)
        (.ok (.shift (some (drag.move s.timeline pointer s.settings).delta)))
        { s with drag := some (drag.move s.timeline pointer s.settings) }
  | lift {call} (hcall : call.Releases) (h : s.drag = none) :
      Outcome s call (.ok (.dragEnd none)) s
  | snapBack {call drag reason} (hcall : call.Releases) (h : s.drag = some drag)
      (hrelease : drag.release s.timeline s.settings = .snappedBack reason) :
      Outcome s call (.ok (.dragEnd (some (.snappedBack reason)))) { s with drag := none }
  | drop {call drag next delta} (hcall : call.Releases) (h : s.drag = some drag)
      (hrelease : drag.release s.timeline s.settings = .moved next delta)
      (hstill : (delta == 0) = true) :
      Outcome s call (.ok (.dragEnd (some (.moved delta)))) { s with drag := none }
  | move {call drag next delta} (hcall : call.Releases) (h : s.drag = some drag)
      (hrelease : drag.release s.timeline s.settings = .moved next delta)
      (hmoves : (delta == 0) = false) :
      Outcome s call (.ok (.dragEnd (some (.moved delta)))) ({ s with drag := none }.commit next)
  | plan {track clips plan left} (h : s.timeline.planMerge track clips s.ids = (.ok plan, left)) :
      Outcome s (.planMerge track clips) (.ok (.plan plan)) { s with ids := left }
  | splitNothing {clip instant left}
      (h : s.timeline.split clip instant s.settings.tolerance s.ids = (.ok none, left)) :
      Outcome s (.split clip instant) (.ok (.rights [])) { s with ids := left }
  | deleteNothing {next} (h : s.timeline.delete s.selection = .ok ([], next)) :
      Outcome s .deleteSelection (.ok (.removed [])) s
  | edit {call answer library next left} (h : s.Edits call answer library next left) :
      Outcome s call (.ok answer) ({ s with library, ids := left }.commit next)

/-! ## Calls -/

variable (s : Session α)

theorem placeAsset_outcome {asset : Asset α} {hint : Option TrackId} {drop : Drop α} {call : Call α}
    (hcall : s.Places asset hint drop call) :
    s.Outcome call ((s.placeAsset asset hint drop).1.map .placed)
      (s.placeAsset asset hint drop).2 := by
  unfold placeAsset
  split
  · rename_i h
    exact .refuse (.place hcall h)
  · rename_i h
    exact .edit (.place hcall h)

theorem place_outcome (id : AssetId) (hint : Option TrackId) (drop : Drop α) :
    s.Outcome (.place id hint drop) ((s.place id hint drop).1.map .placed)
      (s.place id hint drop).2 := by
  unfold place
  split
  · rename_i h
    exact .refuse (.unknown h)
  · rename_i h
    exact s.placeAsset_outcome (.named h)

theorem select_outcome (clip : ClipId) (additive : Bool) :
    s.Outcome (.select clip additive) ((s.select clip additive).1.map .selection)
      (s.select clip additive).2 := by
  unfold select
  split
  · rename_i h
    exact .refuse (.select h)
  · rename_i h
    exact .select h

theorem pointerDown_outcome (clip : ClipId) (pointer : α) :
    s.Outcome (.pointerDown clip pointer) ((s.pointerDown clip pointer).1.map fun _ => .done)
      (s.pointerDown clip pointer).2 := by
  have hbegin {selection : ClipSet} (hgrasp : s.Grasps clip selection) :
      s.Outcome (.pointerDown clip pointer)
        ((pointerDown.beginDrag clip pointer { s with selection }).1.map fun _ => .done)
        (pointerDown.beginDrag clip pointer { s with selection }).2 := by
    unfold pointerDown.beginDrag
    split
    · rename_i h
      exact .slip hgrasp h
    · rename_i h
      exact .press hgrasp h
  unfold pointerDown
  split
  · rename_i hselected
    exact hbegin (.held (Std.ExtTreeSet.mem_iff_contains.2 hselected))
  · unfold select
    cases hselect : s.timeline.select s.selection clip false with
    | error refusal => exact .refuse (.press hselect)
    | ok selection => exact hbegin (.clicked hselect)

theorem pointerMove_outcome (pointer : α) :
    s.Outcome (.pointerMove pointer) (.ok (.shift (s.pointerMove pointer).1))
      (s.pointerMove pointer).2 := by
  unfold pointerMove
  split
  · rename_i h
    exact .hover h
  · rename_i h
    exact .pull h

theorem pointerUp_outcome {call : Call α} (hcall : call.Releases) :
    s.Outcome call (.ok (.dragEnd s.pointerUp.1)) s.pointerUp.2 := by
  unfold pointerUp
  split
  · rename_i h
    exact .lift hcall h
  · rename_i h
    simp only
    split
    · rename_i hrelease
      exact .snapBack hcall h hrelease
    · rename_i hrelease
      split
      · rename_i hstill
        exact .drop hcall h hrelease hstill
      · rename_i hmoves
        exact .move hcall h hrelease (Bool.eq_false_iff.2 hmoves)

theorem split_outcome (clip : ClipId) (instant : α) :
    s.Outcome (.split clip instant) ((s.split clip instant).1.map .rights)
      (s.split clip instant).2 := by
  unfold split
  split
  · rename_i h
    exact .refuse (.split h)
  · rename_i h
    exact .splitNothing h
  · rename_i h
    exact .edit (.split h)

theorem deleteSelection_outcome :
    s.Outcome .deleteSelection (s.deleteSelection.1.map .removed) s.deleteSelection.2 := by
  unfold deleteSelection
  split
  · rename_i h
    exact .refuse (.delete h)
  · rename_i removed next h
    cases removed with
    | nil => exact .deleteNothing h
    | cons first rest => exact .edit (.delete h rfl)

theorem setVolume_outcome (clip : ClipId) (volume : α) :
    s.Outcome (.setVolume clip volume) ((s.setVolume clip volume).1.map fun _ => .done)
      (s.setVolume clip volume).2 := by
  unfold setVolume finish
  split
  · rename_i h
    exact .refuse (.setVolume h)
  · rename_i h
    exact .edit (.setVolume h)

theorem setSpeed_outcome (clip : ClipId) (speed : α) :
    s.Outcome (.setSpeed clip speed) ((s.setSpeed clip speed).1.map fun _ => .done)
      (s.setSpeed clip speed).2 := by
  unfold setSpeed finish
  split
  · rename_i h
    exact .refuse (.setSpeed h)
  · rename_i h
    exact .edit (.setSpeed h)

theorem planMerge_outcome (track : TrackId) (clips : List ClipId) :
    s.Outcome (.planMerge track clips) ((s.planMerge track clips).1.map .plan)
      (s.planMerge track clips).2 := by
  unfold planMerge
  cases hplan : s.timeline.planMerge track clips s.ids with
  | mk result left =>
      cases result with
      | error refusal => exact .refuse (.planMerge hplan)
      | ok plan => exact .plan hplan

theorem applyMerge_outcome (plan : MergePlan α) (asset : Asset α) :
    s.Outcome (.applyMerge plan asset) ((s.applyMerge plan asset).1.map .merged)
      (s.applyMerge plan asset).2 := by
  unfold applyMerge
  split
  · rename_i h
    exact .refuse (.applyMerge h)
  · rename_i h
    exact .edit (.applyMerge h)

/-- A call comes to one of its outcomes. -/
theorem step_outcome (call : Call α) : s.Outcome call (s.step call).1 (s.step call).2 := by
  cases call with
  | register asset => exact .register asset
  | place asset hint drop => exact s.place_outcome asset hint drop
  | placeAsset asset hint drop => exact s.placeAsset_outcome .brought
  | select clip additive => exact s.select_outcome clip additive
  | clearSelection => exact .clear
  | pointerDown clip pointer => exact s.pointerDown_outcome clip pointer
  | pointerMove pointer => exact s.pointerMove_outcome pointer
  | pointerUp => exact s.pointerUp_outcome .up
  | pointerLeave => exact s.pointerUp_outcome .leave
  | split clip instant => exact s.split_outcome clip instant
  | deleteSelection => exact s.deleteSelection_outcome
  | setVolume clip volume => exact s.setVolume_outcome clip volume
  | setSpeed clip speed => exact s.setSpeed_outcome clip speed
  | planMerge track clips => exact s.planMerge_outcome track clips
  | applyMerge plan asset => exact s.applyMerge_outcome plan asset

variable {s} {call : Call α} {refusal : Refusal α} {answer : Answer α} {library : Library α}
  {next : Timeline α} {left : IdSupply}

theorem Refuses.exists_skip (h : s.Refuses call refusal left) :
    ∃ count, left = s.ids.skip count := by
  cases h with
  | place _ hplace => exact Timeline.place_ids hplace
  | split hsplit => exact Timeline.split_ids hsplit
  | @planMerge track clips _ _ hplan =>
      obtain ⟨count, hids⟩ := s.timeline.planMerge_ids track clips s.ids
      rw [hplan] at hids
      exact ⟨count, hids⟩
  | applyMerge hmerge => exact Timeline.applyMerge_ids hmerge
  | _ => exact ⟨0, rfl⟩

theorem Edits.edit {Planned : MergePlan α → Prop} (h : s.Edits call answer library next left)
    (hplan : ∀ plan asset, call = .applyMerge plan asset → Planned plan) :
    s.timeline.Edit s.settings Planned s.ids next left := by
  cases h with
  | place _ hplace => exact .place hplace
  | split hsplit => exact .split hsplit
  | delete hdelete => exact .delete hdelete rfl
  | setVolume hset => exact .setVolume hset rfl
  | setSpeed hset => exact .setSpeed hset rfl
  | @applyMerge plan asset _ _ _ hmerge => exact .applyMerge (hplan plan asset rfl) hmerge

end Session

end Montage
