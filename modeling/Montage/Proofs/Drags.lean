import Montage.Proofs.Edits

/-!
# What a drag holds

A drag holds clips as they stood when the pointer went down, and with a clip its partner. Where a
release puts a clip can therefore be told from the timeline of that moment.
-/

namespace Montage

variable {α : Type}

namespace Drag

/-- The drag holds clips of the timeline as they stand there, and what their links lead to. -/
def HeldFrom (d : Drag α) (first : Timeline α) : Prop :=
  ∃ closed, first.LinkClosed closed ∧
    d.held = (first.clips.filter fun clip => closed.contains clip.id).map fun clip =>
      ⟨clip.id, clip.track, clip.start, clip.stop⟩

/-- A drag begins at a selected clip, and holds what the links of the selection lead to. -/
theorem start_spec [Scalar α] {t : Timeline α} {selection : ClipSet} {clip : ClipId} {pointer : α}
    {drag : Drag α} (hstart : Drag.start t selection clip pointer = .ok drag) :
    (t.clip? clip).isSome ∧ clip ∈ selection ∧ ∃ closed,
      t.linkClosure selection.toList = .ok closed ∧
      drag.held = (t.clips.filter fun clip => closed.contains clip.id).map fun clip =>
        ⟨clip.id, clip.track, clip.start, clip.stop⟩ := by
  unfold Drag.start at hstart
  by_cases hclip : (t.clip? clip).isNone = true
  · rw [if_pos hclip] at hstart
    cases hstart
  by_cases hselected : (!selection.contains clip) = true
  · rw [if_neg hclip, if_pos hselected] at hstart
    cases hstart
  rw [if_neg hclip, if_neg hselected] at hstart
  cases hclosure : t.linkClosure selection.toList with
  | error refusal =>
      rw [hclosure] at hstart
      cases hstart
  | ok closed =>
      rw [hclosure] at hstart
      cases hstart
      have hmem : clip ∈ selection :=
        Std.ExtTreeSet.mem_iff_contains.2 (by simpa using hselected)
      exact ⟨by simpa [Option.isSome_iff_ne_none] using hclip, hmem, closed, rfl, rfl⟩

theorem start_heldFrom [Scalar α] {t : Timeline α} (h : t.InStep) {selection : ClipSet}
    {clip : ClipId} {pointer : α} {drag : Drag α}
    (hstart : Drag.start t selection clip pointer = .ok drag) : drag.HeldFrom t := by
  obtain ⟨_, _, closed, hclosure, hheld⟩ := start_spec hstart
  exact ⟨closed, (Timeline.linkClosure_collected h.findsById hclosure).1, hheld⟩

/-! ## Moving -/

/-- The drag after moves of the pointer, one after the other. -/
def moveAll [Scalar α] (d : Drag α) (t : Timeline α) (pointers : List α)
    (settings : EditorSettings α) : Drag α :=
  pointers.foldl (fun d pointer => d.move t pointer settings) d

/-- A move alters nothing but the shift. -/
theorem moveAll_eq [Scalar α] (d : Drag α) (t : Timeline α) (pointers : List α)
    (settings : EditorSettings α) :
    d.moveAll t pointers settings = { d with delta := (d.moveAll t pointers settings).delta } := by
  induction pointers generalizing d with
  | nil => rfl
  | cons pointer pointers ih => exact ih (d.move t pointer settings)

theorem HeldFrom.nodup_ids {d : Drag α} {first : Timeline α} (h : d.HeldFrom first)
    (hfirst : first.InStep) : d.ids.Nodup := by
  obtain ⟨closed, _, hheld⟩ := h
  have hids : d.ids = ((first.clips.filter fun clip => closed.contains clip.id).map Clip.id) := by
    rw [Drag.ids, hheld, List.map_map]
    rfl
  rw [hids]
  exact hfirst.nodup_ids.sublist (List.filter_sublist.map Clip.id)

/-! ## Where a release puts clips -/

/--
The clips with the ids of the set are held. A release puts them where they stood at first, plus the
shift, and leaves the others alone.
-/
structure Holds [Scalar α] (d : Drag α) (first : Timeline α) (closed : ClipSet) : Prop where
  linkClosed : first.LinkClosed closed
  mem_ids : ∀ id, id ∈ d.ids ↔ id ∈ closed
  mem_held : ∀ held, held ∈ d.held ↔
    ∃ old ∈ first.clips, old.id ∈ closed ∧ held = ⟨old.id, old.track, old.start, old.stop⟩
  moved : ∀ delta, ∀ old ∈ first.clips, ∀ clip : Clip α, old.id ∈ closed → clip.id = old.id →
    Timeline.dropped d.held delta clip =
      { clip with start := old.start + delta, stop := old.stop + delta }
  left : ∀ delta, ∀ clip : Clip α, clip.id ∉ closed → Timeline.dropped d.held delta clip = clip

theorem find?_held {d : Drag α} {first : Timeline α} (hfirst : first.InStep) {closed : ClipSet}
    (hheld : ∀ held, held ∈ d.held ↔
      ∃ old ∈ first.clips, old.id ∈ closed ∧ held = ⟨old.id, old.track, old.start, old.stop⟩)
    {old : Clip α} (hold : old ∈ first.clips) (hmem : old.id ∈ closed) :
    d.held.find? (·.clip = old.id) = some ⟨old.id, old.track, old.start, old.stop⟩ := by
  have hsome : (d.held.find? (·.clip = old.id)).isSome := by
    rw [List.find?_isSome]
    exact ⟨_, (hheld _).2 ⟨old, hold, hmem, rfl⟩, by simp⟩
  obtain ⟨held, hfound⟩ := Option.isSome_iff_exists.1 hsome
  have hown := List.find?_some hfound
  obtain ⟨other, hother, _, rfl⟩ := (hheld held).1 (List.mem_of_find?_eq_some hfound)
  have hother : other = old := hfirst.eq_of_id_eq hother hold (by simpa using hown)
  rw [hfound, hother]

theorem holds_of_held [Scalar α] {d : Drag α} {first : Timeline α} (hfirst : first.InStep)
    {closed : ClipSet} (hclosed : first.LinkClosed closed)
    (hheld : d.held = (first.clips.filter fun clip => closed.contains clip.id).map fun clip =>
      ⟨clip.id, clip.track, clip.start, clip.stop⟩) : d.Holds first closed := by
  have hids (id : ClipId) : id ∈ d.ids ↔ id ∈ closed := by
    simp only [ids, hheld, List.map_map, List.mem_map, List.mem_filter, Function.comp]
    constructor
    · rintro ⟨clip, ⟨_, hclip⟩, rfl⟩
      exact Std.ExtTreeSet.mem_iff_contains.2 hclip
    · intro hid
      obtain ⟨clip, hclip, _⟩ := hclosed id hid
      obtain ⟨hmem, rfl⟩ := hfirst.clip?_eq_some_iff.1 hclip
      exact ⟨clip, ⟨hmem, Std.ExtTreeSet.mem_iff_contains.1 hid⟩, rfl⟩
  have hmemHeld (held : Held α) : held ∈ d.held ↔
      ∃ old ∈ first.clips, old.id ∈ closed ∧ held = ⟨old.id, old.track, old.start, old.stop⟩ := by
    rw [hheld, List.mem_map]
    constructor
    · rintro ⟨old, hold, rfl⟩
      obtain ⟨hold, hmem⟩ := List.mem_filter.1 hold
      exact ⟨old, hold, Std.ExtTreeSet.mem_iff_contains.2 hmem, rfl⟩
    · rintro ⟨old, hold, hmem, rfl⟩
      exact ⟨old, List.mem_filter.2 ⟨hold, Std.ExtTreeSet.mem_iff_contains.1 hmem⟩, rfl⟩
  refine ⟨hclosed, hids, hmemHeld, fun delta old hold clip hmem hid => ?_,
    fun delta clip hclip => ?_⟩
  · simp only [Timeline.dropped, hid, find?_held hfirst hmemHeld hold hmem]
  · have hnone : d.held.find? (·.clip = clip.id) = none := by
      rw [List.find?_eq_none]
      intro held hin hown
      refine hclip ((hids clip.id).1 ?_)
      rw [← of_decide_eq_true hown]
      exact List.mem_map_of_mem hin
    simp only [Timeline.dropped, hnone]

theorem HeldFrom.holds [Scalar α] {d : Drag α} {first : Timeline α} (h : d.HeldFrom first)
    (hfirst : first.InStep) : ∃ closed, d.Holds first closed := by
  obtain ⟨closed, hclosed, hheld⟩ := h
  exact ⟨closed, holds_of_held hfirst hclosed hheld⟩

/-- An id that is held was a clip's at first, and what the clip linked to is held. -/
theorem Holds.exists_old [Scalar α] {d : Drag α} {first : Timeline α} {closed : ClipSet}
    (h : d.Holds first closed) (hfirst : first.InStep) {id : ClipId} (hid : id ∈ closed) :
    ∃ old ∈ first.clips, old.id = id ∧ ∀ link, old.link = some link → link ∈ closed := by
  obtain ⟨old, hfound, hlinks⟩ := h.linkClosed id hid
  obtain ⟨hold, hoid⟩ := hfirst.clip?_eq_some_iff.1 hfound
  exact ⟨old, hold, hoid, hlinks⟩

/-- A dragged clip plays when the one that it was at first played, later by the shift. -/
theorem Holds.span_moved [Scalar α] {d : Drag α} {first : Timeline α} {closed : ClipSet}
    (h : d.Holds first closed) (delta : α) {old clip : Clip α} (hold : old ∈ first.clips)
    (hmem : old.id ∈ closed) (hid : clip.id = old.id) :
    (Timeline.dropped d.held delta clip).span = old.span.shift delta := by
  rw [h.moved delta old hold clip hmem hid]
  rfl

end Drag

end Montage
