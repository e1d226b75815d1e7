import Montage.Proofs.Entries
import Montage.Proofs.Steps

/-!
# Timelines that sessions make

Every edit and every release is a row of changes to single clips. What holds of all that is made
from tracks and changed clip by clip therefore holds of every timeline of a session, be it
consistent or not.
-/

namespace Montage

variable {α : Type} [Scalar α]

namespace Timeline

/-! ## Edits as rows of changes -/

/-- The timeline was made from tracks, and its clips were changed in some way since. -/
def Made (t : Timeline α) : Prop :=
  ∃ (first : Timeline α) (changes : List (ClipChange α)),
    first.index = .ofTracks first.tracks ∧ t = first.changeAll changes

variable {t next : Timeline α} {settings : EditorSettings α} {ids left : IdSupply}

theorem made_of_index_eq (hindex : t.index = .ofTracks t.tracks) : t.Made :=
  ⟨t, [], hindex, rfl⟩

theorem Made.truthful (h : t.Made) : t.Truthful := by
  obtain ⟨first, changes, hindex, rfl⟩ := h
  exact (truthful_of_index_eq hindex).changeAll changes

theorem Made.changeAll (h : t.Made) (changes : List (ClipChange α)) :
    (t.changeAll changes).Made := by
  obtain ⟨first, before, hindex, rfl⟩ := h
  refine ⟨first, before ++ changes, hindex, ?_⟩
  simp only [Timeline.changeAll, List.foldl_append]

theorem Made.erase (h : t.Made) (ids : List ClipId) : (ids.foldl erase t).Made := by
  have hrow : ids.foldl Timeline.erase t = t.changeAll (ids.map .remove) := by
    rw [Timeline.changeAll, List.foldl_map]
    rfl
  rw [hrow]
  exact h.changeAll _

theorem Made.modify (h : t.Made) {β : Type} (key : β → ClipId) (change : β → Clip α → Clip α)
    (entries : List β) :
    (entries.foldl (fun t entry => t.modify (key entry) (change entry)) t).Made := by
  have hrow : entries.foldl (fun t entry => t.modify (key entry) (change entry)) t =
      t.changeAll (entries.map fun entry => .modify (key entry) (change entry)) := by
    rw [Timeline.changeAll, List.foldl_map]
    rfl
  rw [hrow]
  exact h.changeAll _

theorem Made.insertAll (h : t.Made) {clips : List (Clip α)} {fault : Rejection α → Fault α}
    (hinsert : t.insertAll clips fault = .ok next) : next.Made := by
  unfold Timeline.insertAll at hinsert
  induction clips generalizing t with
  | nil =>
      cases hinsert
      exact h
  | cons clip clips ih =>
      rw [List.foldlM_cons] at hinsert
      cases hfirst : t.insert clip with
      | error rejection =>
          rw [hfirst] at hinsert
          cases hinsert
      | ok mid =>
          rw [hfirst] at hinsert
          have hmid : t.changeAll [.insert clip] = mid := by
            simp [Timeline.changeAll, Timeline.change, hfirst, Except.toOption]
          exact ih (hmid ▸ h.changeAll [.insert clip]) hinsert

/-! ## Edits -/

theorem place_made (h : t.Made) {asset : Asset α} {hint : Option TrackId} {drop : Drop α}
    {placed : Placed α}
    (hplace : t.place asset hint drop settings ids = (.ok (placed, next), left)) : next.Made := by
  obtain ⟨_, _, hinsert, _⟩ := place_spec hplace
  exact h.insertAll hinsert

theorem split_made (h : t.Made) {id : ClipId} {instant ε : α} {rights : List ClipId}
    (hsplit : t.split id instant ε ids = (.ok (some (rights, next)), left)) : next.Made := by
  obtain ⟨clips, _, _, hinsert, _⟩ := split_spec hsplit
  have hshort : (t.shorten clips instant).Made :=
    h.modify Clip.id (fun _ c => { c with stop := instant }) clips
  exact hshort.insertAll hinsert

theorem delete_made (h : t.Made) {selection : ClipSet} {removed : List ClipId}
    (hdelete : t.delete selection = .ok (removed, next)) : next.Made := by
  obtain ⟨closed, _, _, rfl⟩ := delete_spec hdelete
  exact h.erase closed.toList

theorem setVolume_made (h : t.Made) {id : ClipId} {volume : α}
    (hset : t.setVolume id volume = .ok next) : next.Made := by
  obtain ⟨_, _, rfl⟩ := setVolume_spec hset
  exact h.modify (fun id => id) (fun _ c => { c with volume := volume }) [id]

theorem setSpeed_made (h : t.Made) {id : ClipId} {speed : α}
    (hset : t.setSpeed id speed = .ok next) : next.Made := by
  obtain ⟨_, _, clip, _, rfl⟩ := setSpeed_spec hset
  exact h.modify (fun id => id) (fun _ c => { c with speed := speed })
    (clip.id :: clip.link.toList)

theorem applyMerge_made (h : t.Made) {plan : MergePlan α} {asset : Asset α} {merged : ClipId}
    (hmerge : t.applyMerge plan asset settings ids = (.ok (merged, next), left)) : next.Made := by
  obtain ⟨_, hinsert, _⟩ := applyMerge_spec hmerge
  exact (h.erase plan.ids).insertAll hinsert

theorem Edit.made (h : t.Made) {Planned : MergePlan α → Prop}
    (hedit : t.Edit settings Planned ids next left) : next.Made := by
  cases hedit with
  | place hplace => exact place_made h hplace
  | split hsplit => exact split_made h hsplit
  | delete hdelete _ => exact delete_made h hdelete
  | setVolume hset _ => exact setVolume_made h hset
  | setSpeed hset _ => exact setSpeed_made h hset
  | applyMerge _ hmerge => exact applyMerge_made h hmerge

theorem release_made (h : t.Made) {drag : Drag α} {delta : α}
    (hrelease : drag.release t settings = .moved next delta) : next.Made := by
  obtain ⟨_, _, rfl⟩ := release_spec hrelease
  exact h.modify Held.clip
    (fun held c => { c with start := held.start + delta, stop := held.stop + delta }) drag.held

end Timeline

/-! ## Runs -/

namespace Session

variable {s next : Session α}

theorem Advance.made {Planned : MergePlan α → Prop} (h : s.timeline.Made)
    (hadvance : s.Advance Planned next) : next.timeline.Made := by
  cases hadvance with
  | rest _ _ htimeline _ => exact htimeline ▸ h
  | press _ _ htimeline _ => exact htimeline ▸ h
  | pull _ _ htimeline _ => exact htimeline ▸ h
  | letGo _ htimeline _ => exact htimeline ▸ h
  | release _ hrelease _ _ => exact Timeline.release_made h hrelease
  | edit hedit _ => exact hedit.made h

theorem step_made (h : s.timeline.Made) (call : Call α) : (s.step call).2.timeline.Made := by
  have hadvance : s.Advance (fun _ => True) (s.step call).2 :=
    step_advance s call fun _ _ _ => trivial
  exact hadvance.made h

theorem run_made (h : s.timeline.Made) (calls : List (Call α)) : (s.run calls).timeline.Made := by
  induction calls generalizing s with
  | nil => exact h
  | cons call calls ih => exact ih (step_made h call)

end Session

end Montage
