import Mathlib.Data.List.Forall2
import Mathlib.GroupTheory.Perm.List
import Montage.Editing.Split
import Montage.Proofs.Lineage

/-!
# Timelines that differ in names only

The ids of new clips say when the clips were made. Two orders of the same edits therefore give their
clips different ids, and put them on their tracks in different orders: neither means anything.
-/

namespace Montage

variable {α : Type}

/-! ## Renaming -/

/-- The clip with its id renamed, and the id of its partner. -/
def Clip.rename (σ : ClipId → ClipId) (clip : Clip α) : Clip α :=
  { clip with id := σ clip.id, link := clip.link.map σ }

theorem Clip.rename_of_fixed {σ : ClipId → ClipId} {clip : Clip α} (hid : σ clip.id = clip.id)
    (hlink : ∀ link, clip.link = some link → σ link = link) : clip.rename σ = clip := by
  have hmap : clip.link.map σ = clip.link := by
    cases h : clip.link with
    | none => rfl
    | some link => rw [Option.map_some, hlink link h]
  rw [rename, hid, hmap]

namespace Timeline

theorem map_rename_rightHalves [Scalar α] (σ : ClipId → ClipId) (clips : List (Clip α)) (instant : α)
    (id partnerId : ClipId) :
    (rightHalves clips instant id partnerId).map (Clip.rename σ) =
      rightHalves clips instant (σ id) (σ partnerId) := by
  match clips with
  | [] => rfl
  | [_] => rfl
  | _ :: _ :: _ => rfl

/-- The second timeline is the first with ids renamed, up to the order of the clips of a track. -/
structure Matches (σ : Equiv.Perm ClipId) (t next : Timeline α) : Prop where
  inStep : t.InStep
  inStep_next : next.InStep
  id_eq : next.id = t.id
  captions_eq : next.captions = t.captions
  shapes_eq : next.shapes = t.shapes
  tracks : List.Forall₂ (fun track other => other.id = track.id ∧ other.kind = track.kind ∧
    (track.clips.map (Clip.rename σ)).Perm other.clips) t.tracks next.tracks

/-- Revisions that differ in the names of new clips, and in their order, give timelines that match. -/
theorem Revision.matches {t next other : Timeline α} {keep : Clip α → Bool}
    {alter : Clip α → Clip α} {new new' : List (Clip α)} {σ : Equiv.Perm ClipId}
    (h : t.Revision keep alter new next) (h' : t.Revision keep alter new' other)
    (hfixed : ∀ clip ∈ t.clips, (alter clip).rename σ = alter clip)
    (hnew : (new.map (Clip.rename σ)).Perm new') : next.Matches σ other where
  inStep := h.inStep
  inStep_next := h'.inStep
  id_eq := h'.id_eq.trans h.id_eq.symm
  captions_eq := h'.captions_eq.trans h.captions_eq.symm
  shapes_eq := h'.shapes_eq.trans h.shapes_eq.symm
  tracks := by
    have hlength : next.tracks.length = other.tracks.length := by
      have hids := congrArg List.length (h.map_id_tracks.trans h'.map_id_tracks.symm)
      simpa using hids
    refine List.forall₂_iff_get.2 ⟨hlength, fun i hi hi' => ?_⟩
    obtain ⟨track, htrack, hnext⟩ :=
      Option.map_eq_some_iff.1 ((h.getElem?_tracks i).symm.trans (List.getElem?_eq_getElem hi))
    obtain ⟨_, hsame, hother⟩ :=
      Option.map_eq_some_iff.1 ((h'.getElem?_tracks i).symm.trans (List.getElem?_eq_getElem hi'))
    rw [htrack] at hsame
    cases hsame
    rw [List.get_eq_getElem, List.get_eq_getElem, ← hnext, ← hother]
    refine ⟨rfl, rfl, ?_⟩
    have hold : ((track.clips.filter keep).map alter).map (Clip.rename σ) =
        (track.clips.filter keep).map alter := by
      rw [List.map_map]
      refine List.map_congr_left fun clip hclip => hfixed clip (Timeline.mem_clips.2 ?_)
      exact ⟨track, List.mem_of_getElem? htrack, (List.mem_filter.1 hclip).1⟩
    have hmoved : (new.filter (t.home? · = some i)).map (Clip.rename σ) =
        (new.map (Clip.rename σ)).filter (t.home? · = some i) := by
      rw [List.filter_map]
      rfl
    simp only [Track.revise, List.map_append, hold, hmoved]
    exact (hnew.filter _).append_left _

end Timeline

/-! ## Turning names -/

/-- Upcoming names are turned by one place: the first becomes the last, every other the one before. -/
theorem IdSupply.exists_turn {ids : IdSupply} (hinj : ∀ m n, ids.name m = ids.name n → m = n)
    (count : Nat) :
    ∃ σ : Equiv.Perm String, (∀ name, name ∉ ids.upcoming (count + 1) → σ name = name) ∧
      σ ids.next = (ids.skip count).next ∧
      ∀ i < count, σ ((ids.skip (i + 1)).next) = (ids.skip i).next := by
  have hnodup : (ids.upcoming (count + 1)).Nodup :=
    List.nodup_range.map fun m n heq => by
      have hmn := hinj _ _ heq
      omega
  have hlength : (ids.upcoming (count + 1)).length = count + 1 := by simp [upcoming]
  have hget (i : Nat) (hi : i < (ids.upcoming (count + 1)).length) :
      (ids.upcoming (count + 1))[i] = (ids.skip i).next := by
    simp [upcoming, next, skip]
  refine ⟨(ids.upcoming (count + 1)).formPerm⁻¹, fun name hname => ?_, ?_, fun i hi => ?_⟩
  · rw [Equiv.Perm.inv_eq_iff_eq, List.formPerm_apply_of_notMem hname]
  · have hlast := List.formPerm_apply_getElem _ hnodup count (by omega)
    simp only [hget, hlength, Nat.mod_self] at hlast
    rw [Equiv.Perm.inv_eq_iff_eq, hlast]
    rfl
  · have hstep := List.formPerm_apply_getElem _ hnodup i (by omega)
    simp only [hget, hlength, Nat.mod_eq_of_lt (Nat.succ_lt_succ hi)] at hstep
    rw [Equiv.Perm.inv_eq_iff_eq, hstep]

end Montage
