import Mathlib.Data.List.Nodup
import Montage.Proofs.Edits

/-!
# What becomes of a clip

An edit drops clips, makes new ones under fresh ids, and lets the others go on: the media, the track
and the link of a clip never change, and only a release moves its start.
-/

namespace Montage

variable {α : Type}

/-! ## Fresh ids -/

namespace IdSupply

/-- The names that are taken next. -/
def upcoming (ids : IdSupply) (count : Nat) : List String :=
  (List.range count).map fun n => ids.name (ids.used + n)

@[simp]
theorem skip_skip (ids : IdSupply) (m n : Nat) : (ids.skip m).skip n = ids.skip (m + n) := by
  simp [skip, Nat.add_assoc]

theorem mem_upcoming {ids : IdSupply} {count : Nat} {name : String} :
    name ∈ ids.upcoming count ↔ ∃ n, ids.used ≤ n ∧ n < ids.used + count ∧ ids.name n = name := by
  simp only [upcoming, List.mem_map, List.mem_range]
  constructor
  · rintro ⟨n, hn, rfl⟩
    exact ⟨ids.used + n, by omega, by omega, rfl⟩
  · rintro ⟨n, hle, hlt, rfl⟩
    exact ⟨n - ids.used, by omega, by rw [Nat.add_sub_cancel' hle]⟩

/-- A supply stays fresh when names are taken and only those come into use. -/
theorem Fresh.skip {ids : IdSupply} {inUse inUse' : String → Prop} (h : ids.Fresh inUse)
    (count : Nat) (hused : ∀ name, inUse' name → inUse name ∨ name ∈ ids.upcoming count) :
    (ids.skip count).Fresh inUse' where
  injective := h.injective
  unused n hn hname := by
    have hle : ids.used ≤ n := Nat.le_trans (Nat.le_add_right _ count) hn
    rcases hused _ hname with hold | hnew
    · exact h.unused n hle hold
    · obtain ⟨m, _, hlt, heq⟩ := mem_upcoming.1 hnew
      have hmn := h.injective m n heq
      have hn : ids.used + count ≤ n := hn
      omega

theorem Fresh.nodup_upcoming {ids : IdSupply} {inUse : String → Prop} (h : ids.Fresh inUse)
    (count : Nat) : (ids.upcoming count).Nodup :=
  List.nodup_range.map fun m n heq => by
    have hmn := h.injective _ _ heq
    omega

/-- Names that are rows of strokes, the row as long as the number of the name. -/
def tally : IdSupply where
  name n := String.ofList (List.replicate n 'x')
  used := 1

theorem fresh_tally_of_strokeless {inUse : String → Prop}
    (h : ∀ name, inUse name → 'x' ∉ name.toList) : tally.Fresh inUse where
  injective m n heq := by
    have hlength := congrArg String.length heq
    simpa [tally] using hlength
  unused n hn hname := by
    have hstroke := h _ hname
    rw [tally, String.toList_ofList, List.mem_replicate] at hstroke
    exact hstroke ⟨Nat.ne_of_gt hn, rfl⟩

theorem fresh_tally : tally.Fresh fun _ => False :=
  fresh_tally_of_strokeless fun _ h => h.elim

end IdSupply

namespace Timeline

/-- The names that are still to come are no clip's. -/
def Unnamed (t : Timeline α) (ids : IdSupply) : Prop :=
  ids.Fresh fun name => ∃ clip ∈ t.clips, clip.id = name

theorem unnamed_tally {t : Timeline α} (h : ∀ clip ∈ t.clips, 'x' ∉ clip.id.toList) :
    t.Unnamed .tally :=
  IdSupply.fresh_tally_of_strokeless fun _ ⟨clip, hclip, hid⟩ => hid ▸ h clip hclip

theorem Unnamed.skip {t : Timeline α} {ids : IdSupply} (h : t.Unnamed ids) (count : Nat) :
    t.Unnamed (ids.skip count) :=
  IdSupply.Fresh.skip h count fun _ hname => .inl hname

theorem Unnamed.ne {t : Timeline α} {ids : IdSupply} (h : t.Unnamed ids) {count : Nat}
    {name : String} (hname : name ∈ ids.upcoming count) {clip : Clip α} (hclip : clip ∈ t.clips) :
    clip.id ≠ name := by
  rintro rfl
  obtain ⟨n, hn, _, heq⟩ := IdSupply.mem_upcoming.1 hname
  exact h.unused n hn ⟨clip, hclip, heq.symm⟩

theorem Revision.unnamed {t next : Timeline α} {keep : Clip α → Bool} {alter : Clip α → Clip α}
    {new : List (Clip α)} (hrevision : t.Revision keep alter new next) {ids : IdSupply}
    (h : t.Unnamed ids) (halter : ∀ clip, (alter clip).id = clip.id) {count : Nat}
    (hnew : ∀ clip ∈ new, clip.id ∈ ids.upcoming count) : next.Unnamed (ids.skip count) := by
  refine IdSupply.Fresh.skip h count ?_
  rintro _ ⟨clip, hclip, rfl⟩
  rcases hrevision.mem_clips.1 hclip with ⟨old, hold, _, rfl⟩ | hclip
  · exact .inl ⟨old, hold, (halter old).symm⟩
  · exact .inr (hnew clip hclip)

end Timeline

/-! ## Clips that go on -/

/-- The clip is another one at a later time: what no edit alters is the same. -/
structure Clip.Continues (clip old : Clip α) : Prop where
  id_eq : clip.id = old.id
  track_eq : clip.track = old.track
  source_eq : clip.source = old.source
  offset_eq : clip.offset = old.offset
  medium_eq : clip.medium = old.medium
  layer_eq : clip.layer = old.layer
  link_eq : clip.link = old.link

namespace Clip.Continues

theorem refl (clip : Clip α) : clip.Continues clip :=
  ⟨rfl, rfl, rfl, rfl, rfl, rfl, rfl⟩

theorem trans {clip mid old : Clip α} (h : clip.Continues mid) (h' : mid.Continues old) :
    clip.Continues old where
  id_eq := h.id_eq.trans h'.id_eq
  track_eq := h.track_eq.trans h'.track_eq
  source_eq := h.source_eq.trans h'.source_eq
  offset_eq := h.offset_eq.trans h'.offset_eq
  medium_eq := h.medium_eq.trans h'.medium_eq
  layer_eq := h.layer_eq.trans h'.layer_eq
  link_eq := h.link_eq.trans h'.link_eq

end Clip.Continues

namespace Timeline

/-! ## Edits -/

/-- An edit that succeeds, with what is left of the ids. Plans are those of a given kind. -/
inductive Edit [Scalar α] (settings : EditorSettings α) (Planned : MergePlan α → Prop)
    (t : Timeline α) (ids : IdSupply) (next : Timeline α) (left : IdSupply) : Prop
  | place {asset hint drop placed}
      (h : t.place asset hint drop settings ids = (.ok (placed, next), left))
  | split {clip instant rights}
      (h : t.split clip instant settings.tolerance ids = (.ok (some (rights, next)), left))
  | delete {selection removed} (h : t.delete selection = .ok (removed, next)) (hleft : left = ids)
  | setVolume {clip volume} (h : t.setVolume clip volume = .ok next) (hleft : left = ids)
  | setSpeed {clip speed} (h : t.setSpeed clip speed = .ok next) (hleft : left = ids)
  | applyMerge {plan asset merged} (hplan : Planned plan)
      (h : t.applyMerge plan asset settings ids = (.ok (merged, next), left))

/-! ## What an edit leaves alone -/

section Alterations

theorem cutShort_continues (ids : List ClipId) (instant : α) (clip : Clip α) :
    (cutShort ids instant clip).Continues clip ∧
      (cutShort ids instant clip).start = clip.start := by
  unfold cutShort
  split <;> exact ⟨⟨rfl, rfl, rfl, rfl, rfl, rfl, rfl⟩, rfl⟩

theorem amend_volume_continues (id : ClipId) (volume : α) (clip : Clip α) :
    (amend id (fun c => { c with volume := volume }) clip).Continues clip ∧
      (amend id (fun c => { c with volume := volume }) clip).start = clip.start := by
  unfold amend
  split <;> exact ⟨⟨rfl, rfl, rfl, rfl, rfl, rfl, rfl⟩, rfl⟩

theorem retime_continues (ids : List ClipId) (speed : α) (clip : Clip α) :
    (retime ids speed clip).Continues clip ∧ (retime ids speed clip).start = clip.start := by
  unfold retime
  split <;> exact ⟨⟨rfl, rfl, rfl, rfl, rfl, rfl, rfl⟩, rfl⟩

theorem amend_volume_span (id : ClipId) (volume : α) (clip : Clip α) :
    (amend id (fun c => { c with volume := volume }) clip).span = clip.span := by
  unfold amend
  split <;> rfl

theorem retime_span (ids : List ClipId) (speed : α) (clip : Clip α) :
    (retime ids speed clip).span = clip.span := by
  unfold retime
  split <;> rfl

theorem dropped_continues [Scalar α] (held : List (Held α)) (delta : α) (clip : Clip α) :
    (dropped held delta clip).Continues clip := by
  unfold dropped
  split <;> exact ⟨rfl, rfl, rfl, rfl, rfl, rfl, rfl⟩

end Alterations

variable [Scalar α] {settings : EditorSettings α} {Planned : MergePlan α → Prop}
  {t next : Timeline α} {ids left : IdSupply}

/-! ## Ids that are taken -/

theorem place_ids {asset : Asset α} {hint : Option TrackId} {drop : Drop α}
    {result : Except (Refusal α) (Placed α × Timeline α)}
    (h : t.place asset hint drop settings ids = (result, left)) :
    ∃ count, left = ids.skip count := by
  unfold place at h
  split at h
  · cases h
    exact ⟨0, rfl⟩
  · simp only [IdSupply.take] at h
    exact ⟨_, (Prod.mk.inj h).2.symm.trans (IdSupply.skip_skip ..)⟩

theorem split_ids {id : ClipId} {instant ε : α}
    {result : Except (Refusal α) (Option (List ClipId × Timeline α))}
    (h : t.split id instant ε ids = (result, left)) : ∃ count, left = ids.skip count := by
  unfold split at h
  split at h
  · cases h
    exact ⟨0, rfl⟩
  · cases h
    exact ⟨0, rfl⟩
  · exact ⟨_, (Prod.mk.inj h).2.symm⟩

theorem planMerge_ids (t : Timeline α) (track : TrackId) (clips : List ClipId) (ids : IdSupply) :
    ∃ count, (t.planMerge track clips ids).2 = ids.skip count := by
  unfold planMerge
  split
  · exact ⟨0, rfl⟩
  · exact ⟨1, rfl⟩

theorem applyMerge_ids {plan : MergePlan α} {asset : Asset α}
    {result : Except (Refusal α) (ClipId × Timeline α)}
    (h : t.applyMerge plan asset settings ids = (result, left)) :
    ∃ count, left = ids.skip count := by
  unfold applyMerge at h
  split at h
  · cases h
    exact ⟨0, rfl⟩
  · exact ⟨1, (Prod.mk.inj h).2.symm⟩

theorem map_id_clipsAt (site : Site α) (asset : Asset α) (mediaRoot : String) (ids : IdSupply) :
    (clipsAt site asset mediaRoot ids.next (ids.skip 1).next).map Clip.id =
      ids.upcoming (clipsAt site asset mediaRoot ids.next (ids.skip 1).next).length := by
  unfold clipsAt
  cases site.partner <;> rfl

theorem map_id_rightHalves (clips : List (Clip α)) (instant : α) (ids : IdSupply) :
    (rightHalves clips instant ids.next (ids.skip 1).next).map Clip.id =
      ids.upcoming (rightHalves clips instant ids.next (ids.skip 1).next).length := by
  match clips with
  | [] => rfl
  | [_] => rfl
  | _ :: _ :: _ => rfl

/-- New clips stand under fresh ids, and all others go on where they start. -/
theorem Edit.lineage (h : t.InStep) (hedit : t.Edit settings Planned ids next left) :
    ∃ keep alter new, t.Revision keep alter new next ∧
      (∀ clip, (alter clip).Continues clip ∧ (alter clip).start = clip.start) ∧
      left = ids.skip new.length ∧ new.map Clip.id = ids.upcoming new.length := by
  cases hedit with
  | place hplace =>
      obtain ⟨site, _, hrevision, hleft⟩ := place_revision h hplace
      exact ⟨_, _, _, hrevision, fun clip => ⟨.refl clip, rfl⟩, hleft, map_id_clipsAt ..⟩
  | split hsplit =>
      obtain ⟨clips, _, _, hrevision, hleft⟩ := split_revision h hsplit
      exact ⟨_, _, _, hrevision, cutShort_continues _ _, hleft, map_id_rightHalves ..⟩
  | delete hdelete hleft =>
      obtain ⟨closed, _, _, hrevision⟩ := delete_revision h hdelete
      exact ⟨_, _, _, hrevision, fun clip => ⟨.refl clip, rfl⟩, hleft, rfl⟩
  | setVolume hset hleft =>
      obtain ⟨_, hrevision⟩ := setVolume_revision h hset
      exact ⟨_, _, _, hrevision, amend_volume_continues _ _, hleft, rfl⟩
  | setSpeed hset hleft =>
      obtain ⟨_, clip, _, _, hrevision⟩ := setSpeed_revision h hset
      exact ⟨_, _, _, hrevision, retime_continues _ _, hleft, rfl⟩
  | applyMerge _ hmerge =>
      obtain ⟨_, hrevision, _, hleft⟩ := applyMerge_revision h hmerge
      exact ⟨_, _, _, hrevision, fun clip => ⟨.refl clip, rfl⟩, hleft, rfl⟩

end Timeline

end Montage
