import Montage.Proofs.Cuts
import Montage.Proofs.Landings
import Montage.Proofs.Made
import Montage.Proofs.Requests

/-!
# Pieces

In every project, also where clips share an id or a clip is linked to itself, each clip that stands
after a split stood before it or is a piece of one that did.
-/

namespace Montage.Timeline

/-! ## Places of clips that are altered -/

theorem clipAt?_modify {α : Type} {t : Timeline α} {id : ClipId} {change : Clip α → Clip α}
    {place : Location} {piece : Clip α} (h : (t.modify id change).clipAt? place = some piece) :
    t.clipAt? place = some piece ∨ t.locate? id = some place ∧
      ∃ clip, t.clipAt? place = some clip ∧
        piece = { change clip with id := clip.id, track := clip.track } := by
  cases hmodify : t.modify? id change with
  | none =>
      rw [modify, hmodify, Option.getD_none] at h
      exact .inl h
  | some next =>
      rw [modify, hmodify, Option.getD_some] at h
      simp only [modify?, Option.bind_eq_bind, Option.bind_eq_some_iff, Option.pure_def,
        Option.some.injEq] at hmodify
      obtain ⟨found, hfound, track, htrack, clip, hclip, rfl⟩ := hmodify
      rw [clipAt?_set htrack rfl] at h
      by_cases hplace : place = found
      · subst hplace
        have hlt := (List.getElem?_eq_some_iff.1 hclip).1
        rw [if_pos rfl, List.getElem?_set_self hlt] at h
        exact .inr ⟨hfound, clip, clipAt?_eq_some_iff.2 ⟨track, htrack, hclip⟩,
          (Option.some.inj h).symm⟩
      · left
        split at h
        · rename_i hsame
          have hne : found.position ≠ place.position := fun heq =>
            hplace (congrArg₂ Location.mk hsame heq.symm)
          rw [List.getElem?_set_ne hne] at h
          exact clipAt?_eq_some_iff.2 ⟨track, hsame ▸ htrack, h⟩
        · exact h

variable {t mid next : Timeline Rat} {ε instant : Rat} {id : ClipId} {ids left : IdSupply}
  {rights : List ClipId} {clips : List (Clip Rat)} {piece : Clip Rat}

/-- What stands somewhere is a piece of what stood there, under the same id. -/
structure Trims (t mid : Timeline Rat) : Prop where
  index_eq : mid.index = t.index
  exists_whole : ∀ place piece, mid.clipAt? place = some piece →
    ∃ clip, t.clipAt? place = some clip ∧ piece.id = clip.id ∧ piece.track = clip.track ∧
      clip.span.start ≤ piece.span.start ∧ piece.span.stop ≤ clip.span.stop

theorem Trims.refl (t : Timeline Rat) : t.Trims t where
  index_eq := rfl
  exists_whole _ piece hpiece := ⟨piece, hpiece, rfl, rfl, le_refl _, le_refl _⟩

theorem Trims.shorten (h : t.Trims mid)
    (hcut : ∀ clip ∈ clips, t.clip? clip.id = some clip ∧ instant ≤ clip.stop) :
    t.Trims (mid.shorten clips instant) := by
  unfold Timeline.shorten
  induction clips generalizing mid with
  | nil => exact h
  | cons clip clips ih =>
      obtain ⟨⟨hclip, hstop⟩, hrest⟩ := List.forall_mem_cons.1 hcut
      refine ih ⟨(modify_index ..).trans h.index_eq, fun place piece hpiece => ?_⟩ hrest
      rcases clipAt?_modify hpiece with hold | ⟨hplace, old, hold, rfl⟩
      · exact h.exists_whole place piece hold
      · -- The clip that is cut stood there, so that what is left of it ends where that is cut.
        obtain ⟨whole, hwhole, hid, htrack, hstart, _⟩ := h.exists_whole place old hold
        have hlocate : t.locate? clip.id = some place := by rwa [locate?, ← h.index_eq]
        rw [clip?, hlocate] at hclip
        obtain rfl : whole = clip := Option.some.inj (hwhole.symm.trans hclip)
        exact ⟨whole, hwhole, hid, htrack, hstart, hstop⟩

theorem mem_clips_insertAll {new : List (Clip Rat)} {fault : Rejection Rat → Fault Rat}
    (hinsert : mid.insertAll new fault = .ok next) (hpiece : piece ∈ next.clips) :
    piece ∈ mid.clips ∨ piece ∈ new := by
  unfold insertAll at hinsert
  induction new generalizing mid with
  | nil =>
      cases hinsert
      exact .inl hpiece
  | cons clip new ih =>
      rw [List.foldlM_cons] at hinsert
      cases hfirst : mid.insert clip with
      | error rejection =>
          rw [hfirst] at hinsert
          cases hinsert
      | ok first =>
          rw [hfirst] at hinsert
          rcases ih hinsert with hold | hnew
          · obtain ⟨i, track, _, htrack, _, _, hshape⟩ := insert_spec hfirst
            obtain ⟨place, hplace⟩ := mem_clips_iff_clipAt?.1 hold
            rw [clipAt?_append htrack (congrArg Timeline.tracks hshape)] at hplace
            split at hplace
            · exact .inr (Option.some.inj hplace ▸ List.mem_cons_self)
            · exact .inl (mem_clips_iff_clipAt?.2 ⟨place, hplace⟩)
          · exact .inr (List.mem_cons_of_mem _ hnew)

/-! ## Splits of any project -/

theorem clip?_of_toCut (hown : t.FindsById) (hcut : t.toCut id instant ε = .ok clips) :
    ∀ clip ∈ clips, t.clip? clip.id = some clip ∧ cutsCleanly clip.span instant ε = true := by
  have hnamed {id : ClipId} {clip : Clip Rat} (hclip : t.clip? id = some clip) :
      t.clip? clip.id = some clip := by
    rwa [hown id clip hclip]
  unfold toCut at hcut
  split at hcut
  · cases hcut
  rename_i first hfirst
  split at hcut
  · cases hcut
    simp
  rename_i hfirstClean
  rw [Bool.not_eq_true, Bool.not_eq_false'] at hfirstClean
  split at hcut
  · cases hcut
    exact List.forall_mem_singleton.2 ⟨hnamed hfirst, hfirstClean⟩
  split at hcut
  · cases hcut
  rename_i partner hpartner
  split at hcut
  · rename_i hpartnerClean
    cases hcut
    simpa using ⟨⟨hnamed hfirst, hfirstClean⟩, hnamed hpartner, hpartnerClean⟩
  · cases hcut

/-- What can be told of the result of a split is told of one that was made. -/
theorem exists_of_map_split {β : Type} {f : List ClipId × Timeline Rat → β} {made : β}
    (h : (t.split id instant ε ids).1.toOption.join.map f = some made) :
    ∃ rights next left, t.split id instant ε ids = (.ok (some (rights, next)), left) ∧
      f (rights, next) = made := by
  rcases hsplit : t.split id instant ε ids with ⟨_ | _ | ⟨rights, next⟩, left⟩ <;>
    rw [hsplit] at h <;> cases h
  exact ⟨rights, next, left, rfl, rfl⟩

theorem exists_whole_of_split (hown : t.FindsById)
    (hsplit : t.split id instant ε ids = (.ok (some (rights, next)), left))
    (hpiece : piece ∈ next.clips) :
    ∃ clip ∈ t.clips, piece.track = clip.track ∧ (piece.id = clip.id ∨ piece.id ∈ rights) ∧
      clip.span.start ≤ piece.span.start ∧ piece.span.stop ≤ clip.span.stop := by
  obtain ⟨clips, hcut, _, hinsert, rfl, _⟩ := split_spec hsplit
  have hcuts := clip?_of_toCut hown hcut
  have hinside (clip : Clip Rat) (hclip : clip ∈ clips) :
      clip.start < instant ∧ instant < clip.stop := (cutsCleanly_iff.1 (hcuts clip hclip).2).1
  have htrims : t.Trims (t.shorten clips instant) := (Trims.refl t).shorten fun clip hclip =>
    ⟨(hcuts clip hclip).1, (hinside clip hclip).2.le⟩
  rcases mem_clips_insertAll hinsert hpiece with hold | hhalf
  · obtain ⟨place, hplace⟩ := mem_clips_iff_clipAt?.1 hold
    obtain ⟨clip, hclip, hid, htrack, hwithin⟩ := htrims.exists_whole place piece hplace
    exact ⟨clip, mem_clips_iff_clipAt?.2 ⟨place, hclip⟩, htrack, .inl hid, hwithin⟩
  · obtain ⟨clip, hclip, heq⟩ := mem_rightHalves hhalf
    refine ⟨clip, mem_clips_of_clip? (hcuts clip hclip).1, by rw [heq]; rfl, .inr (List.mem_map_of_mem hhalf), ?_⟩
    rw [heq]
    exact ⟨(hinside clip hclip).1.le, le_refl _⟩

end Montage.Timeline
