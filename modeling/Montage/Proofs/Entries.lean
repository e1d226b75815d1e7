import Montage.Proofs.Changes
import Montage.Wire.Timeline

/-!
# Entries of the index

An entry of the index leads to a clip with its id, whatever clips are put in, taken out and altered,
and also when several clips share an id. If the ids were distinct at first, the index is at any time
what it would be if it were made from the tracks anew.
-/

namespace Montage

variable {α : Type}

/-! ## Places that are noted again -/

/-- Once places are noted, what an index finds is one of them, or an old entry of another id. -/
theorem ClipIndex.of_getElem?_insertMany {index : ClipIndex} {places : List (ClipId × Location)}
    {id : ClipId} {place : Location} (h : (index.insertMany places)[id]? = some place) :
    (id, place) ∈ places ∨ (id ∉ places.map Prod.fst ∧ index[id]? = some place) := by
  induction places generalizing index with
  | nil => exact .inr ⟨List.not_mem_nil, by simpa using h⟩
  | cons entry places ih =>
      obtain ⟨key, noted⟩ := entry
      rw [Std.ExtTreeMap.insertMany_cons] at h
      rcases ih h with hmem | ⟨hout, hold⟩
      · exact .inl (List.mem_cons_of_mem _ hmem)
      · rw [Std.ExtTreeMap.getElem?_insert] at hold
        by_cases hkey : key = id
        · subst hkey
          simp only [Std.ReflCmp.compare_self, if_true, Option.some.injEq] at hold
          subst hold
          exact .inl List.mem_cons_self
        · rw [if_neg (by simpa using hkey)] at hold
          refine .inr ⟨?_, hold⟩
          rw [List.map_cons, List.mem_cons]
          rintro (heq | hmem)
          · exact hkey heq.symm
          · exact hout hmem

namespace Timeline

/-! ## Truthful indexes -/

/-- Where the index finds an id, a clip with that id stands. -/
def Truthful (t : Timeline α) : Prop :=
  ∀ id place, t.locate? id = some place → ∃ clip, t.clipAt? place = some clip ∧ clip.id = id

theorem truthful_of_index_eq {t : Timeline α} (hindex : t.index = .ofTracks t.tracks) :
    t.Truthful := by
  intro id place hplace
  rw [locate?, hindex, ClipIndex.ofTracks_eq_insertMany] at hplace
  rcases ClipIndex.of_getElem?_insertMany hplace with hmem | ⟨_, hempty⟩
  · obtain ⟨track, clip, htrack, hclip, hid⟩ := ClipIndex.mem_placesOf.1 hmem
    exact ⟨clip, clipAt?_eq_some_iff.2 ⟨track, htrack, hclip⟩, hid⟩
  · simp at hempty

theorem InStep.truthful {t : Timeline α} (h : t.InStep) : t.Truthful :=
  fun id place hplace => (h id place).1 hplace

theorem clipAt?_set {t next : Timeline α} {i : Nat} {track : Track α} {clips : List (Clip α)}
    (htrack : t.tracks[i]? = some track)
    (htracks : next.tracks = t.tracks.set i { track with clips }) (place : Location) :
    next.clipAt? place =
      if place.track = i then clips[place.position]? else t.clipAt? place := by
  have hlt := (List.getElem?_eq_some_iff.1 htrack).1
  simp only [clipAt?, htracks, List.getElem?_set, Option.bind_eq_bind]
  by_cases hi : i = place.track
  · subst hi
    simp [hlt]
  · rw [if_neg hi, if_neg fun heq => hi heq.symm]

namespace Truthful

variable {t next : Timeline α}

/-- Where the index finds an id, there is a track, and on it a clip with the id. -/
theorem exists_clip (h : t.Truthful) {id : ClipId} {place : Location}
    (hplace : t.locate? id = some place) :
    ∃ track clip, t.tracks[place.track]? = some track ∧
      track.clips[place.position]? = some clip ∧ clip.id = id := by
  obtain ⟨clip, hclip, hid⟩ := h id place hplace
  obtain ⟨track, htrack, hposition⟩ := clipAt?_eq_some_iff.1 hclip
  exact ⟨track, clip, htrack, hposition, hid⟩

/-- What is made of the clip that an id leads to is made wherever the index finds the id. -/
theorem lookup_eq_none_iff {β : Type} (h : t.Truthful) {id : ClipId}
    (result : Location → Track α → Clip α → β) :
    (do
      let place ← t.locate? id
      let track ← t.tracks[place.track]?
      let clip ← track.clips[place.position]?
      return result place track clip) = none ↔ t.locate? id = none := by
  cases hplace : t.locate? id with
  | none => simp
  | some place =>
      obtain ⟨track, clip, htrack, hclip, _⟩ := h.exists_clip hplace
      simp [htrack, hclip]

theorem remove?_eq_none_iff (h : t.Truthful) {id : ClipId} :
    t.remove? id = none ↔ t.locate? id = none := by
  unfold remove?
  exact h.lookup_eq_none_iff _

theorem modify?_eq_none_iff (h : t.Truthful) {id : ClipId} {change : Clip α → Clip α} :
    t.modify? id change = none ↔ t.locate? id = none := by
  unfold modify?
  exact h.lookup_eq_none_iff _

/-- A clip that is taken out has the id that it was asked for by. -/
theorem id_eq_of_remove? (h : t.Truthful) {id : ClipId} {clip : Clip α}
    (hremove : t.remove? id = some (clip, next)) : clip.id = id := by
  cases hplace : t.locate? id with
  | none =>
      rw [h.remove?_eq_none_iff.2 hplace] at hremove
      cases hremove
  | some place =>
      obtain ⟨track, found, htrack, hfound, hid⟩ := h.exists_clip hplace
      simp only [remove?, hplace, htrack, hfound, Option.bind_eq_bind, Option.bind_some,
        Option.pure_def, Option.some.injEq, Prod.mk.injEq] at hremove
      rw [← hremove.1, hid]

/-! ## What changes keep -/

theorem insert [Scalar α] (h : t.Truthful) {clip : Clip α} (hinsert : t.insert clip = .ok next) :
    next.Truthful := by
  obtain ⟨i, track, _, htrack, _, _, rfl⟩ := insert_spec hinsert
  intro id place hplace
  rw [clipAt?_append htrack rfl]
  rw [locate?, Std.ExtTreeMap.getElem?_insert] at hplace
  by_cases hid : clip.id = id
  · rw [if_pos (by simpa using hid), Option.some.injEq] at hplace
    exact ⟨clip, by rw [if_pos hplace.symm], hid⟩
  · rw [if_neg (by simpa using hid)] at hplace
    obtain ⟨old, hold, holdId⟩ := h id place hplace
    refine ⟨old, ?_, holdId⟩
    rw [if_neg, hold]
    rintro rfl
    simp [clipAt?, htrack] at hold

/-- Only the places of one track are noted again; no other clip has moved. -/
theorem erase (h : t.Truthful) (id : ClipId) : (t.erase id).Truthful := by
  cases hplace : t.locate? id with
  | none => simpa [Timeline.erase, remove?, hplace] using h
  | some place =>
      obtain ⟨track, clip, htrack, hposition, hid⟩ := h.exists_clip hplace
      rw [erase_eq hplace htrack hposition]
      intro key found hfound
      rw [clipAt?_set htrack rfl]
      rw [locate?, ClipIndex.notePlaces_eq_insertMany] at hfound
      rcases ClipIndex.of_getElem?_insertMany hfound with hmem | ⟨hout, hold⟩
      · obtain ⟨htrackEq, other, hother, hkey⟩ := ClipIndex.mem_placesOn.1 hmem
        exact ⟨other, by rw [if_pos htrackEq, hother], hkey⟩
      · rw [Std.ExtTreeMap.getElem?_erase] at hold
        split at hold
        · cases hold
        rename_i hkey
        have hkey : id ≠ key := fun heq => hkey (by simp [heq])
        obtain ⟨other, hother, hotherId⟩ := h key found hold
        refine ⟨other, ?_, hotherId⟩
        rw [if_neg, hother]
        intro htrackEq
        obtain ⟨_, hsame, hat⟩ := clipAt?_eq_some_iff.1 hother
        rw [htrackEq, htrack] at hsame
        cases hsame
        -- The clip still stands on the track, so that its place was noted again.
        have hmoved : found.position ≠ place.position := by
          intro heq
          rw [heq, hposition] at hat
          cases hat
          exact hkey (hid.symm.trans hotherId)
        refine hout ?_
        rw [ClipIndex.map_fst_placesOn, ← hotherId]
        exact List.mem_map_of_mem (List.mem_eraseIdx_iff_getElem?.2 ⟨_, hmoved, hat⟩)

theorem modify (h : t.Truthful) (id : ClipId) (change : Clip α → Clip α) :
    (t.modify id change).Truthful := by
  cases hplace : t.locate? id with
  | none => simpa [Timeline.modify, modify?, hplace] using h
  | some place =>
      obtain ⟨track, clip, htrack, hposition, hid⟩ := h.exists_clip hplace
      rw [modify_eq hplace htrack hposition hid]
      intro key found hfound
      obtain ⟨other, hother, hotherId⟩ := h key found hfound
      rw [clipAt?_set htrack rfl]
      by_cases htrackEq : found.track = place.track
      · obtain ⟨_, hsame, hat⟩ := clipAt?_eq_some_iff.1 hother
        rw [htrackEq, htrack] at hsame
        cases hsame
        rw [if_pos htrackEq, List.getElem?_set]
        by_cases hpositionEq : place.position = found.position
        · rw [← hpositionEq, hposition] at hat
          cases hat
          have hlt := (List.getElem?_eq_some_iff.1 hposition).1
          exact ⟨amend id change clip, by rw [if_pos hpositionEq, if_pos (hpositionEq ▸ hlt)],
            by rw [amend_id, hotherId]⟩
        · exact ⟨other, by rw [if_neg hpositionEq, hat], hotherId⟩
      · exact ⟨other, by rw [if_neg htrackEq, hother], hotherId⟩

end Truthful

/-! ## Indexes that are in step -/

namespace InStep

variable {t : Timeline α}

theorem index_eq (h : t.InStep) : t.index = .ofTracks t.tracks := by
  have hanew : InStep { t with index := .ofTracks t.tracks } :=
    inStep_of_index_eq rfl h.nodup_ids
  refine Std.ExtTreeMap.ext_getElem? fun id => Option.ext fun place => ?_
  exact (h id place).trans (hanew id place).symm

theorem clipCount_eq (h : t.InStep) : t.clipCount = t.clips.length := by
  have hdistinct : (ClipIndex.placesOf t.tracks).Pairwise fun a b => ¬ compare a.1 b.1 = .eq := by
    have hnodup := h.nodup_ids
    rw [clips, ← ClipIndex.map_fst_placesOf, List.Nodup, List.pairwise_map] at hnodup
    exact hnodup.imp fun hne => by simpa using hne
  rw [clipCount, h.index_eq, ClipIndex.ofTracks_eq_insertMany,
    Std.ExtTreeMap.size_insertMany_list hdistinct (by simp), Std.ExtTreeMap.size_empty,
    Nat.zero_add, clips, ← List.length_map Clip.id, ← ClipIndex.map_fst_placesOf, List.length_map]

end InStep

/-! ## Rows of changes -/

end Timeline

/-- A change of one clip. -/
inductive ClipChange (α : Type)
  | insert (clip : Clip α)
  | remove (id : ClipId)
  | modify (id : ClipId) (change : Clip α → Clip α)

namespace Timeline

variable [Scalar α] {t : Timeline α}

/-- The timeline after a change; one that is rejected leaves it as it is. -/
def change (t : Timeline α) : ClipChange α → Timeline α
  | .insert clip => (t.insert clip).toOption.getD t
  | .remove id => t.erase id
  | .modify id change => t.modify id change

/-- The timeline after changes in some order. -/
def changeAll (t : Timeline α) (changes : List (ClipChange α)) : Timeline α :=
  changes.foldl change t

theorem Truthful.change (h : t.Truthful) (change : ClipChange α) : (t.change change).Truthful := by
  cases change with
  | insert clip =>
      cases hinsert : t.insert clip with
      | error rejection => simpa [Timeline.change, hinsert, Except.toOption] using h
      | ok next => simpa [Timeline.change, hinsert, Except.toOption] using h.insert hinsert
  | remove id => exact h.erase id
  | modify id change => exact h.modify id change

theorem InStep.change (h : t.InStep) (change : ClipChange α) : (t.change change).InStep := by
  cases change with
  | insert clip =>
      cases hinsert : t.insert clip with
      | error rejection => simpa [Timeline.change, hinsert, Except.toOption] using h
      | ok next =>
          simpa [Timeline.change, hinsert, Except.toOption] using
            (insert_revision h hinsert).1.inStep
  | remove id => exact (erase_revision h id).inStep
  | modify id change => exact (modify_revision h id change).inStep

theorem Truthful.changeAll (h : t.Truthful) (changes : List (ClipChange α)) :
    (t.changeAll changes).Truthful := by
  induction changes generalizing t with
  | nil => exact h
  | cons change changes ih => exact ih (h.change change)

theorem InStep.changeAll (h : t.InStep) (changes : List (ClipChange α)) :
    (t.changeAll changes).InStep := by
  induction changes generalizing t with
  | nil => exact h
  | cons change changes ih => exact ih (h.change change)

theorem index_eq_of_made [WireNumber α]
    (hmade : (∃ id tracks, t = ofTracks id tracks) ∨ ∃ document, ofJson? document = some t) :
    t.index = .ofTracks t.tracks := by
  rcases hmade with ⟨id, tracks, rfl⟩ | ⟨document, hread⟩
  · rfl
  · simp only [ofJson?, Option.bind_eq_bind, Option.bind_eq_some_iff, Option.pure_def,
      Option.some.injEq] at hread
    obtain ⟨_, _, _, _, _, _, _, _, _, _, _, _, rfl⟩ := hread
    rfl

/--
Whatever is done to the clips of a timeline that was made from tracks or read from a document, every
entry of the index leads to a clip with its id, so that a clip is taken out or altered whenever the
index finds it. If no id stood twice at first, none ever does, and the index is as if made anew.
-/
theorem changeAll_index [WireNumber α]
    (hmade : (∃ id tracks, t = ofTracks id tracks) ∨ ∃ document, ofJson? document = some t)
    (changes : List (ClipChange α)) :
    let u := t.changeAll changes
    (∀ id place, u.locate? id = some place →
        ∃ clip, u.clipAt? place = some clip ∧ clip.id = id) ∧
      (∀ id, u.remove? id = none ↔ u.locate? id = none) ∧
      (∀ id change, u.modify? id change = none ↔ u.locate? id = none) ∧
      (∀ id clip left, u.remove? id = some (clip, left) → clip.id = id) ∧
      ((t.clips.map Clip.id).Nodup →
        (u.clips.map Clip.id).Nodup ∧
          (∀ id place, u.locate? id = some place ↔
            ∃ clip, u.clipAt? place = some clip ∧ clip.id = id) ∧
          u.clipCount = u.clips.length ∧ u.index = .ofTracks u.tracks) := by
  intro u
  have hindex := index_eq_of_made hmade
  have htruthful : u.Truthful := (truthful_of_index_eq hindex).changeAll changes
  refine ⟨htruthful, fun _ => htruthful.remove?_eq_none_iff,
    fun _ _ => htruthful.modify?_eq_none_iff, fun _ _ _ => htruthful.id_eq_of_remove?, ?_⟩
  intro hnodup
  have hstep : u.InStep := (inStep_of_index_eq hindex hnodup).changeAll changes
  exact ⟨hstep.nodup_ids, hstep, hstep.clipCount_eq, hstep.index_eq⟩

/-- A sound of one second. -/
def second (id : ClipId) (start : Float) : Clip Float :=
  ⟨id, "audio-1", "media/a.wav", start, start + 1, 0, .audio, 1, 1, 0, none⟩

/-- Three sounds on one track. -/
def threeSeconds : Timeline Float :=
  ofTracks "p" [⟨"audio-1", .audio, [second "a" 0, second "b" 1, second "c" 2]⟩]

/-- The first sound is taken out, one is put in under its id, and another is to be renamed. -/
def secondChanges : List (ClipChange Float) :=
  [.remove "a", .insert (second "a" 3), .insert (second "b" 4),
    .modify "b" fun clip => { clip with id := "a" }]

theorem changeAll_index_threeSeconds :
    let u := threeSeconds.changeAll secondChanges
    (threeSeconds.clips.map Clip.id).Nodup ∧ u.clips.map Clip.id = ["b", "c", "a"] ∧
      (∀ id place, u.locate? id = some place →
        ∃ clip, u.clipAt? place = some clip ∧ clip.id = id) ∧
      (∀ id, u.remove? id = none ↔ u.locate? id = none) ∧
      (∀ id change, u.modify? id change = none ↔ u.locate? id = none) ∧
      (∀ id clip left, u.remove? id = some (clip, left) → clip.id = id) ∧
      (u.clips.map Clip.id).Nodup ∧
      (∀ id place, u.locate? id = some place ↔
        ∃ clip, u.clipAt? place = some clip ∧ clip.id = id) ∧
      u.clipCount = u.clips.length ∧ u.index = .ofTracks u.tracks := by
  intro u
  have hnodup : (threeSeconds.clips.map Clip.id).Nodup := by decide +kernel
  obtain ⟨hfound, hremove, hmodify, hid, hdistinct⟩ :=
    changeAll_index (t := threeSeconds) (.inl ⟨_, _, rfl⟩) secondChanges
  exact ⟨hnodup, by decide +kernel, hfound, hremove, hmodify, hid, hdistinct hnodup⟩

end Timeline

end Montage
