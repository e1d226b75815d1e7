import Montage.Editing.Placement
import Montage.Proofs.Revision

/-!
# What changes revise

Putting a clip in, taking one out and altering one each have a theorem that gives the revision it
makes, and so has a row of such changes.
-/

namespace Montage

variable {α : Type}

namespace Timeline

/-! ## One clip put in -/

theorem clipAt?_append {t next : Timeline α} {clip : Clip α} {i : Nat} {track : Track α}
    (htrack : t.tracks[i]? = some track)
    (htracks : next.tracks =
      t.tracks.modify i fun track => { track with clips := track.clips ++ [clip] })
    (place : Location) : next.clipAt? place =
      if place = ⟨i, track.clips.length⟩ then some clip else t.clipAt? place := by
  obtain ⟨j, position⟩ := place
  simp only [clipAt?, htracks, List.getElem?_modify, Option.bind_eq_bind, Location.mk.injEq]
  by_cases hj : i = j
  · subst hj
    rcases Nat.lt_trichotomy position track.clips.length with hlt | heq | hgt
    · simp [htrack, List.getElem?_append_left hlt, Nat.ne_of_lt hlt]
    · simp [htrack, heq]
    · have hend : (track.clips ++ [clip]).length ≤ position := by
        rw [List.length_append, List.length_singleton]
        exact hgt
      simp [htrack, List.getElem?_eq_none hend, List.getElem?_eq_none (Nat.le_of_lt hgt),
        Nat.ne_of_gt hgt]
  · have hne : ¬ j = i := fun h => hj h.symm
    simp [hj, hne]

/-- The index stays in step when a clip is put at the end of a track and noted there. -/
theorem InStep.append {t next : Timeline α} (h : t.InStep) {clip : Clip α} {i : Nat}
    {track : Track α} (htrack : t.tracks[i]? = some track)
    (hunused : ∀ other ∈ t.clips, other.id ≠ clip.id)
    (htracks : next.tracks =
      t.tracks.modify i fun track => { track with clips := track.clips ++ [clip] })
    (hindex : next.index = t.index.insert clip.id ⟨i, track.clips.length⟩) : next.InStep := by
  intro id place
  have hlocate : next.locate? id =
      if clip.id = id then some ⟨i, track.clips.length⟩ else t.locate? id := by
    simp [locate?, hindex, Std.ExtTreeMap.getElem?_insert]
  rw [hlocate, clipAt?_append htrack htracks]
  by_cases hid : clip.id = id
  · subst hid
    simp only [if_true, Option.some.injEq]
    constructor
    · rintro rfl
      exact ⟨clip, by simp, rfl⟩
    · rintro ⟨other, hother, hid⟩
      by_cases hplace : place = ⟨i, track.clips.length⟩
      · exact hplace.symm
      · rw [if_neg hplace] at hother
        exact absurd hid (hunused other (mem_clips_iff_clipAt?.2 ⟨place, hother⟩))
  · rw [if_neg hid]
    by_cases hplace : place = ⟨i, track.clips.length⟩
    · subst hplace
      have hempty : t.clipAt? ⟨i, track.clips.length⟩ = none := by
        simp [clipAt?, htrack]
      simp [h id, hempty, hid]
    · rw [if_neg hplace]
      exact h id place

/-- A clip that is put in has a new id, takes time, and goes to the end of its home. -/
theorem insert_spec [Scalar α] {t next : Timeline α} {clip : Clip α}
    (hinsert : t.insert clip = .ok next) :
    ∃ i track, t.home? clip = some i ∧ t.tracks[i]? = some track ∧
      t.locate? clip.id = none ∧ ¬ clip.stop ≤ clip.start ∧
      next = { t with
        tracks := t.tracks.modify i fun track => { track with clips := track.clips ++ [clip] }
        index := t.index.insert clip.id ⟨i, track.clips.length⟩ } := by
  unfold insert at hinsert
  split at hinsert
  · cases hinsert
  rename_i hknown
  split at hinsert
  · cases hinsert
  rename_i hlength
  split at hinsert
  · cases hinsert
  rename_i i hi
  have hnone : t.locate? clip.id = none := by
    rw [locate?, ← Option.not_isSome_iff_eq_none, Std.ExtTreeMap.isSome_getElem?_eq_contains]
    exact hknown
  obtain ⟨track, htrack, _⟩ := home?_eq_some hi
  simp only [htrack, Option.map_some, Option.getD_some, Except.ok.injEq] at hinsert
  exact ⟨i, track, hi, htrack, hnone, hlength, hinsert.symm⟩

theorem insert_revision [Scalar α] {t next : Timeline α} (h : t.InStep) {clip : Clip α}
    (hinsert : t.insert clip = .ok next) :
    t.Revision (fun _ => true) (fun clip => clip) [clip] next ∧
      (∀ other ∈ t.clips, other.id ≠ clip.id) ∧ ¬ clip.stop ≤ clip.start := by
  obtain ⟨i, track, hi, htrack, hnone, hlength, rfl⟩ := insert_spec hinsert
  have hunused := h.locate?_eq_none_iff.1 hnone
  refine ⟨⟨h.append htrack hunused rfl rfl, rfl, rfl, rfl, ?_, fun j => ?_⟩, hunused, hlength⟩
  · intro other hother
    rw [List.mem_singleton] at hother
    exact ⟨i, hother ▸ hi⟩
  · rw [List.getElem?_modify]
    by_cases hj : i = j
    · subst hj
      simp [Track.revise_keeping_all, hi]
    · have hhome : ¬ t.home? clip = some j := fun hc => hj (Option.some.inj (hi.symm.trans hc))
      simp [Track.revise_keeping_all, hj, hhome]

/-! ## One clip taken out -/

theorem eraseIdx_eq_filter {clips : List (Clip α)} {position : Nat} {id : ClipId}
    (h : ∀ i clip, clips[i]? = some clip → (clip.id = id ↔ i = position)) :
    clips.eraseIdx position = clips.filter (·.id ≠ id) := by
  induction clips generalizing position with
  | nil => simp
  | cons clip clips ih =>
      cases position with
      | zero =>
          have hid : clip.id = id := (h 0 clip (by simp)).2 rfl
          have hrest : clips.filter (·.id ≠ id) = clips := by
            refine List.filter_eq_self.2 fun other hother => ?_
            obtain ⟨i, hi⟩ := List.mem_iff_getElem?.1 hother
            have hne : other.id ≠ id := fun hid => by simpa using (h (i + 1) other (by simpa)).1 hid
            simpa using hne
          rw [List.filter_cons_of_neg (by simpa using hid), hrest, List.eraseIdx_cons_zero]
      | succ position =>
          have hid : clip.id ≠ id := fun hid => by simpa using (h 0 clip (by simp)).1 hid
          rw [List.filter_cons_of_pos (by simpa using hid), List.eraseIdx_cons_succ, ih]
          intro i other hother
          rw [h (i + 1) other (by simpa)]
          omega

theorem InStep.id_eq_iff {t : Timeline α} (h : t.InStep) {id : ClipId} {place : Location}
    (hplace : t.locate? id = some place) {i position : Nat} {track : Track α} {clip : Clip α}
    (htrack : t.tracks[i]? = some track) (hclip : track.clips[position]? = some clip) :
    clip.id = id ↔ i = place.track ∧ position = place.position := by
  have hfound : t.clipAt? ⟨i, position⟩ = some clip := clipAt?_eq_some_iff.2 ⟨track, htrack, hclip⟩
  constructor
  · intro hid
    have hsame := (h id ⟨i, position⟩).2 ⟨clip, hfound, hid⟩
    rw [hplace] at hsame
    cases hsame
    exact ⟨rfl, rfl⟩
  · rintro ⟨rfl, rfl⟩
    obtain ⟨other, hother, hid⟩ := (h id place).1 hplace
    rw [hfound] at hother
    cases hother
    exact hid

theorem InStep.ne_of_other_track {t : Timeline α} (h : t.InStep) {id : ClipId} {place : Location}
    (hplace : t.locate? id = some place) {i : Nat} (hi : place.track ≠ i) {other : Track α}
    (hother : t.tracks[i]? = some other) : ∀ clip ∈ other.clips, clip.id ≠ id := by
  intro clip hclip hid
  obtain ⟨position, hposition⟩ := List.mem_iff_getElem?.1 hclip
  exact hi ((h.id_eq_iff hplace hother hposition).1 hid).1.symm

/-- The index is in step again when the places of one track are noted without a clip. -/
theorem InStep.renote {t next : Timeline α} (h : t.InStep) {id : ClipId} {place : Location}
    (hplace : t.locate? id = some place) {track : Track α} {left : List (Clip α)}
    (htrack : t.tracks[place.track]? = some track) (hleft : left = track.clips.filter (·.id ≠ id))
    (htracks : next.tracks = t.tracks.set place.track { track with clips := left })
    (hindex : next.index = ClipIndex.notePlaces (t.index.erase id) place.track left) :
    next.InStep := by
  have hnodup : ((ClipIndex.placesOn place.track left).map Prod.fst).Nodup := by
    rw [ClipIndex.map_fst_placesOn, hleft]
    exact (List.filter_sublist.map _).nodup (h.nodup_ids_track (List.mem_of_getElem? htrack))
  have hlt := (List.getElem?_eq_some_iff.1 htrack).1
  have hmem (key : ClipId) : key ∈ left.map Clip.id ↔
      key ≠ id ∧ ∃ clip ∈ track.clips, clip.id = key := by
    simp only [hleft, List.mem_map, List.mem_filter, decide_eq_true_eq]
    constructor
    · rintro ⟨clip, ⟨hclip, hne⟩, rfl⟩
      exact ⟨hne, clip, hclip, rfl⟩
    · rintro ⟨hne, clip, hclip, rfl⟩
      exact ⟨clip, ⟨hclip, hne⟩, rfl⟩
  intro key found
  rw [locate?, hindex, ClipIndex.notePlaces_eq_insertMany,
    ClipIndex.getElem?_insertMany_iff _ hnodup, ClipIndex.mem_placesOn, ClipIndex.map_fst_placesOn,
    hmem, Std.ExtTreeMap.getElem?_erase]
  simp only [clipAt?_eq_some_iff, htracks, List.getElem?_set]
  by_cases hfound : place.track = found.track
  · simp only [hfound, if_true, hfound ▸ hlt, Option.some.injEq, true_and]
    constructor
    · rintro (⟨clip, hclip, hid⟩ | ⟨hout, hold⟩)
      · exact ⟨clip, ⟨_, rfl, hclip⟩, hid⟩
      · split at hold
        · cases hold
        rename_i hne
        have hkey : key ≠ id := fun heq => hne (by simp [heq])
        obtain ⟨clip, hclip, hid⟩ := (h key found).1 hold
        obtain ⟨_, hother, hclip⟩ := clipAt?_eq_some_iff.1 hclip
        rw [← hfound, htrack] at hother
        cases hother
        exact absurd ⟨hkey, clip, List.mem_of_getElem? hclip, hid⟩ hout
    · rintro ⟨clip, ⟨_, rfl, hclip⟩, hid⟩
      exact .inl ⟨clip, hclip, hid⟩
  · have hfound' : ¬ found.track = place.track := fun heq => hfound heq.symm
    simp only [hfound, hfound', if_false, false_and, false_or]
    constructor
    · rintro ⟨_, hold⟩
      split at hold
      · cases hold
      obtain ⟨clip, hclip, hid⟩ := (h key found).1 hold
      exact ⟨clip, clipAt?_eq_some_iff.1 hclip, hid⟩
    · rintro ⟨clip, hclip, hid⟩
      have hclip := clipAt?_eq_some_iff.2 hclip
      have hold := (h key found).2 ⟨clip, hclip, hid⟩
      have hkey : ¬ compare id key = .eq := by
        intro heq
        have heq : id = key := by simpa using heq
        rw [heq, hold] at hplace
        exact hfound' (by rw [Option.some.inj hplace])
      refine ⟨?_, by rw [if_neg hkey]; exact hold⟩
      rintro ⟨_, copy, hcopy, hcopyId⟩
      obtain ⟨position, hcopy⟩ := List.mem_iff_getElem?.1 hcopy
      have hcopy : t.clipAt? ⟨place.track, position⟩ = some copy :=
        clipAt?_eq_some_iff.2 ⟨track, htrack, hcopy⟩
      exact hfound' (by rw [h.place_unique hclip hcopy (hid.trans hcopyId.symm)])

theorem erase_eq {t : Timeline α} {id : ClipId} {place : Location} {track : Track α}
    {clip : Clip α} (hplace : t.locate? id = some place)
    (htrack : t.tracks[place.track]? = some track)
    (hclip : track.clips[place.position]? = some clip) :
    t.erase id = { t with
      tracks := t.tracks.set place.track
        { track with clips := track.clips.eraseIdx place.position }
      index := ClipIndex.notePlaces (t.index.erase id) place.track
        (track.clips.eraseIdx place.position) } := by
  simp [erase, remove?, hplace, htrack, hclip]

theorem erase_revision {t : Timeline α} (h : t.InStep) (id : ClipId) :
    t.Revision (·.id ≠ id) (fun clip => clip) [] (t.erase id) := by
  cases hplace : t.locate? id with
  | none =>
      have hnone : t.erase id = t := by
        simp [erase, remove?, hplace]
      have hall := h.locate?_eq_none_iff.1 hplace
      rw [hnone]
      exact (Revision.refl h).congr (fun clip hclip => by simpa using hall clip hclip)
        (fun _ _ => rfl) rfl
  | some place =>
      obtain ⟨clip, hclipAt, hid⟩ := (h id place).1 hplace
      obtain ⟨track, htrack, hclip⟩ := clipAt?_eq_some_iff.1 hclipAt
      obtain ⟨next, hnext⟩ : ∃ next, t.erase id = next := ⟨_, rfl⟩
      have hleft : track.clips.eraseIdx place.position = track.clips.filter (·.id ≠ id) := by
        refine eraseIdx_eq_filter fun i other hother => ?_
        simp [h.id_eq_iff hplace htrack hother]
      have hshape : next = { t with
          tracks := t.tracks.set place.track
            { track with clips := track.clips.filter (·.id ≠ id) }
          index := ClipIndex.notePlaces (t.index.erase id) place.track
            (track.clips.filter (·.id ≠ id)) } := by
        rw [← hnext, ← hleft, erase_eq hplace htrack hclip]
      rw [hnext]
      refine ⟨?_, by rw [hshape], by rw [hshape], by rw [hshape], by simp, fun i => ?_⟩
      · exact h.renote hplace htrack rfl (by rw [hshape]) (by rw [hshape])
      · rw [hshape, List.getElem?_set]
        by_cases hi : place.track = i
        · subst hi
          have hlt := (List.getElem?_eq_some_iff.1 htrack).1
          rw [if_pos rfl, if_pos hlt, htrack]
          simp [Track.revise]
        · rw [if_neg hi]
          cases hother : t.tracks[i]? with
          | none => rfl
          | some other =>
              have hkept : other.clips.filter (·.id ≠ id) = other.clips := by
                refine List.filter_eq_self.2 fun clip hclip => ?_
                simpa using h.ne_of_other_track hplace hi hother clip hclip
              rw [Option.map_some, Track.revise, hkept]
              simp

/-! ## One clip altered -/

/-- The clip altered if it has the given id; its id and its track stay. -/
def amend (id : ClipId) (change : Clip α → Clip α) (clip : Clip α) : Clip α :=
  if clip.id = id then { change clip with id := clip.id, track := clip.track } else clip

@[simp]
theorem amend_id (id : ClipId) (change : Clip α → Clip α) (clip : Clip α) :
    (amend id change clip).id = clip.id := by
  unfold amend
  split <;> rfl

@[simp]
theorem amend_track (id : ClipId) (change : Clip α → Clip α) (clip : Clip α) :
    (amend id change clip).track = clip.track := by
  unfold amend
  split <;> rfl

theorem set_amend_eq_map {clips : List (Clip α)} {position : Nat} {id : ClipId} {clip : Clip α}
    (h : ∀ i clip, clips[i]? = some clip → (clip.id = id ↔ i = position))
    (hclip : clips[position]? = some clip) (change : Clip α → Clip α) :
    clips.set position (amend id change clip) = clips.map (amend id change) := by
  refine List.ext_getElem? fun i => ?_
  rw [List.getElem?_set, List.getElem?_map]
  by_cases hi : position = i
  · subst hi
    have hlt := (List.getElem?_eq_some_iff.1 hclip).1
    rw [if_pos rfl, if_pos hlt, hclip, Option.map_some]
  · rw [if_neg hi]
    cases hother : clips[i]? with
    | none => rfl
    | some other =>
        have hne : other.id ≠ id := fun hid => hi ((h i other hother).1 hid).symm
        rw [Option.map_some, amend, if_neg hne]

/-- The index stays in step when every clip is altered where it stands and keeps its id. -/
theorem InStep.map {t next : Timeline α} (h : t.InStep) {alter : Clip α → Clip α}
    (hid : ∀ clip, (alter clip).id = clip.id) (hindex : next.index = t.index)
    (hclipAt : ∀ place, next.clipAt? place = (t.clipAt? place).map alter) : next.InStep := by
  intro key found
  have hlocate : next.locate? key = t.locate? key := by
    rw [locate?, locate?, hindex]
  rw [hlocate, h key found, hclipAt]
  simp only [Option.map_eq_some_iff]
  constructor
  · rintro ⟨clip, hclip, hkey⟩
    exact ⟨_, ⟨clip, hclip, rfl⟩, by rw [hid, hkey]⟩
  · rintro ⟨_, ⟨clip, hclip, rfl⟩, hkey⟩
    exact ⟨clip, hclip, by rwa [hid] at hkey⟩

theorem modify_eq {t : Timeline α} {id : ClipId} {place : Location} {track : Track α}
    {clip : Clip α} (hplace : t.locate? id = some place)
    (htrack : t.tracks[place.track]? = some track)
    (hclip : track.clips[place.position]? = some clip) (hid : clip.id = id)
    (change : Clip α → Clip α) :
    t.modify id change = { t with
      tracks := t.tracks.set place.track
        { track with clips := track.clips.set place.position (amend id change clip) } } := by
  simp [modify, modify?, hplace, htrack, hclip, amend, hid]

theorem modify_revision {t : Timeline α} (h : t.InStep) (id : ClipId)
    (change : Clip α → Clip α) :
    t.Revision (fun _ => true) (amend id change) [] (t.modify id change) := by
  cases hplace : t.locate? id with
  | none =>
      have hnone : t.modify id change = t := by
        simp [modify, modify?, hplace]
      have hall := h.locate?_eq_none_iff.1 hplace
      rw [hnone]
      exact (Revision.refl h).congr (fun _ _ => rfl)
        (fun clip hclip => by rw [amend, if_neg (hall clip hclip)]) rfl
  | some place =>
      obtain ⟨clip, hclipAt, hid⟩ := (h id place).1 hplace
      obtain ⟨track, htrack, hclip⟩ := clipAt?_eq_some_iff.1 hclipAt
      obtain ⟨next, hnext⟩ : ∃ next, t.modify id change = next := ⟨_, rfl⟩
      have hamended : track.clips.set place.position (amend id change clip) =
          track.clips.map (amend id change) := by
        refine set_amend_eq_map (fun i other hother => ?_) hclip change
        simp [h.id_eq_iff hplace htrack hother]
      have hshape : next = { t with
          tracks := t.tracks.set place.track
            { track with clips := track.clips.map (amend id change) } } := by
        rw [← hnext, ← hamended, modify_eq hplace htrack hclip hid]
      have htracks (i : Nat) : next.tracks[i]? = t.tracks[i]?.map fun track =>
          track.revise (fun _ => true) (amend id change) [] := by
        rw [hshape, List.getElem?_set]
        by_cases hi : place.track = i
        · subst hi
          have hlt := (List.getElem?_eq_some_iff.1 htrack).1
          rw [if_pos rfl, if_pos hlt, htrack]
          simp [Track.revise, List.filter_eq_self.2]
        · rw [if_neg hi]
          cases hother : t.tracks[i]? with
          | none => rfl
          | some other =>
              have hkept : other.clips.map (amend id change) = other.clips := by
                refine (List.map_congr_left fun clip hclip => ?_).trans (List.map_id' _)
                rw [amend, if_neg (h.ne_of_other_track hplace hi hother clip hclip)]
              simp [Track.revise, List.filter_eq_self.2, hkept]
      rw [hnext]
      refine ⟨?_, by rw [hshape], by rw [hshape], by rw [hshape], by simp, by simpa using htracks⟩
      refine h.map (amend_id id change) (by rw [hshape]) fun found => ?_
      simp only [clipAt?, htracks, Option.bind_eq_bind]
      cases t.tracks[found.track]? with
      | none => rfl
      | some track => simp [Track.revise, List.filter_eq_self.2]

/-! ## Many changes in a row -/

/-- The clips are put in at the ends of their tracks, under ids that were not in use. -/
theorem insertAll_revision [Scalar α] {t next : Timeline α} (h : t.InStep) {clips : List (Clip α)}
    {fault : Rejection α → Fault α} (hinsert : t.insertAll clips fault = .ok next) :
    t.Revision (fun _ => true) (fun clip => clip) clips next ∧
      (∀ clip ∈ clips, (∀ other ∈ t.clips, other.id ≠ clip.id) ∧ ¬ clip.stop ≤ clip.start) := by
  unfold insertAll at hinsert
  induction clips generalizing t with
  | nil =>
      cases hinsert
      exact ⟨.refl h, by simp⟩
  | cons clip clips ih =>
      rw [List.foldlM_cons] at hinsert
      cases hfirst : t.insert clip with
      | error rejection =>
          rw [hfirst] at hinsert
          cases hinsert
      | ok mid =>
          rw [hfirst] at hinsert
          obtain ⟨hrevision, hunused, hlength⟩ := insert_revision h hfirst
          obtain ⟨hrest, hall⟩ := ih hrevision.inStep hinsert
          have hboth := hrevision.trans hrest fun _ => rfl
          refine ⟨hboth.congr (fun _ _ => rfl) (fun _ _ => rfl) (by simp), ?_⟩
          intro other hother
          rcases List.mem_cons.1 hother with rfl | hother
          · exact ⟨hunused, hlength⟩
          · refine ⟨fun old hold => (hall other hother).1 old ?_, (hall other hother).2⟩
            exact hrevision.mem_clips.2 (.inl ⟨old, hold, rfl, rfl⟩)

theorem foldl_erase_revision {t : Timeline α} (h : t.InStep) (ids : List ClipId) :
    t.Revision (·.id ∉ ids) (fun clip => clip) [] (ids.foldl erase t) := by
  induction ids generalizing t with
  | nil => exact (Revision.refl h).congr (by simp) (fun _ _ => rfl) rfl
  | cons id ids ih =>
      have hfirst := erase_revision h id
      have hboth := hfirst.trans (ih hfirst.inStep) fun _ => rfl
      refine hboth.congr (fun clip _ => ?_) (fun _ _ => rfl) rfl
      simp [List.mem_cons]

/-- The changes to the clips with the given ids, one after the other. -/
def amendAll {β : Type} (key : β → ClipId) (change : β → Clip α → Clip α) (entries : List β)
    (clip : Clip α) : Clip α :=
  entries.foldl (fun clip entry => amend (key entry) (change entry) clip) clip

theorem amendAll_track {β : Type} (key : β → ClipId) (change : β → Clip α → Clip α)
    (entries : List β) (clip : Clip α) : (amendAll key change entries clip).track = clip.track := by
  unfold amendAll
  induction entries generalizing clip with
  | nil => rfl
  | cons entry entries ih => rw [List.foldl_cons, ih, amend_track]

theorem foldl_modify_revision {β : Type} {t : Timeline α} (h : t.InStep) (key : β → ClipId)
    (change : β → Clip α → Clip α) (entries : List β) :
    t.Revision (fun _ => true) (amendAll key change entries) []
      (entries.foldl (fun t entry => t.modify (key entry) (change entry)) t) := by
  induction entries generalizing t with
  | nil => exact .refl h
  | cons entry entries ih =>
      have hfirst := modify_revision h (key entry) (change entry)
      have hboth := hfirst.trans (ih hfirst.inStep) (amendAll_track key change entries)
      exact hboth.congr (fun _ _ => rfl) (fun _ _ => rfl) rfl

/-- One change that is the same when it is made twice alters each clip at most once. -/
theorem amendAll_const {β : Type} (key : β → ClipId) (change : Clip α → Clip α)
    (hkept : ∀ clip, (change clip).id = clip.id ∧ (change clip).track = clip.track)
    (htwice : ∀ clip, change (change clip) = change clip) (entries : List β) (clip : Clip α) :
    amendAll key (fun _ => change) entries clip =
      if clip.id ∈ entries.map key then change clip else clip := by
  have hamend (id : ClipId) (clip : Clip α) :
      amend id change clip = if clip.id = id then change clip else clip := by
    unfold amend
    rw [← (hkept clip).1, ← (hkept clip).2]
  unfold amendAll
  induction entries generalizing clip with
  | nil => simp
  | cons entry entries ih =>
      rw [List.foldl_cons, ih, amend_id, hamend, List.map_cons]
      by_cases hid : clip.id = key entry <;> simp [hid, htwice]

/-- Of entries with distinct ids, at most one alters a clip. -/
theorem amendAll_eq_find? {β : Type} {key : β → ClipId} (change : β → Clip α → Clip α)
    {entries : List β} (hnodup : (entries.map key).Nodup) (clip : Clip α) :
    amendAll key change entries clip =
      match entries.find? (key · = clip.id) with
      | some entry => { change entry clip with id := clip.id, track := clip.track }
      | none => clip := by
  unfold amendAll
  induction entries generalizing clip with
  | nil => rfl
  | cons entry entries ih =>
      obtain ⟨hout, hnodup⟩ := List.nodup_cons.1 hnodup
      rw [List.foldl_cons, ih hnodup, amend_id]
      by_cases hid : key entry = clip.id
      · have hnone : entries.find? (key · = clip.id) = none := by
          refine List.find?_eq_none.2 fun other hother hsame => hout ?_
          rw [hid, ← of_decide_eq_true hsame]
          exact List.mem_map_of_mem hother
        rw [hnone, List.find?_cons_of_pos (by simpa using hid)]
        simp [amend, hid]
      · rw [List.find?_cons_of_neg (by simpa using hid), amend, if_neg (fun h => hid h.symm)]

end Timeline

end Montage
