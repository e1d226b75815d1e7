import Montage.Timeline.Change

/-!
# The index is in step

The index of a timeline and the clips on its tracks say the same: an id is found at a place exactly
when the clip that stands there has that id. No clip id stands twice then, and looking an id up is
the same as searching all clips for it.
-/

namespace Montage

variable {α : Type}

/-! ## Indexes as lists of places -/

namespace ClipIndex

/-- The ids of a track's clips with their places. -/
def placesOn (track : Nat) (clips : List (Clip α)) : List (ClipId × Location) :=
  clips.zipIdx.map fun (clip, position) => (clip.id, ⟨track, position⟩)

/-- The ids of all clips with their places. -/
def placesOf (tracks : List (Track α)) : List (ClipId × Location) :=
  tracks.zipIdx.flatMap fun (track, i) => placesOn i track.clips

theorem notePlaces_eq_insertMany (index : ClipIndex) (track : Nat) (clips : List (Clip α)) :
    index.notePlaces track clips = index.insertMany (placesOn track clips) := by
  unfold notePlaces placesOn
  generalize clips.zipIdx = entries
  induction entries generalizing index with
  | nil => simp
  | cons entry entries ih =>
      rw [List.foldl_cons, List.map_cons, Std.ExtTreeMap.insertMany_cons]
      exact ih _

theorem ofTracks_eq_insertMany (tracks : List (Track α)) :
    ofTracks tracks = Std.ExtTreeMap.insertMany ∅ (placesOf tracks) := by
  unfold ofTracks placesOf
  generalize tracks.zipIdx = entries
  generalize (∅ : ClipIndex) = index
  induction entries generalizing index with
  | nil => simp
  | cons entry entries ih =>
      obtain ⟨track, i⟩ := entry
      rw [List.foldl_cons, List.flatMap_cons, Std.ExtTreeMap.insertMany_append,
        ← notePlaces_eq_insertMany]
      exact ih _

theorem map_fst_placesOn (track : Nat) (clips : List (Clip α)) :
    (placesOn track clips).map Prod.fst = clips.map Clip.id := by
  have h : (Prod.fst ∘ fun (clip, position) => (clip.id, (⟨track, position⟩ : Location)))
      = Clip.id ∘ (Prod.fst : Clip α × Nat → Clip α) := rfl
  rw [placesOn, List.map_map, h, ← List.map_map, List.zipIdx_map_fst]

theorem map_fst_placesOf (tracks : List (Track α)) :
    (placesOf tracks).map Prod.fst = (tracks.flatMap Track.clips).map Clip.id := by
  have hunzip : tracks.flatMap Track.clips = (tracks.zipIdx.map Prod.fst).flatMap Track.clips := by
    rw [List.zipIdx_map_fst]
  simp only [hunzip, placesOf, List.map_flatMap, List.flatMap_map, map_fst_placesOn]

theorem mem_placesOn {track : Nat} {clips : List (Clip α)} {id : ClipId} {place : Location} :
    (id, place) ∈ placesOn track clips ↔
      place.track = track ∧ ∃ clip, clips[place.position]? = some clip ∧ clip.id = id := by
  simp only [placesOn, List.mem_map, Prod.exists, List.mem_zipIdx_iff_getElem?, Prod.mk.injEq]
  constructor
  · rintro ⟨clip, position, hclip, hid, rfl⟩
    exact ⟨rfl, clip, hclip, hid⟩
  · rintro ⟨rfl, clip, hclip, hid⟩
    exact ⟨clip, place.position, hclip, hid, rfl⟩

theorem mem_placesOf {tracks : List (Track α)} {id : ClipId} {place : Location} :
    (id, place) ∈ placesOf tracks ↔
      ∃ track clip, tracks[place.track]? = some track ∧ track.clips[place.position]? = some clip ∧
        clip.id = id := by
  simp only [placesOf, List.mem_flatMap, Prod.exists, List.mem_zipIdx_iff_getElem?, mem_placesOn]
  constructor
  · rintro ⟨track, i, htrack, rfl, clip, hclip, hid⟩
    exact ⟨track, clip, htrack, hclip, hid⟩
  · rintro ⟨track, clip, htrack, hclip, hid⟩
    exact ⟨track, place.track, htrack, rfl, clip, hclip, hid⟩

/-- Of places with distinct ids, an index finds those that it notes, and what it found before. -/
theorem getElem?_insertMany_iff (index : ClipIndex) {places : List (ClipId × Location)}
    (hnodup : (places.map Prod.fst).Nodup) {id : ClipId} {place : Location} :
    (index.insertMany places)[id]? = some place ↔
      (id, place) ∈ places ∨ (id ∉ places.map Prod.fst ∧ index[id]? = some place) := by
  have hdistinct : places.Pairwise fun a b => ¬ compare a.1 b.1 = .eq := by
    rw [List.Nodup, List.pairwise_map] at hnodup
    exact hnodup.imp fun h => by simpa using h
  by_cases hmem : id ∈ places.map Prod.fst
  · obtain ⟨⟨_, found⟩, hfound, rfl⟩ := List.mem_map.1 hmem
    have hget := Std.ExtTreeMap.getElem?_insertMany_list_of_mem (t := index)
      (Std.ReflCmp.compare_self) hdistinct hfound
    constructor
    · intro h
      rw [hget] at h
      cases h
      exact .inl hfound
    · rintro (h | ⟨h, _⟩)
      · exact Std.ExtTreeMap.getElem?_insertMany_list_of_mem (Std.ReflCmp.compare_self) hdistinct h
      · exact absurd hmem h
  · have hget := Std.ExtTreeMap.getElem?_insertMany_list_of_contains_eq_false (t := index)
      (l := places) (k := id) (by simpa using hmem)
    rw [hget]
    constructor
    · exact fun h => .inr ⟨hmem, h⟩
    · rintro (h | ⟨_, h⟩)
      · exact absurd (List.mem_map_of_mem (f := Prod.fst) h) hmem
      · exact h

end ClipIndex

/-! ## Timelines whose index is in step -/

namespace Timeline

/-- An id is found at a place exactly when the clip there has it. -/
def InStep (t : Timeline α) : Prop :=
  ∀ id place, t.locate? id = some place ↔ ∃ clip, t.clipAt? place = some clip ∧ clip.id = id

theorem clipAt?_eq_some_iff {t : Timeline α} {place : Location} {clip : Clip α} :
    t.clipAt? place = some clip ↔
      ∃ track, t.tracks[place.track]? = some track ∧ track.clips[place.position]? = some clip := by
  simp [clipAt?, Option.bind_eq_some_iff]

theorem mem_clips {t : Timeline α} {clip : Clip α} :
    clip ∈ t.clips ↔ ∃ track ∈ t.tracks, clip ∈ track.clips := by
  simp [clips]

theorem mem_clips_iff_clipAt? {t : Timeline α} {clip : Clip α} :
    clip ∈ t.clips ↔ ∃ place, t.clipAt? place = some clip := by
  rw [mem_clips]
  constructor
  · rintro ⟨track, htrack, hclip⟩
    obtain ⟨i, hi⟩ := List.mem_iff_getElem?.1 htrack
    obtain ⟨position, hposition⟩ := List.mem_iff_getElem?.1 hclip
    exact ⟨⟨i, position⟩, clipAt?_eq_some_iff.2 ⟨track, hi, hposition⟩⟩
  · rintro ⟨place, hplace⟩
    obtain ⟨track, htrack, hclip⟩ := clipAt?_eq_some_iff.1 hplace
    exact ⟨track, List.mem_of_getElem? htrack, List.mem_of_getElem? hclip⟩

/-- The index that is made from tracks with distinct clip ids is in step. -/
theorem inStep_of_index_eq {t : Timeline α} (hindex : t.index = .ofTracks t.tracks)
    (hids : (t.clips.map Clip.id).Nodup) : t.InStep := by
  intro id place
  have hnodup : ((ClipIndex.placesOf t.tracks).map Prod.fst).Nodup := by
    rw [ClipIndex.map_fst_placesOf]
    exact hids
  rw [locate?, hindex, ClipIndex.ofTracks_eq_insertMany,
    ClipIndex.getElem?_insertMany_iff _ hnodup, ClipIndex.mem_placesOf]
  simp only [clipAt?_eq_some_iff, Std.ExtTreeMap.getElem?_empty, reduceCtorEq, and_false, or_false]
  constructor
  · rintro ⟨track, clip, htrack, hclip, hid⟩
    exact ⟨clip, ⟨track, htrack, hclip⟩, hid⟩
  · rintro ⟨clip, ⟨track, htrack, hclip⟩, hid⟩
    exact ⟨track, clip, htrack, hclip, hid⟩

namespace InStep

variable {t : Timeline α}

theorem place_unique (h : t.InStep) {place other : Location} {clip copy : Clip α}
    (hclip : t.clipAt? place = some clip) (hcopy : t.clipAt? other = some copy)
    (hid : clip.id = copy.id) : place = other := by
  have hplace := (h clip.id place).2 ⟨clip, hclip, rfl⟩
  have hother := (h clip.id other).2 ⟨copy, hcopy, hid.symm⟩
  rw [hplace] at hother
  exact Option.some.inj hother

/-- A clip is told by its id. -/
theorem eq_of_id_eq (h : t.InStep) {clip copy : Clip α} (hclip : clip ∈ t.clips)
    (hcopy : copy ∈ t.clips) (hid : clip.id = copy.id) : clip = copy := by
  obtain ⟨place, hplace⟩ := mem_clips_iff_clipAt?.1 hclip
  obtain ⟨other, hother⟩ := mem_clips_iff_clipAt?.1 hcopy
  rw [h.place_unique hplace hother hid, hother] at hplace
  exact (Option.some.inj hplace).symm

theorem nodup_ids_track (h : t.InStep) {track : Track α} (htrack : track ∈ t.tracks) :
    (track.clips.map Clip.id).Nodup := by
  obtain ⟨i, hi⟩ := List.mem_iff_getElem?.1 htrack
  rw [List.Nodup, List.pairwise_map, List.pairwise_iff_getElem]
  intro p q hp hq hlt hid
  have hplace := h.place_unique
    (clipAt?_eq_some_iff.2 ⟨track, hi, List.getElem?_eq_getElem hp⟩ : t.clipAt? ⟨i, p⟩ = _)
    (clipAt?_eq_some_iff.2 ⟨track, hi, List.getElem?_eq_getElem hq⟩ : t.clipAt? ⟨i, q⟩ = _) hid
  have hpq : p = q := congrArg Location.position hplace
  omega

theorem nodup_ids (h : t.InStep) : (t.clips.map Clip.id).Nodup := by
  rw [List.Nodup, List.pairwise_map, clips, List.pairwise_flatMap]
  refine ⟨fun track htrack => List.pairwise_map.1 (h.nodup_ids_track htrack), ?_⟩
  rw [List.pairwise_iff_getElem]
  intro i j hi hj hlt clip hclip copy hcopy hid
  obtain ⟨p, hp⟩ := List.mem_iff_getElem?.1 hclip
  obtain ⟨q, hq⟩ := List.mem_iff_getElem?.1 hcopy
  have hplace := h.place_unique
    (clipAt?_eq_some_iff.2 ⟨_, List.getElem?_eq_getElem hi, hp⟩ : t.clipAt? ⟨i, p⟩ = _)
    (clipAt?_eq_some_iff.2 ⟨_, List.getElem?_eq_getElem hj, hq⟩ : t.clipAt? ⟨j, q⟩ = _) hid
  have hij : i = j := congrArg Location.track hplace
  omega

theorem filter_id_eq (h : t.InStep) {clip : Clip α} (hclip : clip ∈ t.clips) :
    t.clips.filter (·.id = clip.id) = [clip] := by
  have hnodup := h.nodup_ids
  generalize t.clips = clips at hclip hnodup
  induction clips with
  | nil => cases hclip
  | cons first rest ih =>
      rw [List.map_cons, List.nodup_cons] at hnodup
      rcases List.mem_cons.1 hclip with rfl | hrest
      · rw [List.filter_cons_of_pos (by simp), List.filter_eq_nil_iff.2]
        intro other hother hid
        exact hnodup.1 (List.mem_map.2 ⟨other, hother, of_decide_eq_true hid⟩)
      · have hne : first.id ≠ clip.id := fun hid =>
          hnodup.1 (hid ▸ List.mem_map_of_mem hrest)
        rw [List.filter_cons_of_neg (by simpa using hne), ih hrest hnodup.2]

theorem clip?_eq_some_iff (h : t.InStep) {id : ClipId} {clip : Clip α} :
    t.clip? id = some clip ↔ clip ∈ t.clips ∧ clip.id = id := by
  simp only [clip?, Option.bind_eq_bind, Option.bind_eq_some_iff, h id]
  constructor
  · rintro ⟨place, ⟨found, hfound, hid⟩, hclip⟩
    rw [hfound] at hclip
    cases hclip
    exact ⟨mem_clips_iff_clipAt?.2 ⟨place, hfound⟩, hid⟩
  · rintro ⟨hclip, hid⟩
    obtain ⟨place, hplace⟩ := mem_clips_iff_clipAt?.1 hclip
    exact ⟨place, ⟨clip, hplace, hid⟩, hplace⟩

theorem clip?_id (h : t.InStep) {clip : Clip α} (hclip : clip ∈ t.clips) :
    t.clip? clip.id = some clip :=
  h.clip?_eq_some_iff.2 ⟨hclip, rfl⟩

theorem clip?_eq_none_iff (h : t.InStep) {id : ClipId} :
    t.clip? id = none ↔ ∀ clip ∈ t.clips, clip.id ≠ id := by
  constructor
  · intro hnone clip hclip hid
    have hsome := h.clip?_eq_some_iff.2 ⟨hclip, hid⟩
    rw [hnone] at hsome
    cases hsome
  · intro hall
    cases hfound : t.clip? id with
    | none => rfl
    | some clip =>
        obtain ⟨hclip, hid⟩ := h.clip?_eq_some_iff.1 hfound
        exact absurd hid (hall clip hclip)

theorem locate?_eq_none_iff (h : t.InStep) {id : ClipId} :
    t.locate? id = none ↔ ∀ clip ∈ t.clips, clip.id ≠ id := by
  constructor
  · intro hnone clip hclip hid
    obtain ⟨place, hplace⟩ := mem_clips_iff_clipAt?.1 hclip
    have hsome := (h id place).2 ⟨clip, hplace, hid⟩
    rw [hnone] at hsome
    cases hsome
  · intro hall
    cases hfound : t.locate? id with
    | none => rfl
    | some place =>
        obtain ⟨clip, hclip, hid⟩ := (h id place).1 hfound
        exact absurd hid (hall clip (mem_clips_iff_clipAt?.2 ⟨place, hclip⟩))

end InStep

end Timeline

end Montage
