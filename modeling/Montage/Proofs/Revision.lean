import Montage.Proofs.Index

/-!
# Revisions of a timeline

Every change of clips has one shape: on each track some clips are dropped, the others are altered
where they stand, and new ones are put at the end. `Timeline.Revision` states that shape for a whole
timeline. What a change does to the clips is read off there, not off the index.
-/

namespace Montage

variable {α : Type}

/-! ## The shape of a change -/

/-- The track with some clips dropped, the others altered, and new ones at its end. -/
def Track.revise (track : Track α) (keep : Clip α → Bool) (alter : Clip α → Clip α)
    (new : List (Clip α)) : Track α :=
  { track with clips := (track.clips.filter keep).map alter ++ new }

theorem Track.revise_keeping_all (track : Track α) (new : List (Clip α)) :
    track.revise (fun _ => true) (fun clip => clip) new =
      { track with clips := track.clips ++ new } := by
  simp [revise, List.filter_eq_self.2]

namespace Timeline

/-- The position of the track that a clip names; of tracks with one id the first counts. -/
def home? (t : Timeline α) (clip : Clip α) : Option Nat :=
  t.tracks.findIdx? (·.id = clip.track)

/-- The second timeline is the first one with every track revised, and its index is in step. -/
structure Revision (t : Timeline α) (keep : Clip α → Bool) (alter : Clip α → Clip α)
    (new : List (Clip α)) (next : Timeline α) : Prop where
  inStep : next.InStep
  id_eq : next.id = t.id
  captions_eq : next.captions = t.captions
  shapes_eq : next.shapes = t.shapes
  homed : ∀ clip ∈ new, ∃ i, t.home? clip = some i
  getElem?_tracks : ∀ i, next.tracks[i]? =
    t.tracks[i]?.map fun (track : Track α) =>
      track.revise keep alter (new.filter (t.home? · = some i))

theorem home?_eq_some {t : Timeline α} {clip : Clip α} {i : Nat} (h : t.home? clip = some i) :
    ∃ track, t.tracks[i]? = some track ∧ track.id = clip.track := by
  obtain ⟨hi, hid, _⟩ := List.findIdx?_eq_some_iff_getElem.1 h
  exact ⟨t.tracks[i], List.getElem?_eq_getElem hi, by simpa using hid⟩

theorem track_eq_of_home? {t : Timeline α} {clip : Clip α} {i : Nat} (h : t.home? clip = some i)
    {track : Track α} (htrack : t.tracks[i]? = some track) : clip.track = track.id := by
  obtain ⟨found, hfound, hid⟩ := home?_eq_some h
  rw [htrack] at hfound
  cases hfound
  exact hid.symm

namespace Revision

variable {t next last : Timeline α} {keep keep' : Clip α → Bool} {alter alter' : Clip α → Clip α}
  {new new' : List (Clip α)}

theorem refl (h : t.InStep) : t.Revision (fun _ => true) (fun clip => clip) [] t where
  inStep := h
  id_eq := rfl
  captions_eq := rfl
  shapes_eq := rfl
  homed := by simp
  getElem?_tracks i := by simp [Track.revise_keeping_all]

theorem map_id_tracks (h : t.Revision keep alter new next) :
    next.tracks.map Track.id = t.tracks.map Track.id := by
  apply List.ext_getElem?
  intro i
  simp [h.getElem?_tracks, Function.comp_def, Track.revise]

theorem home?_eq (h : t.Revision keep alter new next) (clip : Clip α) :
    next.home? clip = t.home? clip := by
  have hfind (tracks : List (Track α)) :
      tracks.findIdx? (·.id = clip.track) = (tracks.map Track.id).findIdx? (· = clip.track) := by
    rw [List.findIdx?_map]
    rfl
  rw [home?, home?, hfind, hfind, h.map_id_tracks]

/-- The first track under an id is the revised one that was the first. -/
theorem track?_eq (h : t.Revision keep alter new next) {id : TrackId} {track : Track α}
    (htrack : t.track? id = some track) :
    ∃ i, t.tracks[i]? = some track ∧
      next.track? id = some (track.revise keep alter (new.filter (t.home? · = some i))) := by
  have hfind (tracks : List (Track α)) :
      tracks.find? (·.id = id) = ((tracks.map Track.id).findIdx? (· = id)).bind (tracks[·]?) := by
    rw [List.find?_eq_bind_findIdx?_getElem?, List.findIdx?_map]
    rfl
  rw [track?, hfind] at htrack
  obtain ⟨i, hi, hat⟩ := Option.bind_eq_some_iff.1 htrack
  refine ⟨i, hat, ?_⟩
  rw [track?, hfind, h.map_id_tracks, hi, Option.bind_some, h.getElem?_tracks, hat]
  rfl

theorem exists_track (h : t.Revision keep alter new next) {track : Track α}
    (htrack : track ∈ next.tracks) :
    ∃ (i : Nat) (old : Track α), t.tracks[i]? = some old ∧
      track = old.revise keep alter (new.filter (t.home? · = some i)) := by
  obtain ⟨i, hi⟩ := List.mem_iff_getElem?.1 htrack
  rw [h.getElem?_tracks] at hi
  obtain ⟨old, hold, rfl⟩ := Option.map_eq_some_iff.1 hi
  exact ⟨i, old, hold, rfl⟩

theorem mem_clips (h : t.Revision keep alter new next) {clip : Clip α} :
    clip ∈ next.clips ↔ (∃ old ∈ t.clips, keep old = true ∧ alter old = clip) ∨ clip ∈ new := by
  constructor
  · intro hclip
    obtain ⟨track, htrack, hmem⟩ := Timeline.mem_clips.1 hclip
    obtain ⟨i, old, hold, rfl⟩ := h.exists_track htrack
    rcases List.mem_append.1 hmem with hkept | hnew
    · obtain ⟨source, hsource, rfl⟩ := List.mem_map.1 hkept
      obtain ⟨hsource, hkeep⟩ := List.mem_filter.1 hsource
      have hmem := Timeline.mem_clips.2 ⟨old, List.mem_of_getElem? hold, hsource⟩
      exact .inl ⟨source, hmem, hkeep, rfl⟩
    · exact .inr (List.mem_filter.1 hnew).1
  · rintro (⟨source, hsource, hkeep, rfl⟩ | hnew)
    · obtain ⟨old, hold, hmem⟩ := Timeline.mem_clips.1 hsource
      obtain ⟨i, hi⟩ := List.mem_iff_getElem?.1 hold
      refine Timeline.mem_clips.2 ⟨_, List.mem_of_getElem? (i := i) (by
        rw [h.getElem?_tracks, hi]
        rfl), ?_⟩
      exact List.mem_append_left _ (List.mem_map_of_mem (List.mem_filter.2 ⟨hmem, hkeep⟩))
    · obtain ⟨i, hi⟩ := h.homed clip hnew
      obtain ⟨old, hold, _⟩ := home?_eq_some hi
      refine Timeline.mem_clips.2 ⟨_, List.mem_of_getElem? (i := i) (by
        rw [h.getElem?_tracks, hold]
        rfl), ?_⟩
      exact List.mem_append_right _ (List.mem_filter.2 ⟨hnew, by simpa using hi⟩)

/-- Looking up an id finds what it did, if its clip is kept as it is and no new one has it. -/
theorem clip?_eq (h : t.Revision keep alter new next) (hstep : t.InStep) {id : ClipId}
    (halter : ∀ clip ∈ t.clips, (alter clip).id = clip.id)
    (hkept : ∀ clip ∈ t.clips, clip.id = id → keep clip = true ∧ alter clip = clip)
    (hnew : ∀ clip ∈ new, clip.id ≠ id) : next.clip? id = t.clip? id := by
  refine Option.ext fun clip => ?_
  rw [h.inStep.clip?_eq_some_iff, hstep.clip?_eq_some_iff, h.mem_clips]
  constructor
  · rintro ⟨⟨old, hold, _, rfl⟩ | hclip, hid⟩
    · rw [halter old hold] at hid
      rw [(hkept old hold hid).2]
      exact ⟨hold, hid⟩
    · exact absurd hid (hnew clip hclip)
  · rintro ⟨hclip, hid⟩
    obtain ⟨hkeep, hsame⟩ := hkept clip hclip hid
    exact ⟨.inl ⟨clip, hclip, hkeep, hsame⟩, hid⟩

theorem congr (h : t.Revision keep alter new next)
    (hkeep : ∀ clip ∈ t.clips, keep clip = keep' clip)
    (halter : ∀ clip ∈ t.clips, alter clip = alter' clip) (hnew : new = new') :
    t.Revision keep' alter' new' next where
  inStep := h.inStep
  id_eq := h.id_eq
  captions_eq := h.captions_eq
  shapes_eq := h.shapes_eq
  homed := hnew ▸ h.homed
  getElem?_tracks i := by
    rw [h.getElem?_tracks, hnew]
    refine Option.map_congr fun track htrack => ?_
    have hmem (clip) (hclip : clip ∈ track.clips) : clip ∈ t.clips :=
      Timeline.mem_clips.2 ⟨track, List.mem_of_getElem? htrack, hclip⟩
    have hfilter : track.clips.filter keep = track.clips.filter keep' :=
      List.filter_congr fun clip hclip => hkeep clip (hmem clip hclip)
    have hmap : (track.clips.filter keep').map alter = (track.clips.filter keep').map alter' :=
      List.map_congr_left fun clip hclip =>
        halter clip (hmem clip (List.mem_filter.1 hclip).1)
    simp only [Track.revise, hfilter, hmap]

/-- Two revisions in a row make one. The second alters what the first put in. -/
theorem trans (h : t.Revision keep alter new next) (h' : next.Revision keep' alter' new' last)
    (htrack : ∀ clip, (alter' clip).track = clip.track) :
    t.Revision (fun clip => keep clip && keep' (alter clip)) (alter' ∘ alter)
      ((new.filter keep').map alter' ++ new') last where
  inStep := h'.inStep
  id_eq := h'.id_eq.trans h.id_eq
  captions_eq := h'.captions_eq.trans h.captions_eq
  shapes_eq := h'.shapes_eq.trans h.shapes_eq
  homed clip hclip := by
    rcases List.mem_append.1 hclip with hold | hnew
    · obtain ⟨source, hsource, rfl⟩ := List.mem_map.1 hold
      obtain ⟨i, hi⟩ := h.homed source (List.mem_filter.1 hsource).1
      exact ⟨i, by simpa only [home?, htrack] using hi⟩
    · obtain ⟨i, hi⟩ := h'.homed clip hnew
      exact ⟨i, by rwa [h.home?_eq] at hi⟩
  getElem?_tracks i := by
    rw [h'.getElem?_tracks, h.getElem?_tracks, Option.map_map]
    refine Option.map_congr fun track _ => ?_
    have hhome (clip : Clip α) : t.home? (alter' clip) = t.home? clip := by
      simp only [home?, htrack]
    have hcommute : ((new.filter (t.home? · = some i)).filter keep').map alter' =
        ((new.filter keep').map alter').filter (t.home? · = some i) := by
      rw [List.filter_map, List.filter_filter, List.filter_filter]
      simp only [Function.comp_def, hhome, Bool.and_comm]
    have hkept : ((track.clips.filter keep).map alter).filter keep' =
        (track.clips.filter fun clip => keep clip && keep' (alter clip)).map alter := by
      rw [List.filter_map, List.filter_filter]
      simp only [Function.comp_def, Bool.and_comm]
    simp only [Function.comp, Track.revise, List.filter_append, List.map_append, hkept, hcommute,
      List.map_map, h.home?_eq, List.append_assoc]

end Revision

end Timeline

end Montage
