import Mathlib.Data.List.Nodup
import Montage.Proofs.Lineage
import Std.Data.String.ToNat

/-!
# The layout of the tracks

Changes of clips leave the ids and kinds of the tracks alone, and clips on the tracks that they
name. What is known of the tracks at first is known of them ever after.
-/

namespace Montage

variable {α : Type}

namespace Timeline

/-! ## Layouts -/

/-- The ids and kinds of the tracks. -/
def layout (t : Timeline α) : List (TrackId × TrackKind) :=
  t.tracks.map fun track => (track.id, track.kind)

/-- Clips stand on the tracks that they name. -/
def Housed (t : Timeline α) : Prop :=
  ∀ track ∈ t.tracks, ∀ clip ∈ track.clips, clip.track = track.id

variable {t next : Timeline α}

theorem map_fst_layout (t : Timeline α) : t.layout.map Prod.fst = t.tracks.map Track.id := by
  rw [layout, List.map_map]
  rfl

theorem mem_layout {track : Track α} (h : track ∈ t.tracks) : (track.id, track.kind) ∈ t.layout :=
  List.mem_map_of_mem h

theorem Revision.layout_eq {keep : Clip α → Bool} {alter : Clip α → Clip α} {new : List (Clip α)}
    (h : t.Revision keep alter new next) : next.layout = t.layout := by
  apply List.ext_getElem?
  intro i
  simp [layout, h.getElem?_tracks, Function.comp_def, Track.revise]

theorem Revision.housed {keep : Clip α → Bool} {alter : Clip α → Clip α} {new : List (Clip α)}
    (hrevision : t.Revision keep alter new next) (h : t.Housed)
    (halter : ∀ clip, (alter clip).track = clip.track) : next.Housed := by
  intro track htrack clip hclip
  obtain ⟨i, old, hold, rfl⟩ := hrevision.exists_track htrack
  rcases List.mem_append.1 hclip with hkept | hnew
  · obtain ⟨source, hsource, rfl⟩ := List.mem_map.1 hkept
    rw [halter]
    exact h old (List.mem_of_getElem? hold) source (List.mem_filter.1 hsource).1
  · obtain ⟨_, hhome⟩ := List.mem_filter.1 hnew
    change clip.track = old.id
    exact track_eq_of_home? (of_decide_eq_true hhome) hold

theorem eq_of_track_id_eq (hids : (t.tracks.map Track.id).Nodup) {track other : Track α}
    (htrack : track ∈ t.tracks) (hother : other ∈ t.tracks) (hid : track.id = other.id) :
    track = other :=
  List.inj_on_of_nodup_map hids htrack hother hid

theorem track?_id (hids : (t.tracks.map Track.id).Nodup) {track : Track α}
    (htrack : track ∈ t.tracks) : t.track? track.id = some track := by
  have hsome : (t.track? track.id).isSome := by
    rw [track?, List.find?_isSome]
    exact ⟨track, htrack, by simp⟩
  obtain ⟨found, hfound⟩ := Option.isSome_iff_exists.1 hsome
  have hid : found.id = track.id := by simpa using List.find?_some hfound
  rw [hfound, eq_of_track_id_eq hids (List.mem_of_find?_eq_some hfound) htrack hid]

theorem Housed.mem_clips_track (h : t.Housed) (hids : (t.tracks.map Track.id).Nodup)
    {track : Track α} (htrack : track ∈ t.tracks) {clip : Clip α} (hclip : clip ∈ t.clips)
    (hnames : clip.track = track.id) : clip ∈ track.clips := by
  obtain ⟨house, hhouse, hin⟩ := mem_clips.1 hclip
  have hid : house.id = track.id := (h house hhouse clip hin).symm.trans hnames
  rwa [← eq_of_track_id_eq hids hhouse htrack hid]

/-- Of tracks with distinct ids, the one that a clip names is its home. -/
theorem home?_eq_some_iff (hids : (t.tracks.map Track.id).Nodup) {clip : Clip α} {i : Nat}
    {track : Track α} (htrack : t.tracks[i]? = some track) :
    t.home? clip = some i ↔ clip.track = track.id := by
  refine ⟨fun hhome => track_eq_of_home? hhome htrack, fun hid => ?_⟩
  obtain ⟨hi, rfl⟩ := List.getElem?_eq_some_iff.1 htrack
  refine List.findIdx?_eq_some_iff_getElem.2 ⟨hi, by simpa using hid.symm, fun j hj => ?_⟩
  have hne := List.pairwise_iff_getElem.1 hids j i (by simp; omega) (by simpa using hi) hj
  simpa [hid] using hne

/-! ## The layout of a new project -/

theorem audioName_inj {m n : Nat} (h : s!"audio-{m + 1}" = s!"audio-{n + 1}") : m = n := by
  have hrepr : (m + 1).repr = (n + 1).repr := by
    simpa [toString, String.append_right_inj] using h
  have hsucc := Nat.repr_injective hrepr
  omega

theorem audioName_ne (n : Nat) : s!"audio-{n + 1}" ≠ "video-1" ∧ s!"audio-{n + 1}" ≠ "av-1" := by
  constructor
  · intro h
    have hlist := congrArg String.toList h
    simp [toString] at hlist
  · intro h
    have hlist := congrArg String.toList h
    simp [toString] at hlist

/-- The ids and kinds of the tracks of a new project. -/
def standardLayout (audioTracks : Nat) : List (TrackId × TrackKind) :=
  [("video-1", .video), ("av-1", .av)] ++
    (List.range audioTracks).map fun n => (s!"audio-{n + 1}", .audio)

theorem layout_standard (project : String) (audioTracks : Nat) :
    (standard (α := α) project audioTracks).layout = standardLayout audioTracks := by
  simp [layout, standard, ofTracks, assemble, standardTracks, standardLayout]

theorem mem_standardLayout {audioTracks : Nat} {id : TrackId} {kind : TrackKind} :
    (id, kind) ∈ standardLayout audioTracks ↔
      (id = "video-1" ∧ kind = .video) ∨ (id = "av-1" ∧ kind = .av) ∨
        ∃ n < audioTracks, id = s!"audio-{n + 1}" ∧ kind = .audio := by
  simp only [standardLayout, List.mem_append, List.mem_cons, List.not_mem_nil, or_false,
    List.mem_map, List.mem_range, Prod.mk.injEq, or_assoc]
  constructor
  · rintro (h | h | ⟨n, hn, rfl, rfl⟩)
    · exact .inl h
    · exact .inr (.inl h)
    · exact .inr (.inr ⟨n, hn, rfl, rfl⟩)
  · rintro (h | h | ⟨n, hn, rfl, rfl⟩)
    · exact .inl h
    · exact .inr (.inl h)
    · exact .inr (.inr ⟨n, hn, rfl, rfl⟩)

theorem nodup_standardLayout (audioTracks : Nat) :
    ((standardLayout audioTracks).map Prod.fst).Nodup := by
  have hids : (standardLayout audioTracks).map Prod.fst =
      "video-1" :: "av-1" :: (List.range audioTracks).map fun n => s!"audio-{n + 1}" := by
    simp [standardLayout]
  rw [hids, List.nodup_cons, List.nodup_cons]
  refine ⟨?_, ?_, List.nodup_range.map fun _ _ => audioName_inj⟩
  · intro hmem
    rcases List.mem_cons.1 hmem with heq | hmem
    · exact absurd heq (by decide)
    · obtain ⟨n, _, heq⟩ := List.mem_map.1 hmem
      exact (audioName_ne n).1 heq
  · intro hmem
    obtain ⟨n, _, heq⟩ := List.mem_map.1 hmem
    exact (audioName_ne n).2 heq

theorem clips_standard (project : String) (audioTracks : Nat) :
    (standard (α := α) project audioTracks).clips = [] := by
  simp [clips, standard, ofTracks, assemble, standardTracks]

theorem inStep_standard (project : String) (audioTracks : Nat) :
    (standard (α := α) project audioTracks).InStep :=
  inStep_of_index_eq rfl (by simp [clips_standard])

theorem unnamed_standard {ids : IdSupply} (h : ids.Fresh fun _ => False) (project : String)
    (audioTracks : Nat) : (standard (α := α) project audioTracks).Unnamed ids where
  injective := h.injective
  unused n _ := by
    rintro ⟨clip, hclip, _⟩
    simp [clips_standard] at hclip

theorem housed_standard (project : String) (audioTracks : Nat) :
    (standard (α := α) project audioTracks).Housed := by
  intro track htrack clip hclip
  have hmem : clip ∈ (standard (α := α) project audioTracks).clips :=
    mem_clips.2 ⟨track, htrack, hclip⟩
  rw [clips_standard] at hmem
  cases hmem

end Timeline

end Montage
