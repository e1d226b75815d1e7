import Montage.Proofs.Pieces

/-!
# Overlap is time that is shared

On exact times, two spans longer than the tolerance overlap exactly when the instants that lie in
both make up more than the tolerance. A part of a span shares no more than the span does, so that a
split leaves no piece that overlaps anything its clip did not.
-/

namespace Montage

namespace Span

/-- The instants that lie in both spans. -/
def common (s t : Span Rat) : Span Rat :=
  ⟨max s.start t.start, min s.stop t.stop⟩

/-- How much time lies in the span; none does in one that stops before it starts. -/
def extent (s : Span Rat) : Rat :=
  max 0 s.length

/-- Every instant of the one span lies in the other. -/
def IsPartOf (part whole : Span Rat) : Prop :=
  ∀ instant, part.covers instant = true → whole.covers instant = true

variable {s t part whole : Span Rat} {ε : Rat}

theorem covers_common (s t : Span Rat) (instant : Rat) :
    (s.common t).covers instant = (s.covers instant && t.covers instant) := by
  rw [Bool.eq_iff_iff, Bool.and_eq_true, covers_iff, covers_iff, covers_iff, common, max_le_iff,
    lt_min_iff]
  exact and_and_and_comm

theorem lt_extent_iff (hε : 0 ≤ ε) : ε < s.extent ↔ ε < s.length := by
  rw [extent, lt_max_iff, or_iff_right (not_lt.2 hε)]

theorem overlaps_iff :
    s.overlaps t ε = true ↔ s.start + ε < t.stop ∧ t.start + ε < s.stop := by
  rw [← Bool.not_eq_false, overlaps_eq_false_iff, not_or, not_le, not_le]

/-- The least of the four differences of a stop and a start is what is shared. -/
theorem lt_length_common_iff :
    ε < (s.common t).length ↔ (ε < s.length ∧ ε < t.length) ∧ s.overlaps t ε = true := by
  have hfour : ε < (s.common t).length ↔ (s.start + ε < s.stop ∧ s.start + ε < t.stop) ∧
      t.start + ε < s.stop ∧ t.start + ε < t.stop := by
    rw [common, length, lt_sub_comm, max_lt_iff, lt_sub_iff_add_lt, lt_sub_iff_add_lt, lt_min_iff,
      lt_min_iff]
  rw [hfour, overlaps_iff, length, length, lt_sub_iff_add_lt', lt_sub_iff_add_lt']
  tauto

theorem overlaps_shift_eq (s t : Span Rat) (ε delta : Rat) :
    (s.shift delta).overlaps (t.shift delta) ε = s.overlaps t ε := by
  rw [Bool.eq_iff_iff, overlaps_iff, overlaps_iff, shift, shift, add_right_comm,
    add_lt_add_iff_right, add_right_comm, add_lt_add_iff_right]

/-- A span with an instant in it is a part of another only if its ends are within it. -/
theorem IsPartOf.within (h : part.IsPartOf whole) (hpart : part.start < part.stop) :
    whole.start ≤ part.start ∧ part.stop ≤ whole.stop := by
  have hcovers {instant : Rat} (hinstant : part.start ≤ instant ∧ instant < part.stop) :=
    covers_iff.1 (h instant (covers_iff.2 hinstant))
  refine ⟨(hcovers ⟨le_refl _, hpart⟩).1, le_of_not_gt fun hlater => ?_⟩
  -- Otherwise the part goes on where the whole stops, or starts only after that.
  have hlast := hcovers ⟨le_max_left part.start whole.stop, max_lt hpart hlater⟩
  exact absurd (le_max_right part.start whole.stop) (not_le.2 hlast.2)

theorem isPartOf_of_within (h : whole.start ≤ part.start ∧ part.stop ≤ whole.stop) :
    part.IsPartOf whole := by
  intro instant hcovers
  have hbounds := covers_iff.1 hcovers
  exact covers_iff.2 ⟨h.1.trans hbounds.1, hbounds.2.trans_le h.2⟩

theorem overlaps_of_within (h : whole.start ≤ part.start ∧ part.stop ≤ whole.stop)
    (hover : part.overlaps t ε = true) : whole.overlaps t ε = true := by
  by_contra hfree
  rw [Bool.not_eq_true] at hfree
  rw [overlaps_eq_false_of_within hfree h ⟨le_refl _, le_refl _⟩] at hover
  cases hover

/--
Spans longer than the tolerance overlap exactly when they share more than the tolerance, whichever
of them is asked and wherever they are shifted. A span overlaps what a long part of it overlaps, and
a split cuts clips into parts: what overlaps a piece has overlapped its clip.
-/
theorem overlaps_iff_lt_extent {ε : Rat} (hε : 0 ≤ ε) {a b : Span Rat} (ha : ε < a.length)
    (hb : ε < b.length) :
    (∀ instant, (a.common b).covers instant = (a.covers instant && b.covers instant)) ∧
    (a.overlaps b ε = true ↔ ε < (a.common b).extent) ∧
    a.overlaps b ε = b.overlaps a ε ∧
    (∀ delta, (a.shift delta).overlaps (b.shift delta) ε = a.overlaps b ε) ∧
    (∀ part : Span Rat, part.IsPartOf a → ε < part.length → part.overlaps b ε = true →
      a.overlaps b ε = true) ∧
    ∀ (t : Timeline Rat) (id : ClipId) (instant : Rat) (ids : IdSupply) (rights : List ClipId)
      (next : Timeline Rat) (left : IdSupply),
      t.Made → t.split id instant ε ids = (.ok (some (rights, next)), left) →
      ∀ piece ∈ next.clips, ∃ clip ∈ t.clips,
        piece.track = clip.track ∧ (piece.id = clip.id ∨ piece.id ∈ rights) ∧
        piece.span.IsPartOf clip.span ∧
        (piece.span.overlaps b ε = true → clip.span.overlaps b ε = true) := by
  refine ⟨covers_common a b, ?_, overlaps_comm a b ε, overlaps_shift_eq a b ε,
    fun part hpart hlong hover => ?_, ?_⟩
  · rw [lt_extent_iff hε, lt_length_common_iff, and_iff_right ⟨ha, hb⟩]
  · have hstart : part.start < part.stop := sub_pos.1 (hε.trans_lt hlong)
    exact overlaps_of_within (hpart.within hstart) hover
  · intro t id instant ids rights next left hmade hsplit piece hpiece
    obtain ⟨clip, hclip, htrack, hid, hwithin⟩ :=
      Timeline.exists_whole_of_split hmade.truthful.findsById hsplit hpiece
    exact ⟨clip, hclip, htrack, hid, isPartOf_of_within hwithin, overlaps_of_within hwithin⟩

/-- To share exactly the tolerance is not yet to overlap. -/
example : (common ⟨0, 5⟩ ⟨4, 8⟩).extent = 1 ∧ overlaps (⟨0, 5⟩ : Span Rat) ⟨4, 8⟩ 1 = false := by
  decide +kernel

/-- A sound, and one that starts before the first has stopped, on a track of its own. -/
def crossingTracks : List (Track Rat) :=
  [⟨"audio-1", .audio, [⟨"a", "audio-1", "media/a.wav", 0, 10, 0, .audio, 1, 1, 0, none⟩]⟩,
    ⟨"audio-2", .audio, [⟨"b", "audio-2", "media/b.wav", 9, 12, 0, .audio, 1, 1, 0, none⟩]⟩]

/-- Cut at four, the first sound has a right half, and that is what crosses the second one. -/
theorem overlaps_iff_lt_extent_crossing :
    let ε : Rat := 1 / 1000
    let a : Span Rat := ⟨0, 10⟩
    let b : Span Rat := ⟨9, 12⟩
    let part : Span Rat := ⟨4, 10⟩
    let t := Timeline.ofTracks "p" crossingTracks
    0 ≤ ε ∧ ε < a.length ∧ ε < b.length ∧ part.IsPartOf a ∧ ε < part.length ∧
      part.overlaps b ε = true ∧ a.overlaps b ε = true ∧ ε < (a.common b).extent ∧
      t.Made ∧ ∃ next left, t.split "a" 4 ε .tally = (.ok (some (["x"], next)), left) ∧
        ∃ piece ∈ next.clips, piece.span = part ∧
          ∃ clip ∈ t.clips, piece.span.IsPartOf clip.span ∧ clip.span.overlaps b ε = true := by
  intro ε a b part t
  have hε : 0 ≤ ε := by decide +kernel
  have ha : ε < a.length := by decide +kernel
  have hb : ε < b.length := by decide +kernel
  have hpart : part.IsPartOf a := isPartOf_of_within (by decide +kernel)
  have hlong : ε < part.length := by decide +kernel
  have hover : part.overlaps b ε = true := by decide +kernel
  have hmade : t.Made := Timeline.made_of_index_eq rfl
  obtain ⟨_, hshared, _, _, hparts, hcuts⟩ := overlaps_iff_lt_extent hε ha hb
  have hresult : (t.split "a" 4 ε .tally).1.toOption.join.map
      (fun made => (made.1, made.2.clips.map Clip.span)) = some (["x"], [⟨0, 4⟩, part, b]) := by
    decide +kernel
  obtain ⟨rights, next, left, hsplit, heq⟩ := Timeline.exists_of_map_split hresult
  obtain ⟨rfl, hspans⟩ := Prod.mk.inj heq
  have hmem : part ∈ next.clips.map Clip.span := by simp [hspans]
  obtain ⟨piece, hpiece, hspan⟩ := List.mem_map.1 hmem
  obtain ⟨clip, hclip, _, _, hwhole, hinherits⟩ :=
    hcuts t "a" 4 .tally ["x"] next left hmade hsplit piece hpiece
  have hwholeOver : a.overlaps b ε = true := hparts part hpart hlong hover
  exact ⟨hε, ha, hb, hpart, hlong, hover, hwholeOver, hshared.1 hwholeOver, hmade, next, left,
    hsplit, piece, hpiece, hspan, clip, hclip, hwhole, hinherits (hspan ▸ hover)⟩

end Span

end Montage
