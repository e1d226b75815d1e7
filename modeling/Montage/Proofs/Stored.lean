import Montage.Proofs.Rereading
import Montage.Storage.Bundle

/-!
# Timelines and libraries that are stored

What the documents of a project keep. A number that is not finite is stored as nothing, so a
timeline is read again as it was if and only if each clip starts, stops and begins in its source at
finite times.
-/

namespace Montage

open Decimal (Numeral shortest)
open Json (respelt)

/-! ## Numbers -/

/-- The text of the double names it, if it is finite. -/
def ReadsBack (x : Float) : Prop :=
  x.isFinite = true →
    (Numeral.parse? (Json.renderNumber (shortest .even x)).toList).map Numeral.toDouble = some x

instance (x : Float) : Decidable (ReadsBack x) :=
  inferInstanceAs (Decidable (x.isFinite = true → _ = some x))

theorem ReadsBack.ofJson?_eq {x : Float} (h : ReadsBack x) :
    WireNumber.ofJson? (respelt (WireNumber.toJson x)) = if x.isFinite then some x else none := by
  unfold ReadsBack at h
  rw [Numeral.parse?_renderNumber, Option.map_some, Option.some.injEq] at h
  by_cases hfinite : x.isFinite = true
  · simp [WireNumber.toJson, WireNumber.ofJson?, respelt, Json.numeral?, hfinite, h hfinite]
  · simp [WireNumber.toJson, WireNumber.ofJson?, respelt, Json.numeral?, hfinite]

theorem ReadsBack.ofJson?_finite {x : Float} (h : ReadsBack x) (hfinite : x.isFinite = true) :
    WireNumber.ofJson? (respelt (WireNumber.toJson x)) = some x := by
  rw [h.ofJson?_eq, if_pos hfinite]

theorem readsBack_zero : ReadsBack 0 := by
  unfold ReadsBack
  decide +kernel

/-- What is read as a number is finite. -/
theorem isFinite_of_ofJson? {j : Json} {x : Float} (h : WireNumber.ofJson? j = some x) :
    x.isFinite = true := by
  obtain ⟨n, _, h⟩ := Option.bind_eq_some_iff.1 h
  simp only at h
  split at h
  · cases h
    assumption
  · cases h

theorem isFinite_of_need {fields : Json.Fields} {name : String} {x : Float}
    (h : fields.need name WireNumber.ofJson? = some x) : x.isFinite = true := by
  obtain ⟨j, _, hread⟩ := Option.bind_eq_some_iff.1 h
  exact isFinite_of_ofJson? hread

theorem isFinite_of_orElse {fields : Json.Fields} {name : String} {x default : Float}
    (hdefault : default.isFinite = true)
    (h : fields.orElse name default WireNumber.ofJson? = some x) : x.isFinite = true := by
  unfold Json.Fields.orElse at h
  split at h
  · cases h
    exact hdefault
  · exact isFinite_of_ofJson? h

/-- All the numbers are finite. -/
def AllFinite (xs : List Float) : Prop :=
  ∀ x ∈ xs, x.isFinite = true

instance (xs : List Float) : Decidable (AllFinite xs) :=
  inferInstanceAs (Decidable (∀ x ∈ xs, x.isFinite = true))

/-! ## Assets and libraries -/

/-- The lengths of the assets. -/
def Library.numbers (library : Library Float) : List Float :=
  library.assets.map Asset.duration

@[simp]
theorem Medium.ofJson?_toJson (m : Medium) : Medium.ofJson? (respelt m.toJson) = some m := by
  cases m <;> rfl

theorem Asset.ofJson?_toJson {asset : Asset Float} (hreads : ReadsBack asset.duration)
    (hfinite : asset.duration.isFinite = true) :
    Asset.ofJson? (respelt asset.toJson) = some asset := by
  have hread : Asset.ofJson? (respelt asset.toJson) = do
      let medium ← Medium.ofJson? (respelt asset.medium.toJson)
      let duration : Float ← WireNumber.ofJson? (respelt (WireNumber.toJson asset.duration))
      return ⟨asset.id, asset.fileName, asset.url, medium, duration⟩ := by
    rw [toJson, Json.respelt_record, ofJson?, Json.fields?_record (by simp) (by simp)]
    rfl
  rw [hread, Medium.ofJson?_toJson, hreads.ofJson?_finite hfinite]
  rfl

theorem Asset.isFinite_of_ofJson? {j : Json} {asset : Asset Float}
    (h : Asset.ofJson? j = some asset) : asset.duration.isFinite = true := by
  simp only [Asset.ofJson?, Option.bind_eq_bind, Option.bind_eq_some_iff, Option.pure_def,
    Option.some.injEq] at h
  obtain ⟨_, _, _, _, _, _, _, _, _, _, _, hduration, rfl⟩ := h
  exact isFinite_of_need hduration

theorem Library.ofJson?_toJson {library : Library Float}
    (hreads : ∀ x ∈ library.numbers, ReadsBack x) (hfinite : AllFinite library.numbers) :
    Library.ofJson? (respelt library.toJson) = some library := by
  have hassets := Json.list?_eq_some fun asset (hasset : asset ∈ library.assets) =>
    Asset.ofJson?_toJson (hreads _ (List.mem_map_of_mem hasset))
      (hfinite _ (List.mem_map_of_mem hasset))
  have hread : Library.ofJson? (respelt library.toJson) = do
      let assets : List (Asset Float) ←
        (respelt (.array (library.assets.map Asset.toJson))).list? Asset.ofJson?
      return ⟨assets⟩ := by
    rw [toJson, Json.respelt_record, ofJson?, Json.fields?_record (by simp) (by simp)]
    rfl
  rw [hread, hassets]
  rfl

theorem Library.allFinite_of_ofJson? {j : Json} {library : Library Float}
    (h : Library.ofJson? j = some library) : AllFinite library.numbers := by
  simp only [Library.ofJson?, Option.bind_eq_bind, Option.bind_eq_some_iff, Option.pure_def,
    Option.some.injEq] at h
  obtain ⟨_, _, assets, hassets, rfl⟩ := h
  obtain ⟨_, _, hassets⟩ := Option.bind_eq_some_iff.1 hassets
  intro x hx
  obtain ⟨asset, hasset, rfl⟩ := List.mem_map.1 hx
  obtain ⟨_, hread⟩ := Json.exists_of_mem_list? hassets asset hasset
  exact Asset.isFinite_of_ofJson? hread

/-! ## Clips and tracks -/

namespace Clip

/-- The numbers that a clip's place on the timeline and in its source is given by. -/
def times (clip : Clip Float) : List Float :=
  [clip.start, clip.stop, clip.offset]

/-- The numbers that say how a clip is played. -/
def levels (clip : Clip Float) : List Float :=
  [clip.volume, clip.speed]

/-- The clip starts, stops and begins in its source at finite times. -/
def Bounded (clip : Clip Float) : Prop :=
  AllFinite clip.times

instance (clip : Clip Float) : Decidable clip.Bounded :=
  inferInstanceAs (Decidable (AllFinite clip.times))

theorem bounded_iff {clip : Clip Float} : clip.Bounded ↔
    clip.start.isFinite = true ∧ clip.stop.isFinite = true ∧ clip.offset.isFinite = true := by
  simp [Bounded, AllFinite, times]

theorem ofJson?_toJson {clip : Clip Float} (hreads : ∀ x ∈ clip.times ++ clip.levels, ReadsBack x)
    (hlevels : AllFinite clip.levels) :
    Clip.ofJson? (respelt clip.toJson) = if clip.Bounded then some clip else none := by
  simp only [times, levels, List.cons_append, List.nil_append, List.forall_mem_cons, AllFinite]
    at hreads hlevels
  obtain ⟨hstart, hstop, hoffset, hvolume, hspeed, _⟩ := hreads
  have hlink : (respelt (clip.link.elim Json.null Json.str)).nullable? Json.text? =
      some clip.link := by
    cases clip.link <;> rfl
  have hread : Clip.ofJson? (respelt clip.toJson) = do
      let start : Float ← WireNumber.ofJson? (respelt (WireNumber.toJson clip.start))
      let stop : Float ← WireNumber.ofJson? (respelt (WireNumber.toJson clip.stop))
      let offset : Float ← WireNumber.ofJson? (respelt (WireNumber.toJson clip.offset))
      let medium ← Medium.ofJson? (respelt clip.medium.toJson)
      let volume : Float ← WireNumber.ofJson? (respelt (WireNumber.toJson clip.volume))
      let speed : Float ← WireNumber.ofJson? (respelt (WireNumber.toJson clip.speed))
      let layer ← (respelt (Json.int clip.layer.toInt)).signed32?
      let link ← (respelt (clip.link.elim Json.null Json.str)).nullable? Json.text?
      return ⟨clip.id, clip.track, clip.source, start, stop, offset, medium, volume, speed, layer,
        link⟩ := by
    rw [toJson, Json.respelt_record, ofJson?, Json.fields?_record (by simp) (by simp)]
    cases clip.link <;> rfl
  rw [hread, hstart.ofJson?_eq, hstop.ofJson?_eq, hoffset.ofJson?_eq, Medium.ofJson?_toJson,
    hvolume.ofJson?_finite hlevels.1, hspeed.ofJson?_finite hlevels.2.1, Json.respelt_int,
    Json.signed32?_int, hlink]
  simp only [bounded_iff]
  by_cases hs : clip.start.isFinite = true <;> by_cases he : clip.stop.isFinite = true <;>
    by_cases ho : clip.offset.isFinite = true <;> simp [hs, he, ho]

theorem allFinite_of_ofJson? {j : Json} {clip : Clip Float} (h : Clip.ofJson? j = some clip) :
    AllFinite (clip.times ++ clip.levels) := by
  unfold Clip.ofJson? at h
  obtain ⟨_, _, h⟩ := Option.bind_eq_some_iff.1 h
  obtain ⟨_, _, h⟩ := Option.bind_eq_some_iff.1 h
  obtain ⟨_, _, h⟩ := Option.bind_eq_some_iff.1 h
  obtain ⟨_, _, h⟩ := Option.bind_eq_some_iff.1 h
  obtain ⟨start, hstart, h⟩ := Option.bind_eq_some_iff.1 h
  obtain ⟨stop, hstop, h⟩ := Option.bind_eq_some_iff.1 h
  obtain ⟨offset, hoffset, h⟩ := Option.bind_eq_some_iff.1 h
  obtain ⟨_, _, h⟩ := Option.bind_eq_some_iff.1 h
  obtain ⟨volume, hvolume, h⟩ := Option.bind_eq_some_iff.1 h
  obtain ⟨speed, hspeed, h⟩ := Option.bind_eq_some_iff.1 h
  obtain ⟨_, _, h⟩ := Option.bind_eq_some_iff.1 h
  obtain ⟨_, _, h⟩ := Option.bind_eq_some_iff.1 h
  cases h
  have hone : (1 : Float).isFinite = true := by decide +kernel
  simp only [times, levels, List.cons_append, List.nil_append, List.forall_mem_cons, AllFinite]
  exact ⟨isFinite_of_need hstart, isFinite_of_need hstop, isFinite_of_need hoffset,
    isFinite_of_orElse hone hvolume, isFinite_of_orElse hone hspeed, by simp⟩

end Clip

@[simp]
theorem TrackKind.ofJson?_toJson (kind : TrackKind) :
    TrackKind.ofJson? (respelt kind.toJson) = some kind := by
  cases kind <;> rfl

namespace Track

theorem ofJson?_toJson {track : Track Float}
    (hreads : ∀ clip ∈ track.clips, ∀ x ∈ clip.times ++ clip.levels, ReadsBack x)
    (hlevels : ∀ clip ∈ track.clips, AllFinite clip.levels) :
    Track.ofJson? (respelt track.toJson) =
      if ∀ clip ∈ track.clips, clip.Bounded then some track else none := by
  have hclips := Json.list?_array fun clip hclip =>
    Clip.ofJson?_toJson (hreads clip hclip) (hlevels clip hclip)
  have hread : Track.ofJson? (respelt track.toJson) = do
      let kind ← TrackKind.ofJson? (respelt track.kind.toJson)
      let clips : List (Clip Float) ←
        (respelt (.array (track.clips.map Clip.toJson))).list? Clip.ofJson?
      return ⟨track.id, kind, clips⟩ := by
    rw [toJson, Json.respelt_record, ofJson?, Json.fields?_record (by simp) (by simp)]
    rfl
  rw [hread, hclips, TrackKind.ofJson?_toJson]
  split <;> rfl

theorem allFinite_of_ofJson? {j : Json} {track : Track Float} (h : Track.ofJson? j = some track) :
    ∀ clip ∈ track.clips, AllFinite (clip.times ++ clip.levels) := by
  simp only [Track.ofJson?, Option.bind_eq_bind, Option.bind_eq_some_iff, Option.pure_def,
    Option.some.injEq] at h
  obtain ⟨_, _, _, _, _, _, clips, hclips, rfl⟩ := h
  intro clip hclip
  obtain ⟨_, hread⟩ := Json.exists_of_mem_orElse hclips clip hclip
  exact Clip.allFinite_of_ofJson? hread

end Track

/-! ## Overlays -/

namespace Caption

/-- The numbers of a caption. -/
def numbers (caption : Caption Float) : List Float :=
  [caption.start, caption.stop, caption.x, caption.y]

theorem ofJson?_toJson {caption : Caption Float} (hreads : ∀ x ∈ caption.numbers, ReadsBack x)
    (hfinite : AllFinite caption.numbers) :
    Caption.ofJson? (respelt caption.toJson) = some caption := by
  simp only [numbers, List.forall_mem_cons, AllFinite] at hreads hfinite
  obtain ⟨hstart, hstop, hx, hy, _⟩ := hreads
  have hread : Caption.ofJson? (respelt caption.toJson) = do
      let start : Float ← WireNumber.ofJson? (respelt (WireNumber.toJson caption.start))
      let stop : Float ← WireNumber.ofJson? (respelt (WireNumber.toJson caption.stop))
      let x : Float ← WireNumber.ofJson? (respelt (WireNumber.toJson caption.x))
      let y : Float ← WireNumber.ofJson? (respelt (WireNumber.toJson caption.y))
      let fontSize ← (respelt (Json.int caption.fontSize.toNat)).word32?
      return ⟨caption.id, caption.text, start, stop, x, y, fontSize, caption.fontFamily,
        caption.color⟩ := by
    rw [toJson, Json.respelt_record, ofJson?, Json.fields?_record (by simp) (by simp)]
    rfl
  rw [hread, hstart.ofJson?_finite hfinite.1, hstop.ofJson?_finite hfinite.2.1,
    hx.ofJson?_finite hfinite.2.2.1, hy.ofJson?_finite hfinite.2.2.2.1, Json.respelt_int,
    Json.word32?_int]
  rfl

theorem allFinite_of_ofJson? {j : Json} {caption : Caption Float}
    (h : Caption.ofJson? j = some caption) : AllFinite caption.numbers := by
  unfold Caption.ofJson? at h
  obtain ⟨_, _, h⟩ := Option.bind_eq_some_iff.1 h
  obtain ⟨_, _, h⟩ := Option.bind_eq_some_iff.1 h
  obtain ⟨_, _, h⟩ := Option.bind_eq_some_iff.1 h
  obtain ⟨start, hstart, h⟩ := Option.bind_eq_some_iff.1 h
  obtain ⟨stop, hstop, h⟩ := Option.bind_eq_some_iff.1 h
  obtain ⟨x, hx, h⟩ := Option.bind_eq_some_iff.1 h
  obtain ⟨y, hy, h⟩ := Option.bind_eq_some_iff.1 h
  obtain ⟨_, _, h⟩ := Option.bind_eq_some_iff.1 h
  obtain ⟨_, _, h⟩ := Option.bind_eq_some_iff.1 h
  obtain ⟨_, _, h⟩ := Option.bind_eq_some_iff.1 h
  cases h
  have hfifty : (Scalar.ofNat 50 : Float).isFinite = true := by decide +kernel
  have hten : (Scalar.ofNat 10 : Float).isFinite = true := by decide +kernel
  simp only [numbers, List.forall_mem_cons, AllFinite]
  exact ⟨isFinite_of_need hstart, isFinite_of_need hstop, isFinite_of_orElse hfifty hx,
    isFinite_of_orElse hten hy, by simp⟩

end Caption

@[simp]
theorem ShapeKind.ofJson?_toJson (kind : ShapeKind) :
    ShapeKind.ofJson? (respelt kind.toJson) = some kind := by
  cases kind <;> rfl

namespace Shape

/-- The numbers of a shape. -/
def numbers (shape : Shape Float) : List Float :=
  [shape.start, shape.stop, shape.x1, shape.y1, shape.x2, shape.y2]

theorem ofJson?_toJson {shape : Shape Float} (hreads : ∀ x ∈ shape.numbers, ReadsBack x)
    (hfinite : AllFinite shape.numbers) : Shape.ofJson? (respelt shape.toJson) = some shape := by
  simp only [numbers, List.forall_mem_cons, AllFinite] at hreads hfinite
  obtain ⟨hstart, hstop, hx1, hy1, hx2, hy2, _⟩ := hreads
  obtain ⟨hstart', hstop', hx1', hy1', hx2', hy2', _⟩ := hfinite
  have hread : Shape.ofJson? (respelt shape.toJson) = do
      let kind ← ShapeKind.ofJson? (respelt shape.kind.toJson)
      let start : Float ← WireNumber.ofJson? (respelt (WireNumber.toJson shape.start))
      let stop : Float ← WireNumber.ofJson? (respelt (WireNumber.toJson shape.stop))
      let x1 : Float ← WireNumber.ofJson? (respelt (WireNumber.toJson shape.x1))
      let y1 : Float ← WireNumber.ofJson? (respelt (WireNumber.toJson shape.y1))
      let x2 : Float ← WireNumber.ofJson? (respelt (WireNumber.toJson shape.x2))
      let y2 : Float ← WireNumber.ofJson? (respelt (WireNumber.toJson shape.y2))
      let width ← (respelt (Json.int shape.width.toNat)).word32?
      return ⟨shape.id, shape.name, kind, start, stop, x1, y1, x2, y2, shape.color, width⟩ := by
    rw [toJson, Json.respelt_record, ofJson?, Json.fields?_record (by simp) (by simp)]
    rfl
  rw [hread, ShapeKind.ofJson?_toJson, hstart.ofJson?_finite hstart',
    hstop.ofJson?_finite hstop', hx1.ofJson?_finite hx1', hy1.ofJson?_finite hy1',
    hx2.ofJson?_finite hx2', hy2.ofJson?_finite hy2', Json.respelt_int, Json.word32?_int]
  rfl

theorem allFinite_of_ofJson? {j : Json} {shape : Shape Float} (h : Shape.ofJson? j = some shape) :
    AllFinite shape.numbers := by
  unfold Shape.ofJson? at h
  obtain ⟨_, _, h⟩ := Option.bind_eq_some_iff.1 h
  obtain ⟨_, _, h⟩ := Option.bind_eq_some_iff.1 h
  obtain ⟨_, _, h⟩ := Option.bind_eq_some_iff.1 h
  obtain ⟨start, hstart, h⟩ := Option.bind_eq_some_iff.1 h
  obtain ⟨stop, hstop, h⟩ := Option.bind_eq_some_iff.1 h
  obtain ⟨_, _, h⟩ := Option.bind_eq_some_iff.1 h
  obtain ⟨x1, hx1, h⟩ := Option.bind_eq_some_iff.1 h
  obtain ⟨y1, hy1, h⟩ := Option.bind_eq_some_iff.1 h
  obtain ⟨x2, hx2, h⟩ := Option.bind_eq_some_iff.1 h
  obtain ⟨y2, hy2, h⟩ := Option.bind_eq_some_iff.1 h
  obtain ⟨_, _, h⟩ := Option.bind_eq_some_iff.1 h
  obtain ⟨_, _, h⟩ := Option.bind_eq_some_iff.1 h
  cases h
  have hten : (Scalar.ofNat 10 : Float).isFinite = true := by decide +kernel
  have hninety : (Scalar.ofNat 90 : Float).isFinite = true := by decide +kernel
  simp only [numbers, List.forall_mem_cons, AllFinite]
  exact ⟨isFinite_of_need hstart, isFinite_of_need hstop, isFinite_of_orElse hten hx1,
    isFinite_of_orElse hten hy1, isFinite_of_orElse hninety hx2, isFinite_of_orElse hten hy2,
    by simp⟩

end Shape

/-! ## Timelines -/

theorem foldl_larger_mem {α : Type} [Scalar α] (first : α) (xs : List α) :
    xs.foldl Scalar.larger first ∈ first :: xs := by
  induction xs generalizing first with
  | nil => simp
  | cons x xs ih =>
      rw [List.foldl_cons]
      have hlarger : Scalar.larger first x = first ∨ Scalar.larger first x = x := by
        unfold Scalar.larger
        split
        · exact .inl rfl
        · split
          · exact .inr rfl
          · exact .inl rfl
      rcases List.mem_cons.1 (ih (Scalar.larger first x)) with hfirst | hrest
      · rw [hfirst]
        rcases hlarger with heq | heq <;> simp [heq]
      · simp [hrest]

namespace Timeline

/-- A timeline stops when one of its clips does, or at once. -/
theorem duration_eq_zero_or_stop {α : Type} [Scalar α] (t : Timeline α) :
    t.duration = 0 ∨ ∃ clip ∈ t.clips, t.duration = clip.stop := by
  rcases List.mem_cons.1 (foldl_larger_mem 0 (t.tracks.map Track.lastStop)) with hzero | htrack
  · exact .inl hzero
  · obtain ⟨track, hmem, hlast⟩ := List.mem_map.1 htrack
    rcases List.mem_cons.1 (foldl_larger_mem 0 (track.clips.map Clip.stop)) with hzero | hclip
    · exact .inl (hlast.symm.trans hzero)
    · obtain ⟨clip, hclip, hstop⟩ := List.mem_map.1 hclip
      exact .inr ⟨clip, List.mem_flatMap.2 ⟨track, hmem, hclip⟩, hlast.symm.trans hstop.symm⟩

/-- The numbers of the clips and the overlays. -/
def numbers (t : Timeline Float) : List Float :=
  t.clips.flatMap (fun clip => clip.times ++ clip.levels) ++
    (t.captions.flatMap Caption.numbers ++ t.shapes.flatMap Shape.numbers)

/-- All clips start, stop and begin in their sources at finite times. -/
def Bounded (t : Timeline Float) : Prop :=
  ∀ clip ∈ t.clips, clip.Bounded

instance (t : Timeline Float) : Decidable t.Bounded :=
  inferInstanceAs (Decidable (∀ clip ∈ t.clips, clip.Bounded))

/-- All numbers are finite, the times of clips apart. -/
structure Tempered (t : Timeline Float) : Prop where
  levels : ∀ clip ∈ t.clips, AllFinite clip.levels
  captions : ∀ caption ∈ t.captions, AllFinite caption.numbers
  shapes : ∀ shape ∈ t.shapes, AllFinite shape.numbers

/-- The document of a timeline with something else in the place of its duration. -/
def documentLasting (t : Timeline Float) (duration : Json) : Json :=
  .record [
    ("id", Json.str t.id),
    ("tracks", .array (t.tracks.map Track.toJson)),
    ("duration", duration),
    ("text_overlays", .array (t.captions.map Caption.toJson)),
    ("shape_overlays", .array (t.shapes.map Shape.toJson))]

/-- The duration only has to be a number. -/
theorem ofJson?_documentLasting {t : Timeline Float} (hindex : t.index = .ofTracks t.tracks)
    (hreads : ∀ x ∈ t.numbers, ReadsBack x) (h : t.Tempered) (duration : Json) :
    Timeline.ofJson? (respelt (t.documentLasting duration)) =
      if t.Bounded then
        (WireNumber.ofJson? (respelt duration) : Option Float).map fun _ => t
      else none := by
  have hclips (clip) (hclip : clip ∈ t.clips) : ∀ x ∈ clip.times ++ clip.levels, ReadsBack x :=
    fun x hx => hreads x (List.mem_append_left _ (List.mem_flatMap.2 ⟨clip, hclip, hx⟩))
  have hmem {track : Track Float} (htrack : track ∈ t.tracks) {clip : Clip Float}
      (hclip : clip ∈ track.clips) : clip ∈ t.clips :=
    List.mem_flatMap.2 ⟨track, htrack, hclip⟩
  have htracks := Json.list?_array fun track htrack => Track.ofJson?_toJson
    (fun clip hclip => hclips clip (hmem htrack hclip))
    (fun clip hclip => h.levels clip (hmem htrack hclip))
  have hcaptions := Json.list?_eq_some fun caption hcaption => Caption.ofJson?_toJson
    (fun x hx => hreads x (List.mem_append_right _
      (List.mem_append_left _ (List.mem_flatMap.2 ⟨caption, hcaption, hx⟩))))
    (h.captions caption hcaption)
  have hshapes := Json.list?_eq_some fun shape hshape => Shape.ofJson?_toJson
    (fun x hx => hreads x (List.mem_append_right _
      (List.mem_append_right _ (List.mem_flatMap.2 ⟨shape, hshape, hx⟩))))
    (h.shapes shape hshape)
  have hbounded : (∀ track ∈ t.tracks, ∀ clip ∈ track.clips, clip.Bounded) ↔ t.Bounded :=
    List.forall_mem_flatMap.symm
  have hread : Timeline.ofJson? (respelt (t.documentLasting duration)) = do
      let _ : Float ← WireNumber.ofJson? (respelt duration)
      let tracks : List (Track Float) ←
        (respelt (.array (t.tracks.map Track.toJson))).list? Track.ofJson?
      let captions : List (Caption Float) ←
        (respelt (.array (t.captions.map Caption.toJson))).list? Caption.ofJson?
      let shapes : List (Shape Float) ←
        (respelt (.array (t.shapes.map Shape.toJson))).list? Shape.ofJson?
      return assemble t.id tracks captions shapes := by
    rw [documentLasting, Json.respelt_record, ofJson?, Json.fields?_record (by simp) (by simp)]
    rfl
  rw [hread, htracks, hcaptions, hshapes]
  by_cases hall : t.Bounded
  · rw [if_pos (hbounded.2 hall), if_pos hall]
    obtain ⟨id, tracks, captions, shapes, index⟩ := t
    simp only at hindex
    subst hindex
    cases (WireNumber.ofJson? (respelt duration) : Option Float) <;> rfl
  · rw [if_neg (mt hbounded.1 hall), if_neg hall]
    cases (WireNumber.ofJson? (respelt duration) : Option Float) <;> rfl

/-- The document of a timeline is read as the timeline if all times of clips are finite. -/
theorem ofJson?_toJson {t : Timeline Float} (hindex : t.index = .ofTracks t.tracks)
    (hreads : ∀ x ∈ t.numbers, ReadsBack x) (h : t.Tempered) :
    Timeline.ofJson? (respelt t.toJson) = if t.Bounded then some t else none := by
  refine (ofJson?_documentLasting hindex hreads h (WireNumber.toJson t.duration)).trans ?_
  split
  · rename_i hall
    have hduration : ReadsBack t.duration ∧ t.duration.isFinite = true := by
      rcases t.duration_eq_zero_or_stop with hzero | ⟨clip, hclip, hstop⟩
      · rw [hzero]
        exact ⟨readsBack_zero, by decide +kernel⟩
      · rw [hstop]
        exact ⟨hreads _ (List.mem_append_left _ (List.mem_flatMap.2
          ⟨clip, hclip, by simp [Clip.times]⟩)), (Clip.bounded_iff.1 (hall clip hclip)).2.1⟩
    rw [hduration.1.ofJson?_finite hduration.2]
    rfl
  · rfl

theorem tempered_of_ofJson? {j : Json} {t : Timeline Float} (h : Timeline.ofJson? j = some t) :
    t.index = .ofTracks t.tracks ∧ t.Bounded ∧ t.Tempered := by
  unfold Timeline.ofJson? at h
  obtain ⟨_, _, h⟩ := Option.bind_eq_some_iff.1 h
  obtain ⟨_, _, h⟩ := Option.bind_eq_some_iff.1 h
  obtain ⟨_, _, h⟩ := Option.bind_eq_some_iff.1 h
  obtain ⟨tracks, htracks, h⟩ := Option.bind_eq_some_iff.1 h
  obtain ⟨captions, hcaptions, h⟩ := Option.bind_eq_some_iff.1 h
  obtain ⟨shapes, hshapes, h⟩ := Option.bind_eq_some_iff.1 h
  cases h
  have hall (clip : Clip Float) (hclip : clip ∈ tracks.flatMap Track.clips) :
      AllFinite (clip.times ++ clip.levels) := by
    obtain ⟨track, htrack, hclip⟩ := List.mem_flatMap.1 hclip
    obtain ⟨_, hread⟩ := Json.exists_of_mem_orElse htracks track htrack
    exact Track.allFinite_of_ofJson? hread clip hclip
  refine ⟨rfl, fun clip hclip x hx => hall clip hclip x (List.mem_append_left _ hx),
    fun clip hclip x hx => hall clip hclip x (List.mem_append_right _ hx),
    fun caption hcaption => ?_, fun shape hshape => ?_⟩
  · obtain ⟨_, hread⟩ := Json.exists_of_mem_orElse hcaptions caption hcaption
    exact Caption.allFinite_of_ofJson? hread
  · obtain ⟨_, hread⟩ := Json.exists_of_mem_orElse hshapes shape hshape
    exact Shape.allFinite_of_ofJson? hread

end Timeline

end Montage
