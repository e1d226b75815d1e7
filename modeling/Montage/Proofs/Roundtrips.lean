import Montage.Proofs.Bundles
import Montage.Proofs.Doubles
import Montage.Proofs.Entries
import Montage.Wire.Settings

/-!
# What documents keep

Timelines, libraries, headers and settings are read from their documents as they were written, from
either text. An index is not written, and one that is made anew is the one that was kept.
-/

namespace Montage

open Decimal (Numeral)
open Json (respelt)

/-- Both texts of a document are read as the value. -/
def Json.Denotes {β : Type} (j : Json) (read? : Json → Option β) (value : β) : Prop :=
  (parse? j.compact >>= read?) = some value ∧ (parse? j.pretty >>= read?) = some value

theorem Json.denotes_of_respelt {β : Type} {j : Json} {read? : Json → Option β} {value : β}
    (h : read? (respelt j) = some value) : j.Denotes read? value := by
  rw [Denotes, parse?_compact, parse?_pretty]
  exact ⟨h, h⟩

/-! ## Settings -/

theorem ServiceSettings.ofJson?_toJson (s : ServiceSettings) :
    ServiceSettings.ofJson? (respelt s.toJson) = some s := by
  have hread : ServiceSettings.ofJson? (respelt s.toJson) = do
      let timeoutSeconds ← (respelt (Json.int s.timeoutSeconds.toNat)).word64?
      return ⟨s.baseUrl, timeoutSeconds⟩ := by
    rw [toJson, Json.respelt_record, ofJson?, Json.fields?_record (by simp) (by simp)]
    rfl
  rw [hread, Json.respelt_int, Json.word64?_int]
  rfl

theorem LogSettings.ofJson?_toJson (s : LogSettings) :
    LogSettings.ofJson? (respelt s.toJson) = some s := by
  obtain ⟨level, json, file⟩ := s
  rw [toJson, Json.respelt_record, ofJson?, Json.fields?_record (by simp) (by simp)]
  cases file <;> rfl

namespace EditorSettings

/-- The numbers of the settings that need not be whole. -/
def numbers (s : EditorSettings Float) : List Float :=
  [s.pixelsPerSecond, s.snapPixels, s.tolerance]

theorem ofJson?_toJson {s : EditorSettings Float} (hreads : ∀ x ∈ s.numbers, ReadsBack x)
    (hfinite : AllFinite s.numbers) : EditorSettings.ofJson? (respelt s.toJson) = some s := by
  simp only [numbers, List.forall_mem_cons, AllFinite] at hreads hfinite
  obtain ⟨hpixels, hsnap, htolerance, _⟩ := hreads
  have hread : EditorSettings.ofJson? (respelt s.toJson) = do
      let pixelsPerSecond : Float ← WireNumber.ofJson? (respelt (WireNumber.toJson s.pixelsPerSecond))
      let snapPixels : Float ← WireNumber.ofJson? (respelt (WireNumber.toJson s.snapPixels))
      let tolerance : Float ← WireNumber.ofJson? (respelt (WireNumber.toJson s.tolerance))
      let previewDelay ← (respelt (Json.int s.previewDelay.toNat)).word64?
      let audioTracks ← (respelt (Json.int s.audioTracks.toNat)).word64?
      return ⟨pixelsPerSecond, snapPixels, tolerance, previewDelay, s.mediaRoot, audioTracks⟩ := by
    rw [toJson, Json.respelt_record, ofJson?, Json.fields?_record (by simp) (by simp)]
    rfl
  rw [hread, hpixels.ofJson?_finite hfinite.1, hsnap.ofJson?_finite hfinite.2.1,
    htolerance.ofJson?_finite hfinite.2.2.1, Json.respelt_int, Json.word64?_int, Json.respelt_int,
    Json.word64?_int]
  rfl

end EditorSettings

theorem Settings.ofJson?_toJson {s : Settings Float} (hreads : ∀ x ∈ s.editor.numbers, ReadsBack x)
    (hfinite : AllFinite s.editor.numbers) : Settings.ofJson? (respelt s.toJson) = some s := by
  have hread : Settings.ofJson? (respelt s.toJson) = do
      let service ← ServiceSettings.ofJson? (respelt s.service.toJson)
      let editor : EditorSettings Float ← EditorSettings.ofJson? (respelt s.editor.toJson)
      let log ← LogSettings.ofJson? (respelt s.log.toJson)
      return ⟨service, editor, log⟩ := by
    rw [toJson, Json.respelt_record, ofJson?, Json.fields?_record (by simp) (by simp)]
    rfl
  rw [hread, ServiceSettings.ofJson?_toJson, EditorSettings.ofJson?_toJson hreads hfinite,
    LogSettings.ofJson?_toJson]
  rfl

namespace Timeline

/-! ## Durations -/

theorem le_foldl_larger {first : Float} {xs : List Float} (h : AllFinite (first :: xs)) :
    ∀ x ∈ first :: xs, x ≤ xs.foldl Scalar.larger first := by
  induction xs generalizing first with
  | nil =>
      rw [List.forall_mem_singleton]
      exact Doubles.le_refl (h first List.mem_cons_self)
  | cons x xs ih =>
      obtain ⟨hfirst, hx, hxs⟩ := (List.forall_mem_cons.1 h).imp_right List.forall_mem_cons.1
      have hlarger : (Scalar.larger first x).isFinite = true := by
        rcases List.mem_cons.1 (foldl_larger_mem first [x]) with heq | hmem
        · exact (congrArg Float.isFinite heq).trans hfirst
        · exact (congrArg Float.isFinite (List.mem_singleton.1 hmem)).trans hx
      obtain ⟨hstart, hrest⟩ := List.forall_mem_cons.1 (ih (List.forall_mem_cons.2 ⟨hlarger, hxs⟩))
      obtain ⟨hleFirst, hleX⟩ := Doubles.le_larger hfirst hx
      exact List.forall_mem_cons.2 ⟨Doubles.le_trans hleFirst hstart,
        List.forall_mem_cons.2 ⟨Doubles.le_trans hleX hstart, hrest⟩⟩

/-- A timeline lasts from zero until its last clip stops. -/
theorem stop_le_duration {t : Timeline Float} (h : ∀ clip ∈ t.clips, clip.stop.isFinite = true) :
    0 ≤ t.duration ∧ ∀ clip ∈ t.clips, clip.stop ≤ t.duration := by
  have hzero : (0 : Float).isFinite = true := by decide +kernel
  have hstops (track) (htrack : track ∈ t.tracks) : AllFinite (0 :: track.clips.map Clip.stop) := by
    refine List.forall_mem_cons.2 ⟨hzero, List.forall_mem_map.2 fun clip hclip => ?_⟩
    exact h clip (mem_clips.2 ⟨track, htrack, hclip⟩)
  have hlast : AllFinite (0 :: t.tracks.map Track.lastStop) := by
    refine List.forall_mem_cons.2 ⟨hzero, List.forall_mem_map.2 fun track htrack => ?_⟩
    exact hstops track htrack _ (foldl_larger_mem 0 (track.clips.map Clip.stop))
  obtain ⟨hnonneg, htracks⟩ := List.forall_mem_cons.1 (le_foldl_larger hlast)
  refine ⟨hnonneg, fun clip hclip => ?_⟩
  obtain ⟨track, htrack, hin⟩ := mem_clips.1 hclip
  have hle : clip.stop ≤ track.lastStop :=
    le_foldl_larger (hstops track htrack) _ (List.mem_cons_of_mem _ (List.mem_map_of_mem hin))
  exact Doubles.le_trans hle (htracks _ (List.mem_map_of_mem htrack))

end Timeline

/-! ## Changes of clips and overlays -/

/-- A change of one clip or of the overlays. -/
inductive TimelineChange (α : Type)
  | clip (change : ClipChange α)
  | addCaption (caption : Caption α)
  | addShape (shape : Shape α)
  | removeOverlay (id : String)

namespace Timeline

variable {α : Type} [Scalar α] {t : Timeline α}

/-- The timeline after a change; one that is rejected leaves it as it is. -/
def alter (t : Timeline α) : TimelineChange α → Timeline α
  | .clip change => t.change change
  | .addCaption caption => (t.addCaption caption).toOption.getD t
  | .addShape shape => (t.addShape shape).toOption.getD t
  | .removeOverlay id => t.removeOverlay id

/-- The timeline after changes in some order. -/
def alterAll (t : Timeline α) (changes : List (TimelineChange α)) : Timeline α :=
  changes.foldl alter t

omit [Scalar α] in
theorem InStep.congr {next : Timeline α} (h : t.InStep) (htracks : next.tracks = t.tracks)
    (hindex : next.index = t.index) : next.InStep := by
  intro id place
  have hplace := h id place
  rwa [locate?, ← hindex, clipAt?, ← htracks] at hplace

omit [Scalar α] in
theorem eq_of_checked {check : Except (Rejection α) Unit} {taken : Bool} {rejection : Rejection α}
    {added next : Timeline α}
    (h : (do
      check
      if taken then throw rejection
      return added) = .ok next) : next = added := by
  cases check with
  | error => cases h
  | ok =>
      cases taken with
      | true => cases h
      | false =>
          cases h
          rfl

theorem InStep.alter (h : t.InStep) (change : TimelineChange α) : (t.alter change).InStep := by
  cases change with
  | clip change => exact h.change change
  | addCaption caption =>
      cases hadd : t.addCaption caption with
      | error rejection => simpa [Timeline.alter, hadd, Except.toOption] using h
      | ok next =>
          obtain rfl := eq_of_checked hadd
          rw [Timeline.alter, hadd]
          exact h.congr rfl rfl
  | addShape shape =>
      cases hadd : t.addShape shape with
      | error rejection => simpa [Timeline.alter, hadd, Except.toOption] using h
      | ok next =>
          obtain rfl := eq_of_checked hadd
          rw [Timeline.alter, hadd]
          exact h.congr rfl rfl
  | removeOverlay id => exact h.congr rfl rfl

theorem InStep.alterAll (h : t.InStep) (changes : List (TimelineChange α)) :
    (t.alterAll changes).InStep := by
  induction changes generalizing t with
  | nil => exact h
  | cons change changes ih => exact ih (h.alter change)

theorem tempered_of_allFinite {t : Timeline Float} (h : AllFinite t.numbers) :
    t.Bounded ∧ t.Tempered := by
  obtain ⟨hclips, hcaptions, hshapes⟩ := (List.forall_mem_append.1 h).imp_right
    List.forall_mem_append.1
  have hclip {clip : Clip Float} (hclip : clip ∈ t.clips) :=
    List.forall_mem_append.1 (List.forall_mem_flatMap.1 hclips clip hclip)
  exact ⟨fun clip hin => (hclip hin).1, fun clip hin => (hclip hin).2,
    List.forall_mem_flatMap.1 hcaptions, List.forall_mem_flatMap.1 hshapes⟩

end Timeline

/-! ## What is read again -/

/--
A timeline that is changed in any way, a library, a header and settings are read as they were written
if their numbers are finite. The duration of a timeline is read as no more than a number; what is
written there is the last stop of a clip, or zero if all clips stop before.
-/
theorem documents_lose_nothing (id : String) (tracks : List (Track Float))
    (hnodup : ((Timeline.ofTracks id tracks).clips.map Clip.id).Nodup)
    (changes : List (TimelineChange Float))
    (hfinite : AllFinite ((Timeline.ofTracks id tracks).alterAll changes).numbers)
    (hreads : ∀ x ∈ ((Timeline.ofTracks id tracks).alterAll changes).numbers, ReadsBack x)
    (library : Library Float) (hlibrary : AllFinite library.numbers)
    (hlibraryReads : ∀ x ∈ library.numbers, ReadsBack x) (header : BundleHeader)
    (settings : Settings Float) (hsettings : AllFinite settings.editor.numbers)
    (hsettingsReads : ∀ x ∈ settings.editor.numbers, ReadsBack x) :
    let t := (Timeline.ofTracks id tracks).alterAll changes
    t.toJson.Denotes Timeline.ofJson? t ∧
      (∀ n : Numeral, n.respelt.toDouble.isFinite = true →
        (t.documentLasting (.number n)).Denotes Timeline.ofJson? t) ∧
      t.toJson = t.documentLasting (WireNumber.toJson t.duration) ∧
      0 ≤ t.duration ∧ (∀ clip ∈ t.clips, clip.stop ≤ t.duration) ∧
      (t.duration = 0 ∨ ∃ clip ∈ t.clips, t.duration = clip.stop) ∧
      library.toJson.Denotes Library.ofJson? library ∧
      header.toJson.Denotes BundleHeader.ofJson? header ∧
      settings.toJson.Denotes Settings.ofJson? settings := by
  intro t
  have hstep : t.InStep := (Timeline.inStep_of_index_eq rfl hnodup).alterAll changes
  obtain ⟨hbounded, htempered⟩ := Timeline.tempered_of_allFinite hfinite
  have hstops (clip) (hclip : clip ∈ t.clips) : clip.stop.isFinite = true :=
    (Clip.bounded_iff.1 (hbounded clip hclip)).2.1
  obtain ⟨hnonneg, hle⟩ := Timeline.stop_le_duration hstops
  have hread := Timeline.ofJson?_toJson hstep.index_eq hreads htempered
  rw [if_pos hbounded] at hread
  refine ⟨Json.denotes_of_respelt hread, fun n hn => Json.denotes_of_respelt ?_, rfl, hnonneg, hle,
    t.duration_eq_zero_or_stop, Json.denotes_of_respelt (Library.ofJson?_toJson hlibraryReads hlibrary),
    Json.denotes_of_respelt (BundleHeader.ofJson?_toJson header),
    Json.denotes_of_respelt (Settings.ofJson?_toJson hsettingsReads hsettings)⟩
  have hnumber : (WireNumber.ofJson? (respelt (.number n)) : Option Float) = some n.respelt.toDouble := by
    simp [WireNumber.ofJson?, respelt, Json.numeral?, hn]
  rw [Timeline.ofJson?_documentLasting hstep.index_eq hreads htempered, if_pos hbounded, hnumber]
  rfl

/-- A sound is put beside another and given its link, and a caption is added and taken out. -/
def storedChanges : List (TimelineChange Float) :=
  [.clip (.insert ⟨"b", "audio-1", "media/b.wav", 2.5, 4, 0.25, .audio, 1, 1, -1, none⟩),
    .clip (.modify "b" fun clip => { clip with link := some "a", volume := 0.5 }),
    .addCaption ⟨"text", "title", 0, 3, 50, 10, 48, "Sans", "white"⟩,
    .addShape ⟨"arrow", "", .arrow, 1, 2, 10, 10, 90, 10, "white", 3⟩, .removeOverlay "text"]

theorem documents_lose_nothing_changed :
    let t := (Timeline.ofTracks "p" [⟨"audio-1", .audio, [Timeline.second "a" 0]⟩]).alterAll
      storedChanges
    let library : Library Float := ⟨[⟨"a", "a.wav", "/a.wav", .audio, 1⟩]⟩
    let settings : Settings Float := ⟨{}, ⟨20, 15, 0.001, 1000, "media", 2⟩, {}⟩
    AllFinite t.numbers ∧ t.clips.map Clip.id = ["a", "b"] ∧ t.shapes.map Shape.id = ["arrow"] ∧
      t.toJson.Denotes Timeline.ofJson? t ∧
      (t.documentLasting (.int 7)).Denotes Timeline.ofJson? t ∧
      (∀ clip ∈ t.clips, clip.stop ≤ t.duration) ∧
      library.toJson.Denotes Library.ofJson? library ∧
      settings.toJson.Denotes Settings.ofJson? settings := by
  intro t library settings
  have hfinite : AllFinite t.numbers := by decide +kernel
  obtain ⟨htimeline, hany, _, _, hstops, _, hlibrary, _, hsettings⟩ :=
    documents_lose_nothing "p" [⟨"audio-1", .audio, [Timeline.second "a" 0]⟩] (by decide +kernel)
      storedChanges hfinite (by decide +kernel) library (by decide +kernel) (by decide +kernel)
      (.new "demo" "2024-01-01T00:00:00Z") settings (by decide +kernel) (by decide +kernel)
  exact ⟨hfinite, by decide +kernel, by decide +kernel, htimeline, hany _ (by decide +kernel), hstops,
    hlibrary, hsettings⟩

/-- A timeline of which the only clip stops before zero is written as one that lasts no time. -/
theorem duration_of_early_clip :
    let early : Clip Float := ⟨"a", "audio-1", "media/a.wav", -5, -3, 0, .audio, 1, 1, 0, none⟩
    let t := (Timeline.ofTracks "p" [⟨"audio-1", .audio, []⟩]).alterAll [.clip (.insert early)]
    AllFinite t.numbers ∧ (∀ x ∈ t.numbers, ReadsBack x) ∧ t.clips = [early] ∧
      t.toJson = t.documentLasting (WireNumber.toJson (0 : Float)) ∧ early.stop < 0 := by
  intro early t
  refine ⟨by decide +kernel, by decide +kernel, by decide +kernel, ?_, by decide +kernel⟩
  have hduration : t.duration = 0 := by decide +kernel
  rw [← hduration]
  rfl

end Montage
