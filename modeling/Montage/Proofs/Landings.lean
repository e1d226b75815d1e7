import Mathlib.Tactic.Linarith
import Montage.Proofs.Drags
import Montage.Proofs.Exact
import Montage.Proofs.Layout

/-!
# Where a drag lands

A drag that is released on the timeline where it began moves all its clips by one shift, or none. It
moves them exactly when the pointer's shift is a number, and no clip that stays is in the way of one
that moves.
-/

namespace Montage

namespace Timeline

variable {α : Type}

/-- The timeline with the clips of a group moved along it. -/
def displaced [Scalar α] (t : Timeline α) (group : ClipSet) (delta : α) : Timeline α :=
  { t with tracks := t.tracks.map fun track =>
      { track with clips := track.clips.map fun clip =>
          if clip.id ∈ group then
            { clip with start := clip.start + delta, stop := clip.stop + delta }
          else clip } }

/-- A clip of the group, moved, and a clip that stays would share a stretch of the track. -/
def Collides [Scalar α] (t : Timeline α) (ε : α) (group : ClipSet) (delta : α)
    (clip other : Clip α) : Prop :=
  clip ∈ t.clips ∧ clip.id ∈ group ∧ other ∈ t.clips ∧ other.id ∉ group ∧
    other.track = clip.track ∧ other.span.overlaps (clip.span.shift delta) ε = true

/-- The shift, or a greater one that takes the earliest clip of the group to zero. -/
def CutShort (t : Timeline Exact) (group : ClipSet) (shift delta : Exact) : Prop :=
  ∃ first ∈ t.clips, first.id ∈ group ∧
    (∀ clip ∈ t.clips, clip.id ∈ group → first.start ≤ clip.start) ∧
    delta = if first.start + shift < 0 then -first.start else shift

theorem mem_clips_displaced [Scalar α] {t : Timeline α} {group : ClipSet} {delta : α}
    {clip : Clip α} (hclip : clip ∈ (t.displaced group delta).clips) (hmem : clip.id ∈ group) :
    ∃ old ∈ t.clips,
      clip = { old with start := old.start + delta, stop := old.stop + delta } := by
  simp only [displaced, clips, List.mem_flatMap, List.mem_map] at hclip
  obtain ⟨_, ⟨track, htrack, rfl⟩, hclip⟩ := hclip
  obtain ⟨old, hold, rfl⟩ := List.mem_map.1 hclip
  refine ⟨old, mem_clips.2 ⟨track, htrack, hold⟩, ?_⟩
  by_cases hin : old.id ∈ group
  · rw [if_pos hin]
  · rw [if_neg hin] at hmem
    exact absurd hmem hin

theorem modify_index (t : Timeline α) (id : ClipId) (change : Clip α → Clip α) :
    (t.modify id change).index = t.index := by
  cases hmodify : t.modify? id change with
  | none => rw [modify, hmodify, Option.getD_none]
  | some next =>
      rw [modify, hmodify, Option.getD_some]
      simp only [modify?, Option.bind_eq_bind, Option.bind_eq_some_iff, Option.pure_def,
        Option.some.injEq] at hmodify
      obtain ⟨_, _, _, _, _, _, rfl⟩ := hmodify
      rfl

end Timeline

namespace Drag

variable {α : Type} [Scalar α] {t : Timeline α} {d : Drag α} {group : ClipSet}

theorem shifted_index (d : Drag α) (t : Timeline α) (delta : α) :
    (d.shifted t delta).index = t.index := by
  unfold shifted
  generalize d.held = held
  induction held generalizing t with
  | nil => rfl
  | cons first held ih => rw [List.foldl_cons, ih, Timeline.modify_index]

namespace Holds

theorem shifted_eq (h : d.Holds t group) (hstep : t.InStep) (hnodup : d.ids.Nodup) (delta : α) :
    d.shifted t delta = t.displaced group delta := by
  have hrevision := Timeline.shifted_revision hstep hnodup delta
  -- Clips move where they stand, so the index stays as well.
  have hindex := d.shifted_index t delta
  have hdropped (clip) (hclip : clip ∈ t.clips) : Timeline.dropped d.held delta clip =
      if clip.id ∈ group then { clip with start := clip.start + delta, stop := clip.stop + delta }
      else clip := by
    by_cases hmem : clip.id ∈ group
    · rw [if_pos hmem, h.moved delta clip hclip clip hmem rfl]
    · rw [if_neg hmem, h.left delta clip hmem]
  have htracks : (d.shifted t delta).tracks = (t.displaced group delta).tracks := by
    refine List.ext_getElem? fun i => ?_
    rw [hrevision.getElem?_tracks, Timeline.displaced, List.getElem?_map]
    refine Option.map_congr fun track htrack => ?_
    have hclips := List.map_congr_left fun clip hclip =>
      hdropped clip (Timeline.mem_clips.2 ⟨track, List.mem_of_getElem? htrack, hclip⟩)
    rw [Track.revise, List.filter_true, List.filter_nil, List.append_nil, hclips]
  cases hnext : d.shifted t delta with
  | mk id tracks captions shapes index =>
      rw [hnext] at hrevision hindex htracks
      rw [Timeline.displaced, Timeline.mk.injEq]
      exact ⟨hrevision.id_eq, htracks, hrevision.captions_eq, hrevision.shapes_eq, hindex⟩

theorem preview?_eq (h : d.Holds t group) (hstep : t.InStep) {clip : Clip α}
    (hclip : clip ∈ t.clips) (hmem : clip.id ∈ group) (hfinite : Scalar.isFinite d.delta = true) :
    d.preview? clip.id = some (clip.span.shift d.delta) := by
  simp only [preview?, find?_held hstep h.mem_held hclip hmem, Option.map_some, hfinite, if_true]
  rfl

/-! ## The checks of a release -/

variable {delta ε : α}

/-- One check of a held clip may fail: whether the clips that stay leave room. -/
theorem checkHeld_eq (h : d.Holds t group) (hstep : t.InStep) (hhoused : t.Housed)
    (hids : (t.tracks.map Track.id).Nodup)
    (hlong : ∀ clip ∈ t.clips, clip.start + delta < clip.stop + delta) {held : Held α}
    (hheld : held ∈ d.held) :
    ∃ clip ∈ t.clips, clip.id ∈ group ∧ ∃ track ∈ t.tracks, track.id = clip.track ∧
      d.checkHeld t delta ε held =
        Timeline.checkFree track (clip.span.shift delta) ε d.ids := by
  obtain ⟨clip, hclip, hmem, rfl⟩ := (h.mem_held held).1 hheld
  obtain ⟨track, htrack, hon⟩ := Timeline.mem_clips.1 hclip
  have hhouse := hhoused track htrack clip hon
  have hfound : t.track? clip.track = some track := by
    rw [hhouse, Timeline.track?_id hids htrack]
  refine ⟨clip, hclip, hmem, track, htrack, hhouse.symm, ?_⟩
  exact Timeline.checkHeld_eq_checkFree (by simp [hstep.clip?_id hclip]) hfound (hlong clip hclip)

theorem collides_of_overlapping (h : d.Holds t group) {track : Track α}
    (hhoused : t.Housed) (htrack : track ∈ t.tracks) {clip other : Clip α} (hclip : clip ∈ t.clips)
    (hmem : clip.id ∈ group) (hon : track.id = clip.track)
    (hother : other ∈ track.overlapping (clip.span.shift delta) ε d.ids) :
    t.Collides ε group delta clip other := by
  obtain ⟨hother, hways⟩ := List.mem_filter.1 hother
  obtain ⟨hstays, hoverlaps⟩ := Bool.and_eq_true_iff.1 hways
  refine ⟨hclip, hmem, Timeline.mem_clips.2 ⟨track, htrack, hother⟩, fun hin => ?_,
    (hhoused track htrack other hother).trans hon, hoverlaps⟩
  simp [(h.mem_ids other.id).2 hin] at hstays

theorem collides_of_forM_error (h : d.Holds t group) (hstep : t.InStep) (hhoused : t.Housed)
    (hids : (t.tracks.map Track.id).Nodup)
    (hlong : ∀ clip ∈ t.clips, clip.start + delta < clip.stop + delta) {reason : Refusal α}
    (hchecks : d.held.forM (d.checkHeld t delta ε) = .error reason) :
    ∃ clip other, t.Collides ε group delta clip other ∧
      reason = .overlap clip.track other.id := by
  obtain ⟨held, hheld, hcheck⟩ := exists_of_forM_error hchecks
  obtain ⟨clip, hclip, hmem, track, htrack, hon, heq⟩ :=
    h.checkHeld_eq hstep hhoused hids hlong hheld
  obtain ⟨other, hother, hreason⟩ := Timeline.checkFree_error (heq.symm.trans hcheck)
  exact ⟨clip, other, h.collides_of_overlapping hhoused htrack hclip hmem hon hother,
    hon ▸ hreason⟩

theorem not_collides_of_forM_ok (h : d.Holds t group) (hhoused : t.Housed)
    (hids : (t.tracks.map Track.id).Nodup)
    (hchecks : d.held.forM (d.checkHeld t delta ε) = .ok ()) (clip other : Clip α) :
    ¬ t.Collides ε group delta clip other := by
  rintro ⟨hclip, hmem, hother, hstays, hon, hoverlaps⟩
  have hheld := (h.mem_held _).2 ⟨clip, hclip, hmem, rfl⟩
  obtain ⟨_, track, htrack, _, hfree⟩ :=
    Timeline.checkHeld_spec (forM_eq_ok_iff.1 hchecks _ hheld)
  have hnames : other.track = track.id := by
    have htrackId : track.id = clip.track := by simpa using List.find?_some htrack
    exact hon.trans htrackId.symm
  have hside := hhoused.mem_clips_track hids (List.mem_of_find?_eq_some htrack) hother hnames
  have hfar : other.span.overlaps (clip.span.shift delta) ε = false :=
    Timeline.overlapping_eq_nil_iff.1 hfree other hside (mt (h.mem_ids other.id).1 hstays)
  rw [hfar] at hoverlaps
  cases hoverlaps

end Holds

end Drag

/-! ## The shift of a release -/

namespace Timeline.CutShort

variable {t : Timeline Exact} {group : ClipSet} {shift delta : Exact}

theorem start_nonneg (h : t.CutShort group shift delta) (hfinite : Scalar.isFinite delta = true)
    (hlong : ∀ clip ∈ t.clips, clip.start < clip.stop) {clip : Clip Exact} (hclip : clip ∈ t.clips)
    (hmem : clip.id ∈ group) : 0 ≤ clip.start + delta ∧ 0 ≤ clip.stop + delta := by
  obtain ⟨first, hfirst, _, hleast, rfl⟩ := h
  obtain ⟨least, _, hleastEq, _, _⟩ := Exact.exists_of_lt (hlong first hfirst)
  obtain ⟨start, stop, hstart, hstop, hspan⟩ := Exact.exists_of_lt (hlong clip hclip)
  have hle := hleast clip hclip hmem
  rw [hleastEq, hstart, Exact.number_le] at hle
  rw [hstart, hstop]
  by_cases hearly : first.start + shift < 0
  · rw [if_pos hearly, hleastEq, Exact.neg_number, Exact.number_add, Exact.number_add,
      Exact.zero_eq, Exact.number_le, Exact.number_le]
    constructor <;> linarith
  · rw [if_neg hearly] at hfinite ⊢
    obtain ⟨value, rfl⟩ := Exact.exists_of_isFinite hfinite
    rw [hleastEq, Exact.number_add, Exact.zero_eq, Exact.number_lt] at hearly
    rw [Exact.number_add, Exact.number_add, Exact.zero_eq, Exact.number_le, Exact.number_le]
    constructor <;> linarith

theorem isFinite (h : t.CutShort group shift delta) (hfinite : Scalar.isFinite shift = true)
    (hlong : ∀ clip ∈ t.clips, clip.start < clip.stop) : Scalar.isFinite delta = true := by
  obtain ⟨first, hfirst, _, _, rfl⟩ := h
  obtain ⟨least, _, hleast, _, _⟩ := Exact.exists_of_lt (hlong first hfirst)
  split
  · rw [hleast, Exact.neg_number, Exact.isFinite_number]
  · exact hfinite

end Timeline.CutShort

namespace Drag

theorem Holds.feasibleDelta_cutShort {t : Timeline Exact} {d : Drag Exact} {group : ClipSet}
    (h : d.Holds t group) (hlong : ∀ clip ∈ t.clips, clip.start < clip.stop)
    {clip : Clip Exact} (hclip : clip ∈ t.clips) (hmem : clip.id ∈ group) :
    t.CutShort group d.delta d.feasibleDelta := by
  have hmemStart (start : Exact) : start ∈ d.held.map Held.start ↔
      ∃ clip ∈ t.clips, clip.id ∈ group ∧ clip.start = start := by
    simp only [List.mem_map, h.mem_held]
    constructor
    · rintro ⟨_, ⟨clip, hclip, hmem, rfl⟩, rfl⟩
      exact ⟨clip, hclip, hmem, rfl⟩
    · rintro ⟨clip, hclip, hmem, rfl⟩
      exact ⟨_, ⟨clip, hclip, hmem, rfl⟩, rfl⟩
  cases hstarts : d.held.map Held.start with
  | nil =>
      -- The clip is held.
      have hin := (hmemStart clip.start).2 ⟨clip, hclip, hmem, rfl⟩
      rw [hstarts] at hin
      cases hin
  | cons start rest =>
      rw [hstarts] at hmemStart
      have hnumbers : ∀ x ∈ start :: rest, Scalar.isFinite x = true := by
        intro x hx
        obtain ⟨clip, hclip, _, rfl⟩ := (hmemStart x).1 hx
        obtain ⟨_, _, hstart, _, _⟩ := Exact.exists_of_lt (hlong clip hclip)
        rw [hstart, Exact.isFinite_number]
      obtain ⟨least, hfold, hleastMem, hleast⟩ := Exact.foldl_smaller_spec hnumbers
      obtain ⟨first, hfirst, hfirstMem, hstart⟩ := (hmemStart _).1 hleastMem
      refine ⟨first, hfirst, hfirstMem, fun clip hclip hmem => ?_, ?_⟩
      · rw [hstart]
        exact hleast clip.start ((hmemStart _).2 ⟨clip, hclip, hmem, rfl⟩)
      · simp only [feasibleDelta, earliest?, hstarts, hfold, hstart, Exact.isFinite_number,
          Bool.true_and, decide_eq_true_eq]

/-! ## The landing -/

/--
What the release of a drag does that has to move a group of clips by one shift. They are moved as
the drag was drawn, unless it was drawn to before zero. A release that is refused leaves the
timeline as it is.
-/
structure Lands (d : Drag Exact) (t : Timeline Exact) (settings : EditorSettings Exact)
    (group : ClipSet) (delta : Exact) : Prop where
  moved_iff : (∃ next, d.release t settings = .moved next delta) ↔
    Scalar.isFinite d.delta = true ∧
      ∀ clip other, ¬ t.Collides settings.tolerance group delta clip other
  moved_eq : ∀ next shift, d.release t settings = .moved next shift →
    shift = delta ∧ next = t.displaced group delta
  not_negative : ∀ next shift, d.release t settings = .moved next shift →
    ∀ clip ∈ next.clips, clip.id ∈ group → 0 ≤ clip.start ∧ 0 ≤ clip.stop
  as_drawn : ∀ next shift, d.release t settings = .moved next shift →
    (∀ id span, d.preview? id = some span → ¬ span.start < 0) →
      ∀ clip ∈ next.clips, clip.id ∈ group → d.preview? clip.id = some clip.span
  refused : ∀ reason, d.release t settings = .snappedBack reason →
    (Scalar.isFinite d.delta = false ∧ reason = .invalidValue .delta d.delta) ∨
      (Scalar.isFinite d.delta = true ∧ ∃ clip other,
        t.Collides settings.tolerance group delta clip other ∧
          reason = .overlap clip.track other.id)

variable {t : Timeline Exact} {d : Drag Exact} {group : ClipSet} {settings : EditorSettings Exact}

theorem lands_of_snappedBack {delta : Exact} {reason : Refusal Exact}
    (hrelease : d.release t settings = .snappedBack reason)
    (hreason : (Scalar.isFinite d.delta = false ∧ reason = .invalidValue .delta d.delta) ∨
      (Scalar.isFinite d.delta = true ∧ ∃ clip other,
        t.Collides settings.tolerance group delta clip other ∧
          reason = .overlap clip.track other.id)) : d.Lands t settings group delta := by
  constructor
  case moved_iff =>
    rw [hrelease]
    refine ⟨by simp, ?_⟩
    rintro ⟨hfinite, hclear⟩
    rcases hreason with ⟨hnot, _⟩ | ⟨_, clip, other, hcollides, _⟩
    · simp [hfinite] at hnot
    · exact absurd hcollides (hclear clip other)
  case refused =>
    intro refusal hrefusal
    rw [hrelease] at hrefusal
    cases hrefusal
    exact hreason
  -- What remains is said of releases that move something.
  all_goals
    intro next shift hmoved
    rw [hrelease] at hmoved
    cases hmoved

/-- Where no previewed start is negative, the shift that was previewed is the one of the release. -/
theorem Holds.delta_eq_of_previews (h : d.Holds t group) (hstep : t.InStep) {delta : Exact}
    (hcut : t.CutShort group d.delta delta) (hfinite : Scalar.isFinite d.delta = true)
    (hdrawn : ∀ id span, d.preview? id = some span → ¬ span.start < 0) : delta = d.delta := by
  obtain ⟨first, hfirst, hmem, _, rfl⟩ := hcut
  exact if_neg (hdrawn first.id _ (h.preview?_eq hstep hfirst hmem hfinite))

theorem Holds.lands (h : d.Holds t group) (hstep : t.InStep) (hnodup : d.ids.Nodup)
    (hhoused : t.Housed) (hids : (t.tracks.map Track.id).Nodup)
    (hlong : ∀ clip ∈ t.clips, clip.start < clip.stop)
    (hcut : t.CutShort group d.delta d.feasibleDelta) :
    d.Lands t settings group d.feasibleDelta := by
  by_cases hdelta : Scalar.isFinite d.delta = true
  case neg =>
    have hnot : Scalar.isFinite d.delta = false := by simpa using hdelta
    exact lands_of_snappedBack (Timeline.release_of_not_finite hnot) (.inl ⟨hnot, rfl⟩)
  have hfinite := hcut.isFinite hdelta hlong
  have hshifted (clip) (hclip : clip ∈ t.clips) :
      clip.start + d.feasibleDelta < clip.stop + d.feasibleDelta := by
    obtain ⟨shift, hshift⟩ := Exact.exists_of_isFinite hfinite
    obtain ⟨start, stop, hstart, hstop, hspan⟩ := Exact.exists_of_lt (hlong clip hclip)
    rw [hshift, hstart, hstop, Exact.number_add, Exact.number_add, Exact.number_lt]
    linarith
  cases hresult : d.held.forM (d.checkHeld t d.feasibleDelta settings.tolerance) with
  | error reason =>
      obtain ⟨clip, other, hcollides, hreason⟩ :=
        h.collides_of_forM_error hstep hhoused hids hshifted hresult
      exact lands_of_snappedBack (Timeline.release_of_error hdelta hresult)
        (.inr ⟨hdelta, clip, other, hcollides, hreason⟩)
  | ok =>
      have hrelease := Timeline.release_of_checks hdelta hresult
      rw [h.shifted_eq hstep hnodup] at hrelease
      have hnext {next : Timeline Exact} {shift : Exact}
          (hmoved : d.release t settings = .moved next shift) :
          shift = d.feasibleDelta ∧ next = t.displaced group d.feasibleDelta := by
        rw [hrelease] at hmoved
        cases hmoved
        exact ⟨rfl, rfl⟩
      constructor
      case moved_iff =>
        have hclear := h.not_collides_of_forM_ok hhoused hids hresult
        exact ⟨fun _ => ⟨hdelta, hclear⟩, fun _ => ⟨_, hrelease⟩⟩
      case moved_eq => exact fun next shift => hnext
      case not_negative =>
        intro next shift hmoved clip hclip hmem
        obtain ⟨rfl, rfl⟩ := hnext hmoved
        obtain ⟨old, hold, rfl⟩ := Timeline.mem_clips_displaced hclip hmem
        exact hcut.start_nonneg hfinite hlong hold hmem
      case as_drawn =>
        intro next shift hmoved hdrawn clip hclip hmem
        obtain ⟨rfl, rfl⟩ := hnext hmoved
        obtain ⟨old, hold, rfl⟩ := Timeline.mem_clips_displaced hclip hmem
        rw [h.preview?_eq hstep hold hmem hdelta,
          ← h.delta_eq_of_previews hstep hcut hdelta hdrawn]
        rfl
      case refused =>
        intro reason hreason
        rw [hrelease] at hreason
        cases hreason

/--
A drag that is released on the timeline where it began moves what the links of the selection lead
to. The pointer's moves make the shift, and it is cut short so that nothing starts before zero.
-/
theorem release_lands (t : Timeline Exact) (hindex : t.index = .ofTracks t.tracks)
    (hids : (t.clips.map Clip.id).Nodup) (htracks : (t.tracks.map Track.id).Nodup)
    (hhoused : t.Housed) (hlong : ∀ clip ∈ t.clips, clip.start < clip.stop)
    (settings : EditorSettings Exact) (selection : ClipSet) (clip : ClipId) (pointer : Exact)
    (begun : Drag Exact) (hstart : start t selection clip pointer = .ok begun)
    (moves : List Exact) :
    let d := begun.moveAll t moves settings
    ∃ group delta, (∀ id, id ∈ group ↔ t.Reachable selection.toList id) ∧
      t.CutShort group d.delta delta ∧ d.Lands t settings group delta := by
  intro d
  have hstep := Timeline.inStep_of_index_eq hindex hids
  obtain ⟨hsome, hselected, group, hclosure, hheldBegun⟩ := start_spec hstart
  obtain ⟨hclosed, hseeds⟩ := Timeline.linkClosure_collected hstep.findsById hclosure
  have hheld : d.held = (t.clips.filter fun clip => group.contains clip.id).map fun clip =>
      ⟨clip.id, clip.track, clip.start, clip.stop⟩ := by
    rw [← hheldBegun, show d = _ from moveAll_eq begun t moves settings]
  have hholds := holds_of_held hstep hclosed hheld
  obtain ⟨grabbed, hfound⟩ := Option.isSome_iff_exists.1 hsome
  obtain ⟨hgrabbed, hid⟩ := hstep.clip?_eq_some_iff.1 hfound
  have hmem : grabbed.id ∈ group := by
    rw [hid]
    exact hseeds clip (Std.ExtTreeSet.mem_toList.2 hselected) hsome
  have hcut := hholds.feasibleDelta_cutShort hlong hgrabbed hmem
  exact ⟨group, d.feasibleDelta, Timeline.mem_linkClosure_iff hstep.findsById hclosure, hcut,
    hholds.lands hstep (HeldFrom.nodup_ids ⟨group, hclosed, hheld⟩ hstep) hhoused htracks hlong
      hcut⟩

/-- A picture with its sound, and another picture later on its track. -/
def filmTimeline : Timeline Exact :=
  .ofTracks "t"
    [⟨"video-1", .video,
      [⟨"v", "video-1", "media/v.mp4", .number 2, .number 5, .number 0, .video, .number 1,
          .number 1, 0, some "a"⟩,
        ⟨"w", "video-1", "media/w.mp4", .number 10, .number 12, .number 0, .video, .number 1,
          .number 1, 0, none⟩]⟩,
      ⟨"av-1", .av,
      [⟨"a", "av-1", "media/v.mp4", .number 2, .number 5, .number 0, .audio, .number 1, .number 1,
          0, some "v"⟩]⟩]

theorem release_lands_film :
    let t := filmTimeline
    let begun : Drag Exact := ⟨[⟨"v", "video-1", .number 2, .number 5⟩,
      ⟨"a", "av-1", .number 2, .number 5⟩], .number 0, .number 0⟩
    let d := begun.moveAll t [.undefined, .number (-100)] .standard
    start t {"v"} "v" (.number 0) = .ok begun ∧ d.delta = .number (-5) ∧
      (∃ next, d.release t .standard = .moved next (.number (-2))) ∧
      ∃ group delta, (∀ id, id ∈ group ↔ t.Reachable ["v"] id) ∧
        t.CutShort group (.number (-5)) delta ∧ d.Lands t .standard group delta := by
  intro t begun d
  have hstart : start t {"v"} "v" (.number 0) = .ok begun := by decide +kernel
  have hdelta : d.delta = .number (-5) := by decide +kernel
  have hfeasible : d.feasibleDelta = .number (-2) := by decide +kernel
  have hchecks : d.held.forM (d.checkHeld t d.feasibleDelta
      (EditorSettings.standard (α := Exact)).tolerance) = .ok () := by
    decide +kernel
  have hmoved : ∃ next, d.release t .standard = .moved next (.number (-2)) :=
    ⟨_, hfeasible ▸ Timeline.release_of_checks (by rw [hdelta]; rfl) hchecks⟩
  have hlands := release_lands t rfl (by decide +kernel) (by decide +kernel)
    (by unfold Timeline.Housed; decide +kernel) (by decide +kernel) .standard {"v"} "v" (.number 0)
    begun hstart [.undefined, .number (-100)]
  have hselection : ({"v"} : ClipSet).toList = ["v"] := by decide +kernel
  rw [hselection] at hlands
  obtain ⟨group, delta, hgroup, hcut, hlands⟩ := hlands
  exact ⟨hstart, hdelta, hmoved, group, delta, hgroup, hdelta ▸ hcut, hlands⟩

end Drag

end Montage
