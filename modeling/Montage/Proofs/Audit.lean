import Mathlib.Algebra.Order.Field.Rat
import Mathlib.Tactic.Linarith
import Montage.Proofs.Index
import Montage.Timeline.Audit

/-!
# The audit finds what is wrong

On exact times the audit of a timeline lists nothing exactly when the timeline breaks no rule.
-/

namespace Montage

theorem Scalar.abs_exact (x : Rat) : Scalar.abs x = |x| := by
  rcases le_total 0 x with hx | hx
  · exact (Rat.abs_of_nonneg hx).trans (abs_of_nonneg hx).symm
  · exact (Rat.abs_of_nonpos hx).trans (abs_of_nonpos hx).symm

/-! ## Spans of exact times -/

namespace Span

theorem overlaps_eq_false_iff {s t : Span Rat} {ε : Rat} :
    s.overlaps t ε = false ↔ t.stop ≤ s.start + ε ∨ s.stop ≤ t.start + ε := by
  rw [overlaps, Bool.and_eq_false_iff, decide_eq_false_iff_not, decide_eq_false_iff_not, not_lt,
    not_lt]
  constructor
  · rintro (h | h)
    · exact .inl (by linarith)
    · exact .inr h
  · rintro (h | h)
    · exact .inl (by linarith)
    · exact .inr h

theorem overlaps_comm (s t : Span Rat) (ε : Rat) : s.overlaps t ε = t.overlaps s ε := by
  rw [Bool.eq_iff_iff, ← not_iff_not, Bool.not_eq_true, Bool.not_eq_true, overlaps_eq_false_iff,
    overlaps_eq_false_iff, or_comm]

end Span

namespace Timeline

/-! ## Issues of tracks -/

theorem issueIf_eq_nil_iff {condition : Bool} {issue : Issue} :
    issueIf condition issue = [] ↔ condition = false := by
  cases condition <;> simp [issueIf]

theorem clipIssues_eq_nil_iff {track : Track Rat} {clip : Clip Rat} :
    clipIssues track clip = [] ↔ Fits track clip := by
  simp only [clipIssues, List.append_eq_nil_iff, issueIf_eq_nil_iff, decide_eq_false_iff_not,
    not_le, not_lt, ne_eq, not_not, Bool.not_eq_false']
  constructor
  · rintro ⟨⟨⟨⟨⟨⟨htrack, haccepts⟩, hstop⟩, hstart⟩, hoffset⟩, hspeed⟩, hvolume⟩
    exact ⟨htrack, haccepts, hstop, hstart, hoffset, hspeed, hvolume⟩
  · rintro ⟨htrack, haccepts, hstop, hstart, hoffset, hspeed, hvolume⟩
    exact ⟨⟨⟨⟨⟨⟨htrack, haccepts⟩, hstop⟩, hstart⟩, hoffset⟩, hspeed⟩, hvolume⟩

theorem overlapIssues_eq_nil_iff {ε : Rat} {track : Track Rat} {clip : Clip Rat}
    {later : List (Clip Rat)} :
    overlapIssues ε track clip later = [] ↔
      ∀ other ∈ later, clip.span.overlaps other.span ε = false := by
  simp [overlapIssues]

/-- The ids are distinct, and none was seen before. -/
def NewIds (seen ids : List ClipId) : Prop :=
  ids.Nodup ∧ ∀ id ∈ ids, id ∉ seen

theorem newIds_cons {seen ids : List ClipId} {id : ClipId} :
    NewIds seen (id :: ids) ↔ id ∉ seen ∧ NewIds (id :: seen) ids := by
  rw [NewIds, NewIds, List.nodup_cons, List.forall_mem_cons]
  constructor
  · rintro ⟨⟨hid, hnodup⟩, hseen, hrest⟩
    refine ⟨hseen, hnodup, fun other hother hmem => ?_⟩
    rcases List.mem_cons.1 hmem with rfl | hmem
    · exact hid hother
    · exact hrest other hother hmem
  · rintro ⟨hseen, hnodup, hrest⟩
    exact ⟨⟨fun hid => hrest id hid List.mem_cons_self, hnodup⟩, hseen, fun other hother hmem =>
      hrest other hother (List.mem_cons_of_mem _ hmem)⟩

theorem newIds_append {seen ids more : List ClipId} :
    NewIds seen (ids ++ more) ↔ NewIds seen ids ∧ NewIds (ids ++ seen) more := by
  rw [NewIds, NewIds, NewIds, List.nodup_append, List.forall_mem_append]
  constructor
  · rintro ⟨⟨hids, hmore, hdisjoint⟩, hseen, hmoreSeen⟩
    refine ⟨⟨hids, hseen⟩, hmore, fun id hid hmem => ?_⟩
    rcases List.mem_append.1 hmem with hold | hold
    · exact hdisjoint id hold id hid rfl
    · exact hmoreSeen id hid hold
  · rintro ⟨⟨hids, hseen⟩, hmore, hrest⟩
    refine ⟨⟨hids, hmore, ?_⟩, hseen, fun id hid hmem =>
      hrest id hid (List.mem_append_right _ hmem)⟩
    rintro id hid _ hother rfl
    exact hrest id hother (List.mem_append_left _ hid)

theorem trackIssues_eq_nil_iff {ε : Rat} {track : Track Rat} {seen : List ClipId}
    {clips : List (Clip Rat)} :
    trackIssues ε track seen clips = [] ↔
      NewIds seen (clips.map Clip.id) ∧ (∀ clip ∈ clips, Fits track clip) ∧
        clips.Pairwise fun a b => a.span.overlaps b.span ε = false := by
  induction clips generalizing seen with
  | nil => simp [trackIssues, NewIds]
  | cons clip later ih =>
      simp only [trackIssues, List.append_eq_nil_iff, issueIf_eq_nil_iff, clipIssues_eq_nil_iff,
        overlapIssues_eq_nil_iff, ih, List.map_cons, newIds_cons, List.forall_mem_cons,
        List.pairwise_cons, List.contains_eq_mem, decide_eq_false_iff_not]
      constructor
      · rintro ⟨⟨⟨hseen, hfits⟩, hfree⟩, hids, hrest, hapart⟩
        exact ⟨⟨hseen, hids⟩, ⟨hfits, hrest⟩, hfree, hapart⟩
      · rintro ⟨⟨hseen, hids⟩, ⟨hfits, hrest⟩, hfree, hapart⟩
        exact ⟨⟨⟨hseen, hfits⟩, hfree⟩, hids, hrest, hapart⟩

theorem placementIssues_eq_nil_iff {ε : Rat} {seen : List ClipId} {tracks : List (Track Rat)} :
    placementIssues ε seen tracks = [] ↔
      NewIds seen ((tracks.flatMap Track.clips).map Clip.id) ∧
        (∀ track ∈ tracks, ∀ clip ∈ track.clips, Fits track clip) ∧
        ∀ track ∈ tracks, track.clips.Pairwise fun a b => a.span.overlaps b.span ε = false := by
  induction tracks generalizing seen with
  | nil => simp [placementIssues, NewIds]
  | cons track rest ih =>
      simp only [placementIssues, List.append_eq_nil_iff, trackIssues_eq_nil_iff, ih,
        List.flatMap_cons, List.map_append, newIds_append, List.forall_mem_cons]
      constructor
      · rintro ⟨⟨hids, hfits, hapart⟩, hrestIds, hrestFits, hrestApart⟩
        exact ⟨⟨hids, hrestIds⟩, ⟨hfits, hrestFits⟩, hapart, hrestApart⟩
      · rintro ⟨⟨hids, hrestIds⟩, ⟨hfits, hrestFits⟩, hapart, hrestApart⟩
        exact ⟨⟨hids, hfits, hapart⟩, hrestIds, hrestFits, hrestApart⟩

/-! ## Issues of links -/

theorem inSync_comm (a b : Clip Rat) (ε : Rat) : a.inSync b ε = b.inSync a ε := by
  have habs (x y : Rat) : Scalar.abs (x - y) = Scalar.abs (y - x) := Rat.abs_sub_comm
  simp only [Clip.inSync, habs a.start, habs a.stop, habs a.offset, habs a.speed]

variable {t : Timeline Rat} {ε : Rat}

theorem linkIssues_eq_nil_iff (h : t.InStep) {clip : Clip Rat} :
    t.linkIssues ε clip = [] ↔ ∀ link, clip.link = some link →
      ∃ partner ∈ t.clips, partner.id = link ∧ partner.link = some clip.id ∧
        partner.track ≠ clip.track ∧
        (clip.id < partner.id → clip.inSync partner ε = true) := by
  unfold linkIssues
  cases hlink : clip.link with
  | none => simp
  | some link =>
      simp only [Option.some.injEq, forall_eq']
      cases hpartner : t.clip? link with
      | none =>
          have hmissing := h.clip?_eq_none_iff.1 hpartner
          simp only [List.cons_ne_nil, false_iff]
          rintro ⟨partner, hmem, hid, _⟩
          exact hmissing partner hmem hid
      | some partner =>
          obtain ⟨hmem, hid⟩ := h.clip?_eq_some_iff.1 hpartner
          simp only [List.append_eq_nil_iff, issueIf_eq_nil_iff, decide_eq_false_iff_not, ne_eq,
            not_not, Bool.and_eq_false_iff, Bool.not_eq_false']
          constructor
          · rintro ⟨⟨hback, htrack⟩, hsync⟩
            exact ⟨partner, hmem, hid, hback, htrack, fun hlt => hsync.resolve_left (not_not.2 hlt)⟩
          · rintro ⟨other, hother, hotherId, hback, htrack, hsync⟩
            have heq : other = partner := h.eq_of_id_eq hother hmem (hotherId.trans hid.symm)
            subst heq
            refine ⟨⟨hback, htrack⟩, ?_⟩
            by_cases hlt : clip.id < other.id
            · exact .inr (hsync hlt)
            · exact .inl hlt

/-- A pair is told out of sync once, from its lesser id, and that is enough. -/
theorem flatMap_linkIssues_eq_nil_iff (h : t.InStep) :
    t.clips.flatMap (t.linkIssues ε) = [] ↔ ∀ clip ∈ t.clips, t.LinkHolds ε clip := by
  simp only [List.flatMap_eq_nil_iff, linkIssues_eq_nil_iff h]
  constructor
  · intro hall clip hclip link hlink
    obtain ⟨partner, hpartner, hid, hback, htrack, hsync⟩ := hall clip hclip link hlink
    refine ⟨partner, hpartner, hid, hback, htrack, ?_⟩
    rcases Std.lt_trichotomy clip.id partner.id with hlt | heq | hgt
    · exact hsync hlt
    · exact absurd (congrArg Clip.track (h.eq_of_id_eq hpartner hclip heq.symm)) htrack
    · obtain ⟨other, hother, hotherId, _, _, hsync⟩ := hall partner hpartner clip.id hback
      rw [h.eq_of_id_eq hother hclip hotherId] at hsync
      rw [inSync_comm]
      exact hsync hgt
  · intro hall clip hclip link hlink
    obtain ⟨partner, hpartner, hid, hback, htrack, hsync⟩ := hall clip hclip link hlink
    exact ⟨partner, hpartner, hid, hback, htrack, fun _ => hsync⟩

/-- The audit of a timeline whose index is in step lists nothing exactly when it breaks no rule. -/
theorem InStep.issues_eq_nil_iff (h : t.InStep) : t.issues ε = [] ↔ t.Sound ε := by
  have hapart (track : Track Rat) :
      (track.clips.Pairwise fun a b => a.span.overlaps b.span ε = false) ↔
        track.clips.Pairwise fun a b =>
          a.span.overlaps b.span ε = false ∧ b.span.overlaps a.span ε = false :=
    ⟨fun h => h.imp fun hfree => ⟨hfree, (Span.overlaps_comm ..).trans hfree⟩,
      fun h => h.imp And.left⟩
  rw [issues, List.append_eq_nil_iff, placementIssues_eq_nil_iff, flatMap_linkIssues_eq_nil_iff h]
  simp only [hapart]
  constructor
  · rintro ⟨⟨hids, hfits, hapart⟩, hlinks⟩
    exact ⟨hids.1, hfits, hapart, hlinks⟩
  · rintro ⟨hids, hfits, hapart, hlinks⟩
    exact ⟨⟨⟨hids, by simp⟩, hfits, hapart⟩, hlinks⟩

/-- An index that is made from the tracks is in step if the audit lists nothing. -/
theorem inStep_of_issues_eq_nil (hindex : t.index = .ofTracks t.tracks) (hissues : t.issues ε = []) :
    t.InStep := by
  rw [issues, List.append_eq_nil_iff, placementIssues_eq_nil_iff] at hissues
  exact inStep_of_index_eq hindex hissues.1.1.1

/-! ## The rules in numbers -/

/-- The rules that the audit is about, by what is stored and where. -/
structure Flawless (ε : Rat) (t : Timeline Rat) : Prop where
  ids_nodup : (t.clips.map Clip.id).Nodup
  track_eq : ∀ track ∈ t.tracks, ∀ clip ∈ track.clips, clip.track = track.id
  medium_iff : ∀ track ∈ t.tracks, ∀ clip ∈ track.clips,
    clip.medium = .video ↔ track.kind = .video
  numbers : ∀ clip ∈ t.clips, 0 ≤ clip.start ∧ clip.start < clip.stop ∧ 0 ≤ clip.offset ∧
    0 < clip.speed ∧ 0 ≤ clip.volume
  /-- Two places of a track, in either order, share no more time than the tolerance. -/
  apart : ∀ track ∈ t.tracks, ∀ (i j : Nat) (a b : Clip Rat), track.clips[i]? = some a →
    track.clips[j]? = some b → i ≠ j → ¬ (a.start < b.stop - ε ∧ b.start + ε < a.stop)
  linked : ∀ clip ∈ t.clips, ∀ link, clip.link = some link → ∃ partner ∈ t.clips,
    partner.id = link ∧ partner.link = some clip.id ∧ partner.track ≠ clip.track ∧
      |clip.start - partner.start| ≤ ε ∧ |clip.stop - partner.stop| ≤ ε ∧
        |clip.offset - partner.offset| ≤ ε ∧ |clip.speed - partner.speed| ≤ ε

theorem accepts_iff {kind : TrackKind} {medium : Medium} :
    kind.accepts medium = true ↔ (medium = .video ↔ kind = .video) := by
  cases kind <;> cases medium <;> simp [TrackKind.accepts, TrackKind.medium]

theorem inSync_iff {a b : Clip Rat} :
    a.inSync b ε = true ↔ |a.start - b.start| ≤ ε ∧ |a.stop - b.stop| ≤ ε ∧
      |a.offset - b.offset| ≤ ε ∧ |a.speed - b.speed| ≤ ε := by
  simp only [Clip.inSync, Bool.and_eq_true, decide_eq_true_eq, Scalar.abs_exact, and_assoc]

theorem pairwise_iff_getElem?_of_comm {β : Type} {R : β → β → Prop} {entries : List β}
    (hcomm : ∀ a b, R a b → R b a) :
    entries.Pairwise R ↔
      ∀ (i j : Nat) (a b : β), entries[i]? = some a → entries[j]? = some b → i ≠ j → R a b := by
  rw [List.pairwise_iff_getElem]
  constructor
  · intro hall i j a b ha hb hne
    obtain ⟨hi, rfl⟩ := List.getElem?_eq_some_iff.1 ha
    obtain ⟨hj, rfl⟩ := List.getElem?_eq_some_iff.1 hb
    rcases Nat.lt_or_gt_of_ne hne with hlt | hgt
    · exact hall i j hi hj hlt
    · exact hcomm _ _ (hall j i hj hi hgt)
  · intro hall i j hi hj hlt
    exact hall i j _ _ (List.getElem?_eq_getElem hi) (List.getElem?_eq_getElem hj) (Nat.ne_of_lt hlt)

theorem sound_iff_flawless : t.Sound ε ↔ t.Flawless ε := by
  have hfree (a b : Clip Rat) : a.span.overlaps b.span ε = false ↔
      ¬ (a.start < b.stop - ε ∧ b.start + ε < a.stop) := by
    rw [Span.overlaps, ← Bool.not_eq_true, Bool.and_eq_true, decide_eq_true_eq, decide_eq_true_eq]
    rfl
  have hapart (track : Track Rat) :
      (track.clips.Pairwise fun a b =>
        a.span.overlaps b.span ε = false ∧ b.span.overlaps a.span ε = false) ↔
      ∀ (i j : Nat) (a b : Clip Rat), track.clips[i]? = some a → track.clips[j]? = some b →
        i ≠ j → ¬ (a.start < b.stop - ε ∧ b.start + ε < a.stop) := by
    simp only [pairwise_iff_getElem?_of_comm fun _ _ => And.symm, hfree]
    constructor
    · exact fun h i j a b ha hb hne => (h i j a b ha hb hne).1
    · exact fun h i j a b ha hb hne => ⟨h i j a b ha hb hne, h j i b a hb ha hne.symm⟩
  constructor
  · intro h
    refine ⟨h.ids_nodup, fun track htrack clip hclip => (h.fits track htrack clip hclip).track_eq,
      fun track htrack clip hclip => accepts_iff.1 (h.fits track htrack clip hclip).accepts,
      fun clip hclip => ?_, fun track htrack => (hapart track).1 (h.apart track htrack),
      fun clip hclip link hlink => ?_⟩
    · obtain ⟨track, htrack, hin⟩ := mem_clips.1 hclip
      have hfits := h.fits track htrack clip hin
      exact ⟨hfits.start_nonneg, hfits.start_lt_stop, hfits.offset_nonneg, hfits.speed_pos,
        hfits.volume_nonneg⟩
    · obtain ⟨partner, hpartner, hid, hback, htrack, hsync⟩ := h.links clip hclip link hlink
      exact ⟨partner, hpartner, hid, hback, htrack, inSync_iff.1 hsync⟩
  · intro h
    refine ⟨h.ids_nodup, fun track htrack clip hclip => ?_,
      fun track htrack => (hapart track).2 (h.apart track htrack), fun clip hclip link hlink => ?_⟩
    · obtain ⟨hstart, hstop, hoffset, hspeed, hvolume⟩ :=
        h.numbers clip (mem_clips.2 ⟨track, htrack, hclip⟩)
      exact ⟨h.track_eq track htrack clip hclip, accepts_iff.2 (h.medium_iff track htrack clip hclip),
        hstop, hstart, hoffset, hspeed, hvolume⟩
    · obtain ⟨partner, hpartner, hid, hback, htrack, hsync⟩ := h.linked clip hclip link hlink
      exact ⟨partner, hpartner, hid, hback, htrack, inSync_iff.2 hsync⟩

/-- The audit lists nothing exactly when the rules hold, also if an id stands twice in the index. -/
theorem issues_eq_nil_iff_flawless (t : Timeline Rat) (hindex : t.index = .ofTracks t.tracks)
    (ε : Rat) : t.issues ε = [] ↔ t.Flawless ε := by
  rw [← sound_iff_flawless]
  constructor
  · intro hissues
    exact (inStep_of_issues_eq_nil hindex hissues).issues_eq_nil_iff.1 hissues
  · intro hsound
    exact (inStep_of_index_eq hindex hsound.ids_nodup).issues_eq_nil_iff.2 hsound

/-- A picture, its sound that starts a little late, and a sound that starts a little early. -/
def narrowTracks : List (Track Rat) :=
  [⟨"video-1", .video, [⟨"a", "video-1", "media/a.mp4", 0, 8, 0, .video, 1, 1, 0, some "b"⟩]⟩,
    ⟨"av-1", .av,
      [⟨"b", "av-1", "media/a.mp4", 1 / 2000, 8, 0, .audio, 1, 1, 0, some "a"⟩,
        ⟨"c", "av-1", "media/c.wav", 8 - 1 / 2000, 9, 0, .audio, 1, 1, 0, none⟩]⟩]

theorem issues_eq_nil_iff_flawless_narrow :
    let t := ofTracks "p" narrowTracks
    t.index = .ofTracks t.tracks ∧ t.Flawless (1 / 1000) ∧ ¬ t.Flawless (1 / 4000) := by
  intro t
  have hiff := issues_eq_nil_iff_flawless t rfl
  refine ⟨rfl, (hiff (1 / 1000)).1 (by decide +kernel), fun h => ?_⟩
  exact absurd ((hiff (1 / 4000)).2 h) (by decide +kernel)

end Timeline

end Montage
