import Montage.Proofs.Cuts
import Montage.Proofs.Validity

/-!
# Revisions of sound timelines

The audit accepts linked clips that agree only up to the tolerance, clips that are shorter than it,
and tracks that share an id. So the rules are kept here track by track, and a revision has to see to
no more than what it alters and what it puts in.
-/

namespace Montage.Timeline

variable {ε : Rat} {t next : Timeline Rat}

/-! ## What the audit gives -/

theorem Sound.housed (h : t.Sound ε) : t.Housed :=
  fun track htrack clip hclip => (h.fits track htrack clip hclip).track_eq

theorem Sound.overlaps_eq_false (h : t.Sound ε) {track : Track Rat} (htrack : track ∈ t.tracks)
    {a b : Clip Rat} (ha : a ∈ track.clips) (hb : b ∈ track.clips) (hid : a.id ≠ b.id) :
    a.span.overlaps b.span ε = false := by
  have : Std.Symm fun a b : Clip Rat =>
      a.span.overlaps b.span ε = false ∧ b.span.overlaps a.span ε = false := ⟨fun _ _ => And.symm⟩
  exact ((h.apart track htrack).forall ha hb fun heq => hid (congrArg Clip.id heq)).1

theorem Sound.partner (h : t.Sound ε) (hstep : t.InStep) {clip partner : Clip Rat}
    (hclip : clip ∈ t.clips) (hpartner : partner ∈ t.clips) (hlink : clip.link = some partner.id) :
    partner.link = some clip.id ∧ partner.track ≠ clip.track ∧ clip.inSync partner ε = true := by
  obtain ⟨found, hfound, hid, hback⟩ := h.links clip hclip partner.id hlink
  rwa [hstep.eq_of_id_eq hfound hpartner hid] at hback

/-! ## Revisions -/

variable {keep : Clip Rat → Bool} {alter : Clip Rat → Clip Rat} {new : List (Clip Rat)}

/-- Links hold after a revision that keeps pairs in sync, if new clips come in pairs. -/
theorem Revision.linkHolds (hrevision : t.Revision keep alter new next) (h : t.Sound ε)
    (halter : ∀ clip, (alter clip).Continues clip)
    (halike : ∀ clip ∈ t.clips, ∀ partner ∈ t.clips, clip.link = some partner.id →
      partner.link = some clip.id → clip.inSync partner ε = true → keep clip = true →
        keep partner = true ∧ (alter clip).inSync (alter partner) ε = true)
    (hnew : ∀ clip ∈ new, ∀ link, clip.link = some link → ∃ partner ∈ new, partner.id = link ∧
      partner.link = some clip.id ∧ partner.track ≠ clip.track ∧ clip.inSync partner ε = true) :
    ∀ clip ∈ next.clips, next.LinkHolds ε clip := by
  intro clip hclip link hlink
  rcases hrevision.mem_clips.1 hclip with ⟨old, hold, hkeep, rfl⟩ | hclip
  · rw [(halter old).link_eq] at hlink
    obtain ⟨partner, hpartner, rfl, hback, htrack, hsync⟩ := h.links old hold link hlink
    obtain ⟨hkept, hsync⟩ := halike old hold partner hpartner hlink hback hsync hkeep
    refine ⟨alter partner, hrevision.mem_clips.2 (.inl ⟨partner, hpartner, hkept, rfl⟩),
      (halter partner).id_eq, ?_, ?_, hsync⟩
    · rw [(halter partner).link_eq, (halter old).id_eq, hback]
    · rwa [(halter partner).track_eq, (halter old).track_eq]
  · obtain ⟨partner, hpartner, hid, hholds⟩ := hnew clip hclip link hlink
    exact ⟨partner, hrevision.mem_clips.2 (.inr hpartner), hid, hholds⟩

theorem Revision.sound (hrevision : t.Revision keep alter new next) (h : t.Sound ε)
    (hold : ∀ track ∈ t.tracks, ∀ clip ∈ track.clips, Fits track (alter clip))
    (hwithin : ∀ clip ∈ t.clips, clip.span.start ≤ (alter clip).span.start ∧
      (alter clip).span.stop ≤ clip.span.stop)
    (hnew : ∀ i track, t.tracks[i]? = some track → ∀ clip ∈ new, t.home? clip = some i →
      Fits track clip ∧ ∀ other ∈ track.clips, (alter other).span.overlaps clip.span ε = false)
    (hnewApart : ∀ a ∈ new, ∀ b ∈ new, a.track = b.track → a.id ≠ b.id →
      a.span.overlaps b.span ε = false)
    (hlinks : ∀ clip ∈ next.clips, next.LinkHolds ε clip) : next.Sound ε where
  ids_nodup := hrevision.inStep.nodup_ids
  fits track htrack clip hclip := by
    obtain ⟨i, old, hi, rfl⟩ := hrevision.exists_track htrack
    have hfits : Fits old clip := by
      rcases List.mem_append.1 hclip with hkept | hin
      · obtain ⟨source, hsource, rfl⟩ := List.mem_map.1 hkept
        exact hold old (List.mem_of_getElem? hi) source (List.mem_filter.1 hsource).1
      · obtain ⟨hin, hhome⟩ := List.mem_filter.1 hin
        exact (hnew i old hi clip hin (of_decide_eq_true hhome)).1
    exact ⟨hfits.track_eq, hfits.accepts, hfits.start_lt_stop, hfits.start_nonneg,
      hfits.offset_nonneg, hfits.speed_pos, hfits.volume_nonneg⟩
  apart track htrack := by
    obtain ⟨i, old, hi, rfl⟩ := hrevision.exists_track htrack
    have hmem : old ∈ t.tracks := List.mem_of_getElem? hi
    have hboth {a b : Clip Rat} (hfree : a.span.overlaps b.span ε = false) :
        a.span.overlaps b.span ε = false ∧ b.span.overlaps a.span ε = false :=
      ⟨hfree, (Span.overlaps_comm ..).trans hfree⟩
    refine List.pairwise_append.2 ⟨List.pairwise_map.2 ?_, ?_, ?_⟩
    · refine ((h.apart old hmem).filter keep).imp_of_mem fun {a b} ha hb hfree => hboth ?_
      have hin {clip : Clip Rat} (hclip : clip ∈ old.clips.filter keep) : clip ∈ t.clips :=
        Timeline.mem_clips.2 ⟨old, hmem, (List.mem_filter.1 hclip).1⟩
      exact Span.overlaps_eq_false_of_within hfree.1 (hwithin a (hin ha)) (hwithin b (hin hb))
    · have hids := List.pairwise_map.1 (hrevision.inStep.nodup_ids_track htrack)
      refine (List.pairwise_append.1 hids).2.1.imp_of_mem fun {a b} ha hb hid => hboth ?_
      have hnames {clip : Clip Rat} (hclip : clip ∈ new.filter (t.home? · = some i)) :
          clip.track = old.id :=
        track_eq_of_home? (of_decide_eq_true (List.mem_filter.1 hclip).2) hi
      exact hnewApart a (List.mem_filter.1 ha).1 b (List.mem_filter.1 hb).1
        ((hnames ha).trans (hnames hb).symm) hid
    · intro a ha b hb
      obtain ⟨source, hsource, rfl⟩ := List.mem_map.1 ha
      obtain ⟨hb, hhome⟩ := List.mem_filter.1 hb
      exact hboth ((hnew i old hi b hb (of_decide_eq_true hhome)).2 source
        (List.mem_filter.1 hsource).1)
  links := hlinks

end Montage.Timeline
