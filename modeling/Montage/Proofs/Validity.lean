import Montage.Proofs.Audit
import Montage.Proofs.Layout
import Montage.Proofs.Pairs

/-!
# Timelines stay valid

On exact times, a timeline on which the audit finds nothing stays so along every run. What the audit
asks is not enough to go by: linked clips have to agree exactly, and every clip has to be longer
than the tolerance. `Timeline.Valid` says all that, by clips alone and a layout that never changes.
-/

namespace Montage

/-! ## Exact scalars -/

namespace Scalar

theorem larger_eq_max (a b : Rat) : larger a b = max a b := by
  unfold larger
  split
  · rename_i hlt
    exact (max_eq_left (le_of_lt hlt)).symm
  · rename_i hnot
    rw [max_eq_right (not_lt.1 hnot)]
    simp

theorem le_larger_left (a b : Rat) : a ≤ larger a b := by
  rw [larger_eq_max]
  exact le_max_left a b

theorem le_larger_right (a b : Rat) : b ≤ larger a b := by
  rw [larger_eq_max]
  exact le_max_right a b

theorem foldl_larger_spec (first : Rat) (xs : List Rat) :
    xs.foldl larger first ∈ first :: xs ∧ ∀ x ∈ first :: xs, x ≤ xs.foldl larger first := by
  have hmax : (first :: xs).max? = some (xs.foldl larger first) := by
    rw [List.max?_cons', funext₂ larger_eq_max]
  exact List.max?_eq_some_iff.1 hmax

theorem smaller_eq_min (a b : Rat) : smaller a b = min a b := by
  unfold smaller
  split
  · rename_i hlt
    exact (min_eq_left (le_of_lt hlt)).symm
  · rename_i hnot
    rw [min_eq_right (not_lt.1 hnot)]
    simp

theorem foldl_smaller_le (first : Rat) (xs : List Rat) :
    ∀ x ∈ first :: xs, xs.foldl smaller first ≤ x := by
  have hmin : (first :: xs).min? = some (xs.foldl smaller first) := by
    rw [List.min?_cons', funext₂ smaller_eq_min]
  exact (List.min?_eq_some_iff.1 hmin).2

end Scalar

/-! ## Clips, spans and drags -/

/-- The seats are on two tracks. -/
def Seat.Apart (seat other : Seat) : Prop :=
  seat.track ≠ other.track

/-- The numbers of the clip have the right signs, and it is longer than the tolerance. -/
structure Clip.Measured (ε : Rat) (clip : Clip Rat) : Prop where
  long : ε < clip.duration
  start_nonneg : 0 ≤ clip.start
  offset_nonneg : 0 ≤ clip.offset
  speed_pos : 0 < clip.speed
  volume_nonneg : 0 ≤ clip.volume

theorem Clip.Measured.start_lt_stop {ε : Rat} {clip : Clip Rat} (h : clip.Measured ε)
    (hε : 0 ≤ ε) : clip.start < clip.stop := by
  have hlong := h.long
  unfold Clip.duration at hlong
  linarith

theorem Clip.Mirrors.inSync {Kin : Seat → Seat → Prop} {ε : Rat} {clip partner : Clip Rat}
    (h : partner.Mirrors Kin clip) (hε : 0 ≤ ε) : clip.inSync partner ε = true := by
  have hzero : (Scalar.abs (0 : Rat)) ≤ ε := hε
  simp [Clip.inSync, h.start_eq, h.stop_eq, h.offset_eq, h.speed_eq, hzero]

/-- The tracks that a site takes up. -/
def Site.tracks {α : Type} (site : Site α) : List (Track α) :=
  site.target :: site.partner.toList

/-- The tracks of a site have ids of their own. -/
def Site.Apart {α : Type} (site : Site α) : Prop :=
  ∀ track, site.partner = some track → track.id ≠ site.target.id

/-- A track of the layout takes clips of the clip's medium, and is the one that the clip names. -/
def Clip.Suits (layout : List (TrackId × TrackKind)) {α : Type} (clip : Clip α) : Prop :=
  ∃ kind, (clip.track, kind) ∈ layout ∧ kind.accepts clip.medium = true

namespace Span

theorem overlaps_eq_false_of_within {s s' t t' : Span Rat} {ε : Rat} (h : s.overlaps t ε = false)
    (hs : s.start ≤ s'.start ∧ s'.stop ≤ s.stop) (ht : t.start ≤ t'.start ∧ t'.stop ≤ t.stop) :
    s'.overlaps t' ε = false := by
  rw [overlaps_eq_false_iff] at h ⊢
  rcases h with h | h
  · exact .inl (by linarith)
  · exact .inr (by linarith)

theorem overlaps_shift {s t : Span Rat} {ε : Rat} (delta : Rat) (h : s.overlaps t ε = false) :
    (s.shift delta).overlaps (t.shift delta) ε = false := by
  rw [overlaps_eq_false_iff] at h ⊢
  simp only [shift]
  rcases h with h | h
  · exact .inl (by linarith)
  · exact .inr (by linarith)

end Span

theorem Drag.feasible_start {d : Drag Rat} {held : Held Rat} (h : held ∈ d.held) :
    0 ≤ held.start + d.feasibleDelta := by
  have hmem : held.start ∈ d.held.map Held.start := List.mem_map_of_mem h
  unfold feasibleDelta earliest?
  cases hstarts : d.held.map Held.start with
  | nil => simp [hstarts] at hmem
  | cons first rest =>
      rw [hstarts] at hmem
      have hleast := Scalar.foldl_smaller_le first rest _ hmem
      simp only
      split
      · linarith
      · rename_i hpositive
        have hfinite (x : Rat) : Scalar.isFinite x = true := rfl
        simp only [hfinite, Bool.true_and, decide_eq_true_eq, not_lt] at hpositive
        linarith

namespace Timeline

/-! ## Validity -/

/-- What edits and releases keep, on a fixed layout of the tracks. -/
structure Valid (ε : Rat) (layout : List (TrackId × TrackKind)) (t : Timeline Rat) : Prop where
  layout_eq : t.layout = layout
  housed : t.Housed
  suits : ∀ clip ∈ t.clips, clip.Suits layout
  measured : ∀ clip ∈ t.clips, clip.Measured ε
  apart : ∀ a ∈ t.clips, ∀ b ∈ t.clips, a.track = b.track → a.id ≠ b.id →
    a.span.overlaps b.span ε = false
  paired : t.Paired Seat.Apart

variable {ε : Rat} {layout : List (TrackId × TrackKind)} {t next : Timeline Rat}

theorem Paired.track_ne (h : t.Paired Seat.Apart) (hstep : t.InStep) {clip partner : Clip Rat}
    (hclip : clip ∈ t.clips) (hpartner : partner ∈ t.clips) (hlink : clip.link = some partner.id) :
    partner.track ≠ clip.track := by
  obtain ⟨found, hfound, hid, hmirrors⟩ := h clip hclip partner.id hlink
  rw [hstep.eq_of_id_eq hfound hpartner hid] at hmirrors
  exact hmirrors.kin

theorem Valid.nodup_track_ids (h : t.Valid ε layout) (hlayout : (layout.map Prod.fst).Nodup) :
    (t.tracks.map Track.id).Nodup := by
  rw [← map_fst_layout, h.layout_eq]
  exact hlayout

/-- A clip that overlaps nothing on its track is apart from every other clip on it. -/
theorem Valid.apart_of_free (h : t.Valid ε layout) (hlayout : (layout.map Prod.fst).Nodup)
    {track : Track Rat} (htrack : track ∈ t.tracks) {span : Span Rat} {ignore : List ClipId}
    (hfree : track.overlapping span ε ignore = []) {clip : Clip Rat} (hclip : clip ∈ t.clips)
    (hnames : clip.track = track.id) (hid : clip.id ∉ ignore) :
    clip.span.overlaps span ε = false :=
  overlapping_eq_nil_iff.1 hfree clip
    (h.housed.mem_clips_track (h.nodup_track_ids hlayout) htrack hclip hnames) hid

theorem Revision.valid {keep : Clip Rat → Bool} {alter : Clip Rat → Clip Rat}
    {new : List (Clip Rat)} (hrevision : t.Revision keep alter new next) (h : t.Valid ε layout)
    (halter : ∀ clip, (alter clip).Continues clip) (hpaired : next.Paired Seat.Apart)
    (hold : ∀ clip ∈ t.clips, (alter clip).Measured ε)
    (hnew : ∀ clip ∈ new, clip.Measured ε ∧ clip.Suits layout)
    (holdApart : ∀ a ∈ t.clips, ∀ b ∈ t.clips, a.track = b.track → a.id ≠ b.id →
      (alter a).span.overlaps (alter b).span ε = false)
    (hmixedApart : ∀ a ∈ t.clips, keep a = true → ∀ b ∈ new, a.track = b.track →
      (alter a).span.overlaps b.span ε = false)
    (hnewApart : ∀ a ∈ new, ∀ b ∈ new, a.track = b.track → a.id ≠ b.id →
      a.span.overlaps b.span ε = false) :
    next.Valid ε layout where
  layout_eq := hrevision.layout_eq.trans h.layout_eq
  housed := hrevision.housed h.housed fun clip => (halter clip).track_eq
  suits clip hclip := by
    rcases hrevision.mem_clips.1 hclip with ⟨old, hmem, _, rfl⟩ | hmem
    · obtain ⟨kind, hkind, haccepts⟩ := h.suits old hmem
      exact ⟨kind, (halter old).track_eq ▸ hkind, (halter old).medium_eq ▸ haccepts⟩
    · exact (hnew clip hmem).2
  measured clip hclip := by
    rcases hrevision.mem_clips.1 hclip with ⟨old, hmem, _, rfl⟩ | hmem
    · exact hold old hmem
    · exact (hnew clip hmem).1
  apart a ha b hb htrack hid := by
    rcases hrevision.mem_clips.1 ha with ⟨old, hmem, hkeep, rfl⟩ | hmem
    · rw [(halter old).track_eq] at htrack
      rw [(halter old).id_eq] at hid
      rcases hrevision.mem_clips.1 hb with ⟨other, hother, _, rfl⟩ | hother
      · rw [(halter other).track_eq] at htrack
        rw [(halter other).id_eq] at hid
        exact holdApart old hmem other hother htrack hid
      · exact hmixedApart old hmem hkeep b hother htrack
    · rcases hrevision.mem_clips.1 hb with ⟨other, hother, hkeep, rfl⟩ | hother
      · rw [(halter other).track_eq] at htrack
        rw [Span.overlaps_comm]
        exact hmixedApart other hother hkeep a hmem htrack.symm
      · exact hnewApart a hmem b hother htrack hid
  paired := hpaired

/-- A revision that moves no clip and puts none in needs to see to the numbers alone. -/
theorem Revision.valid_of_span_eq {keep : Clip Rat → Bool} {alter : Clip Rat → Clip Rat}
    (hrevision : t.Revision keep alter [] next) (h : t.Valid ε layout)
    (halter : ∀ clip, (alter clip).Continues clip) (hpaired : next.Paired Seat.Apart)
    (hold : ∀ clip ∈ t.clips, (alter clip).Measured ε)
    (hspan : ∀ clip, (alter clip).span = clip.span) : next.Valid ε layout := by
  refine hrevision.valid h halter hpaired hold (by simp) (fun a ha b hb htrack hid => ?_) (by simp)
    (by simp)
  rw [hspan, hspan]
  exact h.apart a ha b hb htrack hid

theorem Valid.sound (h : t.Valid ε layout) (hstep : t.InStep)
    (hlayout : (layout.map Prod.fst).Nodup) (hε : 0 ≤ ε) : t.Sound ε where
  ids_nodup := hstep.nodup_ids
  fits track htrack clip hclip := by
    have hmem : clip ∈ t.clips := mem_clips.2 ⟨track, htrack, hclip⟩
    have hmeasured := h.measured clip hmem
    obtain ⟨kind, hkind, haccepts⟩ := h.suits clip hmem
    have htrackEq := h.housed track htrack clip hclip
    have hown := mem_layout htrack
    rw [h.layout_eq] at hown
    have heq := List.inj_on_of_nodup_map hlayout hkind hown htrackEq
    have hkindEq : kind = track.kind := congrArg Prod.snd heq
    exact ⟨htrackEq, hkindEq ▸ haccepts, hmeasured.start_lt_stop hε, hmeasured.start_nonneg,
      hmeasured.offset_nonneg, hmeasured.speed_pos, hmeasured.volume_nonneg⟩
  apart track htrack := by
    have hids := List.pairwise_map.1 (hstep.nodup_ids_track htrack)
    refine hids.imp_of_mem fun {a b} ha hb hne => ?_
    have hsame : a.track = b.track :=
      (h.housed track htrack a ha).trans (h.housed track htrack b hb).symm
    have hfree := h.apart a (mem_clips.2 ⟨track, htrack, ha⟩) b (mem_clips.2 ⟨track, htrack, hb⟩)
      hsame hne
    exact ⟨hfree, (Span.overlaps_comm ..).trans hfree⟩
  links clip hclip link hlink := by
    obtain ⟨partner, hpartner, hid, hmirrors⟩ := h.paired clip hclip link hlink
    exact ⟨partner, hpartner, hid, hmirrors.link_eq, hmirrors.kin, hmirrors.inSync hε⟩

/-! ## Placing -/

theorem lastStop_nonneg (track : Track Rat) : 0 ≤ track.lastStop :=
  (Scalar.foldl_larger_spec 0 _).2 0 List.mem_cons_self

variable {settings : EditorSettings Rat} {Planned : MergePlan Rat → Prop} {ids left : IdSupply}

theorem SiteFound.start_nonneg {asset : Asset Rat} {drop : Drop Rat} {site : Site Rat}
    (h : t.SiteFound asset drop settings site) : 0 ≤ site.start := by
  rw [h.start_eq]
  cases drop with
  | instant at_ => exact Scalar.le_larger_right ..
  | append => exact le_trans (lastStop_nonneg _) (Scalar.le_larger_right ..)

theorem SiteFound.mem_tracks {asset : Asset Rat} {drop : Drop Rat} {site : Site Rat}
    (h : t.SiteFound asset drop settings site) {track : Track Rat} (htrack : track ∈ site.tracks) :
    track ∈ t.tracks := by
  rcases List.mem_cons.1 htrack with rfl | hpartner
  · exact h.target_mem
  · exact (h.partner_spec (Option.mem_toList.1 hpartner)).2.2.1

theorem SiteFound.kind_ne {asset : Asset Rat} {drop : Drop Rat} {site : Site Rat}
    (h : t.SiteFound asset drop settings site) {track : Track Rat}
    (hpartner : site.partner = some track) : track ≠ site.target := by
  obtain ⟨_, hvideo, _, hav⟩ := h.partner_spec hpartner
  intro heq
  rw [← heq, hav] at hvideo
  cases hvideo

theorem SiteFound.apart {asset : Asset Rat} {drop : Drop Rat} {site : Site Rat}
    (h : t.SiteFound asset drop settings site) (hids : (t.tracks.map Track.id).Nodup) :
    site.Apart := fun _ hpartner hid =>
  h.kind_ne hpartner
    (eq_of_track_id_eq hids (h.partner_spec hpartner).2.2.1 h.target_mem hid)

theorem seatsPairs_of_apart {site : Site Rat} (h : site.Apart) : SeatsPairs Seat.Apart site :=
  fun track _ hpartner => ⟨h track hpartner, (h track hpartner).symm⟩

/-- The clips of a placement, one on each of the tracks that are free for them. -/
theorem mem_clipsAt {asset : Asset Rat} {drop : Drop Rat} {site : Site Rat}
    (h : t.SiteFound asset drop settings site) {mediaRoot : String} {id partnerId : ClipId}
    {clip : Clip Rat} (hclip : clip ∈ clipsAt site asset mediaRoot id partnerId) :
    clip.Measured settings.tolerance ∧
      clip.span = Span.ofLength site.start asset.duration ∧
      ∃ track ∈ site.tracks, clip.track = track.id ∧ track.kind.accepts clip.medium = true ∧
        track.overlapping (Span.ofLength site.start asset.duration) settings.tolerance [] = [] := by
  have hmeasured (id : ClipId) (medium : Medium) (track : TrackId) (link : Option ClipId) :
      Clip.Measured settings.tolerance
        { Clip.ofAsset asset id medium track site.start mediaRoot with link := link } := by
    refine ⟨?_, h.start_nonneg, le_refl 0, zero_lt_one, zero_le_one⟩
    have hlong := h.long
    simp only [Clip.duration, Clip.ofAsset]
    linarith
  unfold clipsAt at hclip
  cases hpartner : site.partner with
  | none =>
      simp only [hpartner, List.mem_singleton] at hclip
      subst hclip
      exact ⟨hmeasured _ _ _ none, rfl, site.target, List.mem_cons_self, rfl, h.accepts, h.free⟩
  | some track =>
      simp only [hpartner, List.mem_cons, List.not_mem_nil, or_false] at hclip
      rcases hclip with rfl | rfl
      · exact ⟨hmeasured _ _ _ _, rfl, site.target, List.mem_cons_self, rfl, h.accepts, h.free⟩
      · obtain ⟨_, _, _, hkind⟩ := h.partner_spec hpartner
        refine ⟨hmeasured _ _ _ _, rfl, track, ?_, rfl, by rw [hkind]; rfl,
          h.partner_free track hpartner⟩
        exact List.mem_cons_of_mem _ (Option.mem_toList.2 hpartner)

theorem eq_of_mem_clipsAt {asset : Asset Rat} {site : Site Rat} (h : site.Apart)
    {mediaRoot : String} {id partnerId : ClipId} {a b : Clip Rat}
    (ha : a ∈ clipsAt site asset mediaRoot id partnerId)
    (hb : b ∈ clipsAt site asset mediaRoot id partnerId) (htrack : a.track = b.track) : a = b := by
  unfold clipsAt at ha hb
  cases hpartner : site.partner with
  | none =>
      simp only [hpartner, List.mem_singleton] at ha hb
      rw [ha, hb]
  | some track =>
      have hne := h track hpartner
      simp only [hpartner, List.mem_cons, List.not_mem_nil, or_false] at ha hb
      rcases ha with rfl | rfl <;> rcases hb with rfl | rfl
      · rfl
      · exact absurd htrack.symm hne
      · exact absurd htrack hne
      · rfl

theorem place_valid (hstep : t.InStep) (h : t.Valid settings.tolerance layout)
    (hlayout : (layout.map Prod.fst).Nodup) {asset : Asset Rat} {hint : Option TrackId}
    {drop : Drop Rat} {placed : Placed Rat}
    (hplace : t.place asset hint drop settings ids = (.ok (placed, next), left)) :
    next.Valid settings.tolerance layout := by
  obtain ⟨site, hsite, hrevision, _⟩ := place_revision hstep hplace
  have hsite := findSite_spec hsite
  have hapart := hsite.apart (h.nodup_track_ids hlayout)
  have hpaired := hrevision.paired h.paired .refl
    (fun _ _ _ _ _ hmirrors _ => ⟨rfl, hmirrors.start_eq, hmirrors.stop_eq, hmirrors.speed_eq⟩)
    (clipsAt_mirrors hsite (seatsPairs_of_apart hapart) _ _ _)
  refine hrevision.valid h .refl hpaired h.measured (fun clip hclip => ?_) h.apart
    (fun a ha _ b hb htrack => ?_) (fun a ha b hb htrack hid => ?_)
  · obtain ⟨hmeasured, _, track, htrack, hnames, haccepts, _⟩ := mem_clipsAt hsite hclip
    have hmem := hsite.mem_tracks htrack
    exact ⟨hmeasured, track.kind, by rw [hnames, ← h.layout_eq]; exact mem_layout hmem, haccepts⟩
  · obtain ⟨_, hspan, track, hmem, hnames, _, hfree⟩ := mem_clipsAt hsite hb
    rw [hspan]
    exact h.apart_of_free hlayout (hsite.mem_tracks hmem) hfree ha (htrack.trans hnames) (by simp)
  · exact absurd (congrArg Clip.id (eq_of_mem_clipsAt hapart ha hb htrack)) hid

/-! ## Splitting -/

theorem cutsCleanly_iff {span : Span Rat} {instant ε : Rat} :
    cutsCleanly span instant ε = true ↔ (span.start < instant ∧ instant < span.stop) ∧
      ε < instant - span.start ∧ ε < span.stop - instant := by
  simp [cutsCleanly, Span.strictlyContains, and_assoc]

theorem toCut_pairwise (hstep : t.InStep) (hlinks : ∀ clip ∈ t.clips, ∀ partner ∈ t.clips,
      clip.link = some partner.id → partner.track ≠ clip.track) {id : ClipId} {instant : Rat}
    {clips : List (Clip Rat)} (hcut : t.toCut id instant ε = .ok clips) (hne : clips ≠ []) :
    clips.Pairwise fun a b => a.track ≠ b.track := by
  obtain ⟨clip, hclip, _, _, hclips⟩ := toCut_spec hstep hcut hne
  rcases hclips with ⟨_, rfl⟩ | ⟨partner, hpartner, hlink, _, rfl⟩
  · exact List.pairwise_singleton ..
  · simpa using (hlinks clip hclip partner hpartner hlink).symm

theorem clean_of_mem_ids (hstep : t.InStep) {clips : List (Clip Rat)} {instant : Rat}
    (hclean : ∀ clip ∈ clips, clip ∈ t.clips ∧ cutsCleanly clip.span instant ε = true)
    {clip : Clip Rat} (hclip : clip ∈ t.clips) (hid : clip.id ∈ clips.map Clip.id) :
    cutsCleanly clip.span instant ε = true := by
  obtain ⟨cut, hcut, heq⟩ := List.mem_map.1 hid
  obtain ⟨hin, hcuts⟩ := hclean cut hcut
  rwa [← hstep.eq_of_id_eq hin hclip heq]

theorem eq_of_mem_rightHalves {clips : List (Clip Rat)} {instant : Rat} {id partnerId : ClipId}
    (htracks : clips.Pairwise fun a b => a.track ≠ b.track) {a b : Clip Rat}
    (ha : a ∈ rightHalves clips instant id partnerId)
    (hb : b ∈ rightHalves clips instant id partnerId) (htrack : a.track = b.track) : a = b := by
  match clips, htracks, ha, hb with
  | [_], _, ha, hb => rw [List.mem_singleton.1 ha, List.mem_singleton.1 hb]
  | clip :: partner :: _, htracks, ha, hb =>
      have hne : clip.track ≠ partner.track := List.rel_of_pairwise_cons htracks List.mem_cons_self
      simp only [rightHalves, List.mem_cons, List.not_mem_nil, or_false] at ha hb
      rcases ha with rfl | rfl <;> rcases hb with rfl | rfl
      · rfl
      · exact absurd htrack hne
      · exact absurd htrack.symm hne
      · rfl

theorem cutShort_within {ids : List ClipId} {instant : Rat} {clip : Clip Rat}
    (hclean : clip.id ∈ ids → cutsCleanly clip.span instant ε = true) :
    clip.span.start ≤ (cutShort ids instant clip).span.start ∧
      (cutShort ids instant clip).span.stop ≤ clip.span.stop := by
  unfold cutShort
  split
  · rename_i hid
    have hcuts := cutsCleanly_iff.1 (hclean hid)
    exact ⟨le_refl _, le_of_lt hcuts.1.2⟩
  · exact ⟨le_refl _, le_refl _⟩

theorem cutShort_measured {ids : List ClipId} {instant : Rat} {clip : Clip Rat}
    (hclean : clip.id ∈ ids → cutsCleanly clip.span instant ε = true) (h : clip.Measured ε) :
    (cutShort ids instant clip).Measured ε := by
  unfold cutShort
  split
  · rename_i hid
    have hcuts := cutsCleanly_iff.1 (hclean hid)
    exact { h with long := hcuts.2.1 }
  · exact h

theorem rightHalf_measured {instant : Rat} {clip : Clip Rat}
    (hclean : cutsCleanly clip.span instant ε = true) (h : clip.Measured ε) (id : ClipId)
    (link : Option ClipId) : ({ rightHalf clip instant id with link } : Clip Rat).Measured ε := by
  have hcuts := cutsCleanly_iff.1 hclean
  have hplayed := mul_pos (sub_pos.2 hcuts.1.1) h.speed_pos
  exact ⟨hcuts.2.2, le_trans h.start_nonneg (le_of_lt hcuts.1.1),
    add_nonneg h.offset_nonneg (le_of_lt hplayed), h.speed_pos, h.volume_nonneg⟩

theorem rightHalf_within {clips : List (Clip Rat)} {instant : Rat} {id partnerId : ClipId}
    (hclean : ∀ clip ∈ clips, clip ∈ t.clips ∧ cutsCleanly clip.span instant ε = true)
    {half : Clip Rat} (hhalf : half ∈ rightHalves clips instant id partnerId) :
    ∃ clip ∈ clips, clip ∈ t.clips ∧ half.track = clip.track ∧ half.start = instant ∧
      clip.span.start ≤ half.span.start ∧ half.span.stop ≤ clip.span.stop := by
  obtain ⟨clip, hclip, heq⟩ := mem_rightHalves hhalf
  obtain ⟨hin, hcuts⟩ := hclean clip hclip
  have hcuts := cutsCleanly_iff.1 hcuts
  refine ⟨clip, hclip, hin, ?_, ?_, ?_, ?_⟩ <;> rw [heq]
  · rfl
  · rfl
  · exact le_of_lt hcuts.1.1
  · exact le_refl _

/-- A right half is apart from its left half, and from what its clip was apart from. -/
theorem cutShort_apart_rightHalf (hstep : t.InStep) (hε : 0 ≤ ε) {clips : List (Clip Rat)}
    {instant : Rat} {id partnerId : ClipId}
    (hclean : ∀ clip ∈ clips, clip ∈ t.clips ∧ cutsCleanly clip.span instant ε = true)
    {clip half : Clip Rat} (hclip : clip ∈ t.clips)
    (hhalf : half ∈ rightHalves clips instant id partnerId)
    (hfree : ∀ other ∈ t.clips, other.track = half.track → clip.id ≠ other.id →
      clip.span.overlaps other.span ε = false) :
    (cutShort (clips.map Clip.id) instant clip).span.overlaps half.span ε = false := by
  obtain ⟨source, hsource, hin, htrack, hstart, hspan⟩ := rightHalf_within hclean hhalf
  by_cases hid : clip.id = source.id
  · -- The left half ends where the right one starts.
    obtain rfl := hstep.eq_of_id_eq hclip hin hid
    rw [Span.overlaps_eq_false_iff]
    right
    have hcutId : clip.id ∈ clips.map Clip.id := List.mem_map_of_mem hsource
    simp only [cutShort, hcutId, if_true, Clip.span, hstart]
    linarith
  · exact Span.overlaps_eq_false_of_within (hfree source hin htrack.symm hid)
      (cutShort_within (clean_of_mem_ids hstep hclean hclip)) hspan

theorem split_valid (hstep : t.InStep) (h : t.Valid ε layout) (hε : 0 ≤ ε) {id : ClipId}
    {instant : Rat} {rights : List ClipId}
    (hsplit : t.split id instant ε ids = (.ok (some (rights, next)), left)) :
    next.Valid ε layout := by
  have hpaired := split_paired hstep h.paired hsplit
  obtain ⟨clips, hcut, hne, hrevision, _⟩ := split_revision hstep hsplit
  have hclean := toCut_clean hstep hcut hne
  have htracks := toCut_pairwise hstep
    (fun _ hclip _ hpartner => h.paired.track_ne hstep hclip hpartner) hcut hne
  have hown {clip : Clip Rat} (hclip : clip ∈ t.clips) := clean_of_mem_ids hstep hclean hclip
  refine hrevision.valid h (fun clip => (cutShort_continues _ _ clip).1) hpaired ?_ ?_ ?_ ?_ ?_
  · exact fun clip hclip => cutShort_measured (hown hclip) (h.measured clip hclip)
  · intro half hmem
    obtain ⟨clip, hclip, heq⟩ := mem_rightHalves hmem
    obtain ⟨hin, hcuts⟩ := hclean clip hclip
    rw [heq]
    exact ⟨rightHalf_measured hcuts (h.measured clip hin) _ _, h.suits clip hin⟩
  · intro a ha b hb htrack hid
    exact Span.overlaps_eq_false_of_within (h.apart a ha b hb htrack hid)
      (cutShort_within (hown ha)) (cutShort_within (hown hb))
  · intro a ha _ half hmem htrack
    exact cutShort_apart_rightHalf hstep hε hclean ha hmem fun other hother hsame =>
      h.apart a ha other hother (htrack.trans hsame.symm)
  · intro a ha b hb htrack hid
    exact absurd (congrArg Clip.id (eq_of_mem_rightHalves htracks ha hb htrack)) hid

/-! ## Merging -/

/-- A plan that fits the layout: its merged clip suits its track, and starts where a clip did. -/
def PlannedOn (layout : List (TrackId × TrackKind)) (plan : MergePlan Rat) : Prop :=
  (plan.track, plan.kind) ∈ layout ∧ ∃ planned ∈ plan.clips, planned.start = plan.origin

theorem Valid.plannedOn (h : t.Valid ε layout) {plan : MergePlan Rat} (hplan : t.PlanOf plan) :
    PlannedOn layout plan := by
  obtain ⟨track, htrack, hid, hkind⟩ := hplan.onTrack
  refine ⟨?_, hplan.origin_mem⟩
  rw [← hid, ← hkind, ← h.layout_eq]
  exact mem_layout htrack

theorem applyMerge_valid (hstep : t.InStep) (h : t.Valid settings.tolerance layout)
    (hlayout : (layout.map Prod.fst).Nodup) {plan : MergePlan Rat} (hplan : PlannedOn layout plan)
    {asset : Asset Rat} {merged : ClipId} (hpaired : next.Paired Seat.Apart)
    (hmerge : t.applyMerge plan asset settings ids = (.ok (merged, next), left)) :
    next.Valid settings.tolerance layout := by
  obtain ⟨hcheck, hrevision, _⟩ := applyMerge_revision hstep hmerge
  obtain ⟨hlong, hcurrent, track, htrack, hfree⟩ := checkMerge_spec hcheck
  have hmem : track ∈ t.tracks := List.mem_of_find?_eq_some htrack
  have hid : track.id = plan.track := by simpa using List.find?_some htrack
  -- The clip that the merge starts with still starts there, so not before zero.
  have horigin : 0 ≤ plan.origin := by
    obtain ⟨planned, hplanned, hstart⟩ := hplan.2
    obtain ⟨current, hfound, _, hsame, _⟩ := checkCurrent_spec (hcurrent planned hplanned)
    have hnonneg := (h.measured current (hstep.clip?_eq_some_iff.1 hfound).1).start_nonneg
    have heq : current.start = planned.start := by
      simp only [Span.same, Clip.span, Bool.and_eq_true, beq_iff_eq] at hsame
      exact hsame.1
    rwa [heq, hstart] at hnonneg
  refine hrevision.valid h .refl hpaired h.measured ?_ h.apart ?_ ?_
  · intro clip hclip
    obtain rfl := List.mem_singleton.1 hclip
    refine ⟨⟨?_, horigin, le_refl 0, zero_lt_one, zero_le_one⟩, plan.kind, hplan.1, by
      simp [mergedClip, Clip.ofAsset, TrackKind.accepts]⟩
    simp only [Clip.duration, mergedClip, Clip.ofAsset]
    linarith
  · intro a ha hkeep b hb hnames
    obtain rfl := List.mem_singleton.1 hb
    exact h.apart_of_free hlayout hmem hfree ha (hnames.trans hid.symm) (by simpa using hkeep)
  · intro a ha b hb _ hne
    rw [List.mem_singleton.1 ha, List.mem_singleton.1 hb] at hne
    exact absurd rfl hne

/-! ## Edits -/

theorem Edit.valid (hedit : t.Edit settings (PlannedOn layout) ids next left) (hstep : t.InStep)
    (h : t.Valid settings.tolerance layout) (hlayout : (layout.map Prod.fst).Nodup)
    (hε : 0 ≤ settings.tolerance) : next.Valid settings.tolerance layout := by
  have hpaired : next.Paired Seat.Apart := hedit.paired hstep h.paired fun hsite =>
    seatsPairs_of_apart (hsite.apart (h.nodup_track_ids hlayout))
  cases hedit with
  | place hplace => exact place_valid hstep h hlayout hplace
  | split hsplit => exact split_valid hstep h hε hsplit
  | delete hdelete _ =>
      obtain ⟨_, _, _, hrevision⟩ := delete_revision hstep hdelete
      exact hrevision.valid_of_span_eq h .refl hpaired h.measured fun _ => rfl
  | setVolume hset _ =>
      obtain ⟨hvolume, hrevision⟩ := setVolume_revision hstep hset
      refine hrevision.valid_of_span_eq h (fun clip => (amend_volume_continues _ _ clip).1) hpaired
        (fun clip hclip => ?_) (amend_volume_span _ _)
      unfold amend
      split
      · exact { h.measured clip hclip with volume_nonneg := le_of_not_gt hvolume }
      · exact h.measured clip hclip
  | setSpeed hset _ =>
      obtain ⟨hspeed, _, _, _, hrevision⟩ := setSpeed_revision hstep hset
      refine hrevision.valid_of_span_eq h (fun clip => (retime_continues _ _ clip).1) hpaired
        (fun clip hclip => ?_) (retime_span _ _)
      unfold retime
      split
      · exact { h.measured clip hclip with speed_pos := lt_of_not_ge hspeed }
      · exact h.measured clip hclip
  | applyMerge hplan hmerge => exact applyMerge_valid hstep h hlayout hplan hpaired hmerge

/-! ## Releases -/

/-- A release keeps a timeline valid: the dragged clips were apart when they were taken hold of. -/
theorem release_valid {first : Timeline Rat} {drag : Drag Rat} {delta : Rat}
    (hlayout : (layout.map Prod.fst).Nodup) (hfirst : first.InStep)
    (hgood : first.Valid settings.tolerance layout) (hstep : t.InStep)
    (h : t.Valid settings.tolerance layout) (hheld : drag.HeldFrom first)
    (hpersist : Persist Resumes first t) (hrelease : drag.release t settings = .moved next delta) :
    next.Valid settings.tolerance layout := by
  have hpaired := release_paired hfirst hgood.paired hstep h.paired hheld hpersist hrelease
  obtain ⟨rfl, hchecks, hrevision⟩ := release_revision hstep (hheld.nodup_ids hfirst) hrelease
  obtain ⟨closed, hholds⟩ := hheld.holds hfirst
  have hdragged (clip : Clip Rat) (hclip : clip ∈ t.clips) (hid : clip.id ∈ closed) :
      ∃ old ∈ first.clips, old.id ∈ closed ∧ clip.id = old.id ∧ clip.Continues old := by
    obtain ⟨old, hold, hoid, _⟩ := hholds.exists_old hfirst hid
    exact ⟨old, hold, hoid ▸ hid, hoid.symm, (hpersist old hold clip hclip hoid.symm).1⟩
  have hmixed (a : Clip Rat) (ha : a ∈ t.clips) (hin : a.id ∈ closed) (b : Clip Rat)
      (hb : b ∈ t.clips) (hout : b.id ∉ closed) (htrack : a.track = b.track) :
      (dropped drag.held drag.feasibleDelta a).span.overlaps b.span settings.tolerance = false := by
    obtain ⟨old, hold, hin, hid, hcontinues⟩ := hdragged a ha hin
    obtain ⟨_, track, htrackFound, _, hfree⟩ :=
      checkHeld_spec (hchecks _ ((hholds.mem_held _).2 ⟨old, hold, hin, rfl⟩))
    have hnames : b.track = track.id := by
      have hid : track.id = old.track := by simpa using List.find?_some htrackFound
      rw [← htrack, hcontinues.track_eq, hid]
    have hnot : b.id ∉ drag.ids := mt (hholds.mem_ids b.id).1 hout
    rw [hholds.span_moved _ hold hin hid, Span.overlaps_comm]
    exact h.apart_of_free hlayout (List.mem_of_find?_eq_some htrackFound) hfree hb hnames hnot
  refine hrevision.valid h (dropped_continues _ _) hpaired ?_ (by simp) ?_ (by simp) (by simp)
  · intro clip hclip
    by_cases hid : clip.id ∈ closed
    · obtain ⟨old, hold, hin, hoid, _⟩ := hdragged clip hclip hid
      have hlong := (hgood.measured old hold).long
      have hstart := Drag.feasible_start ((hholds.mem_held _).2 ⟨old, hold, hin, rfl⟩)
      rw [hholds.moved _ old hold clip hin hoid]
      have hmeasured := h.measured clip hclip
      refine ⟨?_, hstart, hmeasured.offset_nonneg, hmeasured.speed_pos, hmeasured.volume_nonneg⟩
      unfold Clip.duration at hlong ⊢
      linarith
    · rw [hholds.left _ clip hid]
      exact h.measured clip hclip
  · intro a ha b hb htrack hne
    by_cases hina : a.id ∈ closed
    · by_cases hinb : b.id ∈ closed
      · obtain ⟨old, hold, hina, hid, hcontinues⟩ := hdragged a ha hina
        obtain ⟨other, hother, hinb, hotherId, hotherContinues⟩ := hdragged b hb hinb
        have hfree : old.span.overlaps other.span settings.tolerance = false := by
          refine hgood.apart old hold other hother ?_ ?_
          · rw [← hcontinues.track_eq, htrack, hotherContinues.track_eq]
          · rwa [← hid, ← hotherId]
        rw [hholds.span_moved _ hold hina hid, hholds.span_moved _ hother hinb hotherId]
        exact Span.overlaps_shift drag.feasibleDelta hfree
      · rw [hholds.left _ b hinb]
        exact hmixed a ha hina b hb hinb htrack
    · rw [hholds.left _ a hina]
      by_cases hinb : b.id ∈ closed
      · rw [Span.overlaps_comm]
        exact hmixed b hb hinb a ha hina htrack.symm
      · rw [hholds.left _ b hinb]
        exact h.apart a ha b hb htrack hne

end Timeline

end Montage
