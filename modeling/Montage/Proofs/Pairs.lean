import Montage.Proofs.Runs

/-!
# Linked pairs

The partner of a linked clip links back to it and plays the same stretch of its source at the same
time. Every edit treats the two alike, and so does a release, for a drag that holds a clip holds its
partner. What a pair plays and on which tracks it stands never changes: it is a parameter here.
-/

namespace Montage

variable {α : Type}

/-! ## Pairs -/

/-- What a clip plays, and on which track. -/
structure Seat where
  track : TrackId
  source : String
  medium : Medium

def Clip.seat (clip : Clip α) : Seat :=
  ⟨clip.track, clip.source, clip.medium⟩

theorem Clip.Continues.seat_eq {clip old : Clip α} (h : clip.Continues old) :
    clip.seat = old.seat := by
  simp [Clip.seat, h.track_eq, h.source_eq, h.medium_eq]

/-- The clip links back to the other, plays when it does, and their seats belong together. -/
structure Clip.Mirrors (Kin : Seat → Seat → Prop) (partner clip : Clip α) : Prop where
  link_eq : partner.link = some clip.id
  start_eq : partner.start = clip.start
  stop_eq : partner.stop = clip.stop
  offset_eq : partner.offset = clip.offset
  speed_eq : partner.speed = clip.speed
  kin : Kin partner.seat clip.seat

namespace Timeline

variable {Kin : Seat → Seat → Prop} {t next : Timeline α}

/-- The link of every clip leads to a clip that mirrors it. -/
def Paired (Kin : Seat → Seat → Prop) (t : Timeline α) : Prop :=
  ∀ clip ∈ t.clips, ∀ link, clip.link = some link →
    ∃ partner ∈ t.clips, partner.id = link ∧ partner.Mirrors Kin clip

/-- The ids of the list link to ids of the list. -/
def KeepsLinks (t : Timeline α) (ids : List ClipId) : Prop :=
  ∀ clip ∈ t.clips, clip.id ∈ ids → ∀ link, clip.link = some link → link ∈ ids

/-- Of a pair, both clips or none is in a list that keeps links. -/
theorem KeepsLinks.mem_iff {ids : List ClipId} (h : t.KeepsLinks ids) {clip partner : Clip α}
    (hclip : clip ∈ t.clips) (hpartner : partner ∈ t.clips) (hlink : clip.link = some partner.id)
    (hmirrors : partner.Mirrors Kin clip) : partner.id ∈ ids ↔ clip.id ∈ ids :=
  ⟨fun hid => h partner hpartner hid _ hmirrors.link_eq, fun hid => h clip hclip hid _ hlink⟩

theorem LinkClosed.keepsLinks (hstep : t.InStep) {closed : ClipSet} (h : t.LinkClosed closed)
    {ids : List ClipId} (hids : ∀ id, id ∈ ids ↔ id ∈ closed) : t.KeepsLinks ids := by
  intro clip hclip hid link hlink
  obtain ⟨found, hfound, hlinks⟩ := h clip.id ((hids _).1 hid)
  rw [hstep.clip?_id hclip] at hfound
  cases hfound
  exact (hids link).2 (hlinks link hlink)

theorem Paired.keepsLinks (h : t.Paired Kin) (hstep : t.InStep) {clip : Clip α}
    (hclip : clip ∈ t.clips) : t.KeepsLinks (clip.id :: clip.link.toList) := by
  intro other hother hid link hlink
  rcases List.mem_cons.1 hid with hid | hid
  · rw [hstep.eq_of_id_eq hother hclip hid] at hlink
    simp [hlink]
  · obtain ⟨partner, hpartner, hpartnerId, hmirrors⟩ :=
      h clip hclip other.id (Option.mem_toList.1 hid)
    rw [hstep.eq_of_id_eq hpartner hother hpartnerId] at hmirrors
    have hback := hmirrors.link_eq
    rw [hlink] at hback
    simp [Option.some.inj hback]

/-! ## Revisions of pairs -/

/-- A revision that treats both clips of a pair alike leaves pairs, if new clips come in pairs. -/
theorem Revision.paired {keep : Clip α → Bool} {alter : Clip α → Clip α} {new : List (Clip α)}
    (hrevision : t.Revision keep alter new next) (h : t.Paired Kin)
    (halter : ∀ clip, (alter clip).Continues clip)
    (halike : ∀ clip ∈ t.clips, ∀ partner ∈ t.clips, clip.link = some partner.id →
      partner.Mirrors Kin clip → keep clip = true →
        keep partner = true ∧ (alter partner).start = (alter clip).start ∧
          (alter partner).stop = (alter clip).stop ∧ (alter partner).speed = (alter clip).speed)
    (hnew : ∀ clip ∈ new, ∀ link, clip.link = some link →
      ∃ partner ∈ new, partner.id = link ∧ partner.Mirrors Kin clip) :
    next.Paired Kin := by
  intro clip hclip link hlink
  rcases hrevision.mem_clips.1 hclip with ⟨old, hold, hkeep, rfl⟩ | hclip
  · rw [(halter old).link_eq] at hlink
    obtain ⟨partner, hpartner, rfl, hmirrors⟩ := h old hold link hlink
    obtain ⟨hkept, hstart, hstop, hspeed⟩ := halike old hold partner hpartner hlink hmirrors hkeep
    refine ⟨alter partner, hrevision.mem_clips.2 (.inl ⟨partner, hpartner, hkept, rfl⟩),
      (halter partner).id_eq, ?_, hstart, hstop, ?_, hspeed, ?_⟩
    · rw [(halter partner).link_eq, (halter old).id_eq, hmirrors.link_eq]
    · rw [(halter partner).offset_eq, (halter old).offset_eq, hmirrors.offset_eq]
    · rw [(halter partner).seat_eq, (halter old).seat_eq]
      exact hmirrors.kin
  · obtain ⟨partner, hpartner, hid, hmirrors⟩ := hnew clip hclip link hlink
    exact ⟨partner, hrevision.mem_clips.2 (.inr hpartner), hid, hmirrors⟩

theorem Revision.paired_of_dropped {ids : List ClipId} {new : List (Clip α)}
    (hrevision : t.Revision (·.id ∉ ids) (fun clip => clip) new next) (h : t.Paired Kin)
    (hids : t.KeepsLinks ids) (hnew : ∀ clip ∈ new, clip.link = none) : next.Paired Kin := by
  refine hrevision.paired h .refl (fun clip hclip partner hpartner hlink hmirrors hkeep => ?_)
    fun clip hclip link hlink => ?_
  · refine ⟨?_, hmirrors.start_eq, hmirrors.stop_eq, hmirrors.speed_eq⟩
    simpa [hids.mem_iff hclip hpartner hlink hmirrors] using hkeep
  · rw [hnew clip hclip] at hlink
    cases hlink

/-! ## Edits of pairs -/

variable [Scalar α] {settings : EditorSettings α} {Planned : MergePlan α → Prop}
  {ids left : IdSupply}

omit [Scalar α] in
/-- The seats that a site gives to a picture and its sound belong together. -/
def SeatsPairs (Kin : Seat → Seat → Prop) (site : Site α) : Prop :=
  ∀ track source, site.partner = some track →
    Kin ⟨track.id, source, .audio⟩ ⟨site.target.id, source, .video⟩ ∧
      Kin ⟨site.target.id, source, .video⟩ ⟨track.id, source, .audio⟩

theorem clipsAt_mirrors {asset : Asset α} {drop : Drop α} {site : Site α}
    (hsite : t.SiteFound asset drop settings site) (hseats : SeatsPairs Kin site)
    (mediaRoot : String) (id partnerId : ClipId) :
    ∀ clip ∈ clipsAt site asset mediaRoot id partnerId, ∀ link, clip.link = some link →
      ∃ partner ∈ clipsAt site asset mediaRoot id partnerId,
        partner.id = link ∧ partner.Mirrors Kin clip := by
  unfold clipsAt
  cases hpartner : site.partner with
  | none => simp [Clip.ofAsset]
  | some track =>
      obtain ⟨hmedium, _⟩ := hsite.partner_spec hpartner
      obtain ⟨hsound, hpicture⟩ := hseats track (asset.sourcePath mediaRoot) hpartner
      intro clip hclip link hlink
      simp only [List.mem_cons, List.not_mem_nil, or_false] at hclip
      rcases hclip with rfl | rfl
      · cases hlink
        exact ⟨_, List.mem_cons_of_mem _ List.mem_cons_self, rfl, rfl, rfl, rfl, rfl, rfl,
          hmedium ▸ hsound⟩
      · cases hlink
        exact ⟨_, List.mem_cons_self, rfl, rfl, rfl, rfl, rfl, rfl, hmedium ▸ hpicture⟩

theorem rightHalves_mirrors {clip partner : Clip α} (hto : partner.Mirrors Kin clip)
    (hback : clip.Mirrors Kin partner) (instant : α) (id partnerId : ClipId) :
    ∀ half ∈ rightHalves [clip, partner] instant id partnerId, ∀ link, half.link = some link →
      ∃ other ∈ rightHalves [clip, partner] instant id partnerId,
        other.id = link ∧ other.Mirrors Kin half := by
  have hoffset : partner.offsetAt instant = clip.offsetAt instant := by
    rw [Clip.offsetAt, Clip.offsetAt, hto.offset_eq, hto.start_eq, hto.speed_eq]
  intro half hhalf link hlink
  simp only [rightHalves, List.mem_cons, List.not_mem_nil, or_false] at hhalf
  rcases hhalf with rfl | rfl
  · cases hlink
    exact ⟨_, List.mem_cons_of_mem _ List.mem_cons_self, rfl, rfl, rfl, hto.stop_eq, hoffset,
      hto.speed_eq, hto.kin⟩
  · cases hlink
    exact ⟨_, List.mem_cons_self, rfl, rfl, rfl, hback.stop_eq, hoffset.symm, hback.speed_eq,
      hback.kin⟩

theorem split_paired (hstep : t.InStep) (h : t.Paired Kin) {id : ClipId} {instant ε : α}
    {rights : List ClipId} (hsplit : t.split id instant ε ids = (.ok (some (rights, next)), left)) :
    next.Paired Kin := by
  obtain ⟨clips, hcut, hne, hrevision, _⟩ := split_revision hstep hsplit
  obtain ⟨clip, hclip, _, _, hclips⟩ := toCut_spec hstep hcut hne
  -- What is cut keeps its links, for it is one clip without a link, or a pair.
  have hids : t.KeepsLinks (clips.map Clip.id) := by
    have hkeeps := h.keepsLinks hstep hclip
    rcases hclips with ⟨hnone, rfl⟩ | ⟨partner, _, hlink, _, rfl⟩
    · simpa [hnone] using hkeeps
    · simpa [hlink] using hkeeps
  refine hrevision.paired h (fun clip => (cutShort_continues _ _ clip).1)
    (fun clip hclip partner hpartner hlink hmirrors _ => ?_) ?_
  · have hboth := hids.mem_iff hclip hpartner hlink hmirrors
    by_cases hid : clip.id ∈ clips.map Clip.id
    · simp [cutShort, hid, hboth.2 hid, hmirrors.start_eq, hmirrors.speed_eq]
    · simp [cutShort, hid, mt hboth.1 hid, hmirrors.start_eq, hmirrors.stop_eq, hmirrors.speed_eq]
  · rcases hclips with ⟨_, rfl⟩ | ⟨partner, hpartner, hlink, _, rfl⟩
    · simp [rightHalves, rightHalf]
    · obtain ⟨found, hfound, hid, hto⟩ := h clip hclip partner.id hlink
      rw [hstep.eq_of_id_eq hfound hpartner hid] at hto
      obtain ⟨other, hother, hid, hback⟩ := h partner hpartner clip.id hto.link_eq
      rw [hstep.eq_of_id_eq hother hclip hid] at hback
      exact rightHalves_mirrors hto hback instant _ _

/-- Edits keep pairs, if the sites for pictures and their sound do. -/
theorem Edit.paired (hedit : t.Edit settings Planned ids next left) (hstep : t.InStep)
    (h : t.Paired Kin) (hseats : ∀ {asset : Asset α} {drop : Drop α} {site : Site α},
      t.SiteFound asset drop settings site → SeatsPairs Kin site) :
    next.Paired Kin := by
  cases hedit with
  | place hplace =>
      obtain ⟨site, hsite, hrevision, _⟩ := place_revision hstep hplace
      have hsite := findSite_spec hsite
      exact hrevision.paired h .refl
        (fun _ _ _ _ _ hmirrors _ => ⟨rfl, hmirrors.start_eq, hmirrors.stop_eq, hmirrors.speed_eq⟩)
        (clipsAt_mirrors hsite (hseats hsite) _ _ _)
  | split hsplit => exact split_paired hstep h hsplit
  | delete hdelete _ =>
      obtain ⟨closed, hclosure, _, hrevision⟩ := delete_revision hstep hdelete
      have hclosed := (linkClosure_collected hstep.findsById hclosure).1
      exact hrevision.paired_of_dropped h
        (hclosed.keepsLinks hstep fun _ => Std.ExtTreeSet.mem_toList) (by simp)
  | setVolume hset _ =>
      obtain ⟨_, hrevision⟩ := setVolume_revision hstep hset
      refine hrevision.paired h (fun clip => (amend_volume_continues _ _ clip).1)
        (fun clip _ partner _ _ hmirrors _ => ⟨rfl, ?_⟩) (by simp)
      unfold amend
      split <;> split <;> exact ⟨hmirrors.start_eq, hmirrors.stop_eq, hmirrors.speed_eq⟩
  | setSpeed hset _ =>
      obtain ⟨_, clip, hclip, _, hrevision⟩ := setSpeed_revision hstep hset
      have hids := h.keepsLinks hstep hclip
      refine hrevision.paired h (fun clip => (retime_continues _ _ clip).1)
        (fun clip hclip partner hpartner hlink hmirrors _ => ?_) (by simp)
      have hboth := hids.mem_iff hclip hpartner hlink hmirrors
      unfold retime
      split <;> split <;> simp_all [hmirrors.start_eq, hmirrors.stop_eq, hmirrors.speed_eq]
  | applyMerge _ hmerge =>
      obtain ⟨hcheck, hrevision, _⟩ := applyMerge_revision hstep hmerge
      refine hrevision.paired_of_dropped h (fun clip hclip hid link hlink => ?_)
        (by simp [mergedClip, Clip.ofAsset])
      -- A planned clip that is still current has no link.
      obtain ⟨planned, hplanned, hid⟩ := List.mem_map.1 hid
      obtain ⟨current, hcurrent, _, _, hnone⟩ :=
        checkCurrent_spec ((checkMerge_spec hcheck).2.1 planned hplanned)
      rw [hid, hstep.clip?_id hclip] at hcurrent
      cases hcurrent
      rw [hlink] at hnone
      cases hnone

/-- A release keeps pairs, for a pair stood at one place when it was taken hold of. -/
theorem release_paired {first : Timeline α} {drag : Drag α} {delta : α} (hfirst : first.InStep)
    (hfirstPaired : first.Paired Kin) (hstep : t.InStep) (h : t.Paired Kin)
    (hheld : drag.HeldFrom first) (hpersist : Persist Resumes first t)
    (hrelease : drag.release t settings = .moved next delta) : next.Paired Kin := by
  obtain ⟨_, _, hrevision⟩ := release_revision hstep (hheld.nodup_ids hfirst) hrelease
  obtain ⟨closed, hholds⟩ := hheld.holds hfirst
  have hkeeps : t.KeepsLinks drag.ids := by
    intro clip hclip hid link hlink
    obtain ⟨old, hold, hoid, hlinks⟩ := hholds.exists_old hfirst ((hholds.mem_ids _).1 hid)
    have hcontinues := (hpersist old hold clip hclip hoid.symm).1
    exact (hholds.mem_ids link).2 (hlinks link (hcontinues.link_eq ▸ hlink))
  refine hrevision.paired h (dropped_continues _ _)
    (fun clip hclip partner hpartner hlink hmirrors _ => ⟨rfl, ?_⟩) (by simp)
  have hboth := hkeeps.mem_iff hclip hpartner hlink hmirrors
  simp only [hholds.mem_ids] at hboth
  by_cases hid : clip.id ∈ closed
  · obtain ⟨old, hold, hoid, _⟩ := hholds.exists_old hfirst hid
    have hcontinues := (hpersist old hold clip hclip hoid.symm).1
    obtain ⟨oldPartner, holdPartner, hpid, holdMirrors⟩ :=
      hfirstPaired old hold partner.id (hcontinues.link_eq ▸ hlink)
    rw [hholds.moved delta old hold clip (hoid ▸ hid) hoid.symm,
      hholds.moved delta oldPartner holdPartner partner (hpid ▸ hboth.2 hid) hpid.symm]
    exact ⟨by rw [holdMirrors.start_eq], by rw [holdMirrors.stop_eq], hmirrors.speed_eq⟩
  · rw [hholds.left delta clip hid, hholds.left delta partner (mt hboth.1 hid)]
    exact ⟨hmirrors.start_eq, hmirrors.stop_eq, hmirrors.speed_eq⟩

end Timeline

end Montage
