import Montage.Proofs.Reachability

/-!
# Additive clicks toggle link groups

Where all links lead to clips that link back, a closed selection holds the whole group of a clip, or
nothing of it. An additive click therefore puts the group in or takes it out, and nothing else, and a
second one on any clip of the group undoes it.
-/

namespace Montage.Timeline

variable {α : Type} {t : Timeline α} {selection group : ClipSet} {clip : ClipId}

/-! ## Groups -/

/-- Links lead to clips that link back; a clip may be its own partner. -/
def LinksReturn (t : Timeline α) : Prop :=
  ∀ id clip, t.clip? id = some clip → ∀ link, clip.link = some link →
    ∃ partner, t.clip? link = some partner ∧ partner.link = some id

theorem LinksReturn.linkClosure_ok (h : t.LinksReturn) (seeds : List ClipId) :
    ∃ closed, t.linkClosure seeds = .ok closed := by
  have hstay : t.LinksStay fun _ => True := by
    intro id clip _ hclip link hlink
    obtain ⟨partner, hpartner, _⟩ := h id clip hclip link hlink
    exact ⟨trivial, by rw [hpartner]; rfl⟩
  exact hstay.linkClosure_ok fun _ _ => trivial

/-- A closed set that holds one end of a link holds the other. -/
theorem LinkClosed.mem_iff_of_reachable (h : t.LinkClosed selection) (hown : t.FindsById)
    (hreturn : t.LinksReturn) {id : ClipId} (hreach : t.Reachable [clip] id) :
    id ∈ selection ↔ clip ∈ selection := by
  induction hreach with
  | seed hid hfound => rw [hown _ _ hfound, List.mem_singleton.1 hid]
  | @link id found next partner _ hfound hlink hpartner ih =>
      rw [hown _ _ hpartner, ← ih]
      obtain ⟨other, hother, hback⟩ := hreturn id found hfound next hlink
      exact ⟨fun hnext => (h.linksStay next other hnext hother id hback).1,
        fun hid => (h.linksStay id found hid hfound next hlink).1⟩

/-- Every clip of a group has that group. -/
theorem linkClosure_of_mem (hown : t.FindsById) (hreturn : t.LinksReturn)
    (hgroup : t.linkClosure [clip] = .ok group) {member : ClipId} (hmember : member ∈ group) :
    t.linkClosure [member] = .ok group := by
  obtain ⟨closed, hclosure⟩ := hreturn.linkClosure_ok [member]
  obtain ⟨hclosed, hseeds⟩ := linkClosure_collected hown hclosure
  have hwhole := (linkClosure_collected hown hgroup).1
  have hreach := mem_linkClosure_iff hown hgroup
  have hclip : clip ∈ closed :=
    (hclosed.mem_iff_of_reachable hown hreturn ((hreach member).1 hmember)).1
      (hseeds member (List.mem_singleton_self _) (hwhole.isSome hmember))
  refine hwhole.linkClosure_eq hown (by simpa using hmember) fun id hid => ?_
  rw [← mem_linkClosure_iff hown hclosure]
  exact (hclosed.mem_iff_of_reachable hown hreturn ((hreach id).1 hid)).2 hclip

/-! ## Toggling -/

/-- The selection without the group of a clip if the clip is selected, and with it if it is not. -/
def toggled (selection group : ClipSet) (clip : ClipId) : ClipSet :=
  if clip ∈ selection then selection \ group else selection ∪ group

theorem LinkClosed.toggled (h : t.LinkClosed selection) (hown : t.FindsById)
    (hreturn : t.LinksReturn) (hgroup : t.linkClosure [clip] = .ok group) :
    t.LinkClosed (toggled selection group clip) := by
  have hclosed := (linkClosure_collected hown hgroup).1
  intro id hid
  unfold Timeline.toggled at hid ⊢
  split at hid
  · obtain ⟨hselected, hout⟩ := Std.ExtTreeSet.mem_diff_iff.1 hid
    obtain ⟨found, hfound, hlinks⟩ := h id hselected
    refine ⟨found, hfound, fun link hlink => ?_⟩
    rw [if_pos ‹_›]
    refine Std.ExtTreeSet.mem_diff_iff.2 ⟨hlinks link hlink, fun hin => hout ?_⟩
    -- The link leads back, so that the clip would be in the group as well.
    obtain ⟨partner, hpartner, hback⟩ := hreturn id found hfound link hlink
    exact (hclosed.linksStay link partner hin hpartner id hback).1
  · rw [if_neg ‹_›]
    rcases Std.ExtTreeSet.mem_union_iff.1 hid with hselected | hin
    · obtain ⟨found, hfound, hlinks⟩ := h id hselected
      exact ⟨found, hfound, fun link hlink =>
        Std.ExtTreeSet.mem_union_iff.2 (.inl (hlinks link hlink))⟩
    · obtain ⟨found, hfound, hlinks⟩ := hclosed id hin
      exact ⟨found, hfound, fun link hlink =>
        Std.ExtTreeSet.mem_union_iff.2 (.inr (hlinks link hlink))⟩

/-- An additive click closes the toggled selection, and that is closed already. -/
theorem select_additive (h : t.LinkClosed selection) (hown : t.FindsById)
    (hreturn : t.LinksReturn) (hclip : (t.clip? clip).isSome)
    (hgroup : t.linkClosure [clip] = .ok group) :
    t.select selection clip true = .ok (toggled selection group clip) := by
  have hclosed := h.toggled hown hreturn hgroup
  unfold select
  simp only [Option.isNone_eq_false_iff.2 hclip, Bool.false_eq_true, if_false, Bool.not_true]
  unfold Timeline.toggled at hclosed ⊢
  by_cases hselected : clip ∈ selection
  · rw [if_pos hselected] at hclosed ⊢
    rw [if_pos (Std.ExtTreeSet.mem_iff_contains.1 hselected), hgroup]
    have hmem (id : ClipId) : id ∈ selection.toList.filter (fun id => !group.contains id) ↔
        id ∈ selection \ group := by
      rw [List.mem_filter, Std.ExtTreeSet.mem_toList, Std.ExtTreeSet.mem_diff_iff,
        Bool.not_eq_true', ← Bool.not_eq_true, ← Std.ExtTreeSet.mem_iff_contains]
    refine hclosed.linkClosure_eq hown (fun id hid => (hmem id).1 hid) fun id hid => ?_
    exact reachable_of_mem hown ((hmem id).2 hid) (hclosed.isSome hid)
  · rw [if_neg hselected] at hclosed ⊢
    rw [if_neg fun hcontains => hselected (Std.ExtTreeSet.mem_iff_contains.2 hcontains)]
    have hreach := mem_linkClosure_iff hown hgroup
    refine hclosed.linkClosure_eq hown (fun id hid => ?_) fun id hid => ?_
    · rw [List.mem_append, Std.ExtTreeSet.mem_toList, List.mem_singleton] at hid
      refine Std.ExtTreeSet.mem_union_iff.2 (hid.imp_right fun heq => ?_)
      rw [heq, hreach]
      exact reachable_of_mem hown (List.mem_singleton_self _) hclip
    · rcases Std.ExtTreeSet.mem_union_iff.1 hid with hold | hin
      · exact reachable_of_mem hown (List.mem_append_left _ (Std.ExtTreeSet.mem_toList.2 hold))
          (h.isSome hold)
      · exact ((hreach id).1 hin).of_seeds fun _ hmem _ => List.mem_append_right _ hmem

/-- Toggling a group twice, by whichever of its clips, leaves the selection as it was. -/
theorem toggled_toggled (h : t.LinkClosed selection) (hown : t.FindsById)
    (hreturn : t.LinksReturn) (hgroup : t.linkClosure [clip] = .ok group) {member : ClipId}
    (hmember : member ∈ group) : toggled (toggled selection group clip) group member = selection := by
  have hreach := mem_linkClosure_iff hown hgroup
  have hwhole {id : ClipId} (hid : id ∈ group) : id ∈ selection ↔ clip ∈ selection :=
    h.mem_iff_of_reachable hown hreturn ((hreach id).1 hid)
  refine Std.ExtTreeSet.ext_mem fun id => ?_
  unfold toggled
  by_cases hselected : clip ∈ selection
  · rw [if_pos hselected, if_neg fun hin => (Std.ExtTreeSet.mem_diff_iff.1 hin).2 hmember,
      Std.ExtTreeSet.mem_union_iff, Std.ExtTreeSet.mem_diff_iff]
    by_cases hid : id ∈ group
    · simp [hid, (hwhole hid).2 hselected]
    · simp [hid]
  · rw [if_neg hselected, if_pos (Std.ExtTreeSet.mem_union_iff.2 (.inr hmember)),
      Std.ExtTreeSet.mem_diff_iff, Std.ExtTreeSet.mem_union_iff]
    by_cases hid : id ∈ group
    · simp [hid, mt (hwhole hid).1 hselected]
    · simp [hid]

/--
Where links lead to clips that link back: a plain click selects the group of a clip, whatever was
selected. An additive click puts the group into a closed selection or takes it out, which leaves the
selection closed, and another on any clip of the group brings the selection back.
-/
theorem select_toggles [Scalar α] (t : Timeline α) (hmade : t.Made) (hreturn : t.LinksReturn)
    (selection : ClipSet) (hselection : t.LinkClosed selection) (clip : ClipId)
    (hclip : (t.clip? clip).isSome) :
    ∃ group next, t.linkClosure [clip] = .ok group ∧
      (∀ before, t.select before clip false = .ok group) ∧
      t.select selection clip true = .ok next ∧
      (clip ∉ selection → next = selection ∪ group) ∧
      (clip ∈ selection → next = selection \ group) ∧ t.LinkClosed next ∧
      ∀ member ∈ group, t.select next member true = .ok selection := by
  have hown := hmade.truthful.findsById
  obtain ⟨group, hgroup⟩ := hreturn.linkClosure_ok [clip]
  have hnext := hselection.toggled hown hreturn hgroup
  refine ⟨group, toggled selection group clip, hgroup, fun before => ?_,
    select_additive hselection hown hreturn hclip hgroup, fun hnew => if_neg hnew,
    fun hselected => if_pos hselected, hnext, fun member hmember => ?_⟩
  · unfold select
    simp only [Option.isNone_eq_false_iff.2 hclip, Bool.false_eq_true, if_false, Bool.not_false,
      if_true]
    exact hgroup
  · have hfound := (linkClosure_collected hown hgroup).1.isSome hmember
    have hsame := linkClosure_of_mem hown hreturn hgroup hmember
    rw [select_additive hnext hown hreturn hfound hsame,
      toggled_toggled hselection hown hreturn hgroup hmember]

theorem InStep.linksReturn (h : t.InStep)
    (hlinks : ∀ clip ∈ t.clips, ∀ link ∈ clip.link, ∃ partner ∈ t.clips,
      partner.id = link ∧ partner.link = some clip.id) : t.LinksReturn := by
  intro id clip hclip link hlink
  obtain ⟨hmem, rfl⟩ := h.clip?_eq_some_iff.1 hclip
  obtain ⟨partner, hpartner, hid, hback⟩ := hlinks clip hmem link hlink
  exact ⟨partner, h.clip?_eq_some_iff.2 ⟨hpartner, hid⟩, hback⟩

/-- A picture with its sound, a sound that is its own partner, and one that has none. -/
def partneredTracks : List (Track Rat) :=
  [⟨"video-1", .video, [⟨"v", "video-1", "media/v.mp4", 0, 4, 0, .video, 1, 1, 0, some "s"⟩]⟩,
    ⟨"av-1", .av,
      [⟨"s", "av-1", "media/v.mp4", 0, 4, 0, .audio, 1, 1, 0, some "v"⟩,
        ⟨"m", "av-1", "media/m.wav", 5, 6, 0, .audio, 1, 1, 0, some "m"⟩,
        ⟨"x", "av-1", "media/x.wav", 7, 8, 0, .audio, 1, 1, 0, none⟩]⟩]

/-- A click on the picture takes it out with its sound, and a click on either brings both back. -/
theorem select_toggles_partnered :
    let t := ofTracks "p" partneredTracks
    t.Made ∧ t.LinksReturn ∧ (t.clip? "v").isSome ∧ ∃ selection group next : ClipSet,
      selection.toList = ["m", "s", "v"] ∧ group.toList = ["s", "v"] ∧ t.LinkClosed selection ∧
      t.linkClosure ["v"] = .ok group ∧ (∀ before, t.select before "v" false = .ok group) ∧
      t.select selection "v" true = .ok next ∧ next = selection \ group ∧ t.LinkClosed next ∧
      ∀ member ∈ group, t.select next member true = .ok selection := by
  intro t
  have hmade : t.Made := made_of_index_eq rfl
  have hreturn : t.LinksReturn := by
    refine (inStep_of_index_eq rfl (by decide +kernel)).linksReturn ?_
    decide +kernel
  have hclip : (t.clip? "v").isSome := by decide +kernel
  have hlists : (t.linkClosure ["v", "m"]).toOption.map Std.ExtTreeSet.toList =
      some ["m", "s", "v"] := by decide +kernel
  have hgroupList : (t.linkClosure ["v"]).toOption.map Std.ExtTreeSet.toList =
      some ["s", "v"] := by decide +kernel
  obtain ⟨selection, hselection⟩ := hreturn.linkClosure_ok ["v", "m"]
  have hclosed := (linkClosure_collected hmade.truthful.findsById hselection).1
  rw [hselection] at hlists
  have hlist : selection.toList = ["m", "s", "v"] := Option.some.inj hlists
  obtain ⟨group, next, hgroup, hplain, hnext, _, hout, hnextClosed, hback⟩ :=
    select_toggles t hmade hreturn selection hclosed "v" hclip
  rw [hgroup] at hgroupList
  have hmem : "v" ∈ selection := by
    rw [← Std.ExtTreeSet.mem_toList, hlist]
    simp
  exact ⟨hmade, hreturn, hclip, selection, group, next, hlist, Option.some.inj hgroupList, hclosed,
    hgroup, hplain, hnext, hout hmem, hnextClosed, hback⟩

end Montage.Timeline
