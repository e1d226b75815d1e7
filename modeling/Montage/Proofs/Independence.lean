import Montage.Proofs.ClipEdits

/-!
# Merges and edits of other clips

While a merge waits for its rendering, other clips may be edited. It makes no difference whether the
merge is applied before or after such an edit: each takes names of its own for its clips, and puts
them at the ends of their tracks.
-/

namespace Montage

open Timeline

variable {t after edited next : Timeline Rat} {settings : EditorSettings Rat} {ε : Rat}
  {plan : MergePlan Rat} {asset : Asset Rat} {edit : ClipEdit Rat} {effect : Effect}
  {ids left : IdSupply}

namespace Timeline

/-! ## What the two have nothing to do with -/

/-- Neither the id of a planned clip nor the next name, which the merged clip gets. -/
def Unmerged (plan : MergePlan Rat) (ids : IdSupply) (id : ClipId) : Prop :=
  id ∉ plan.ids ∧ id ≠ ids.next

theorem next_mem_upcoming (ids : IdSupply) (count : Nat) : ids.next ∈ ids.upcoming (count + 1) :=
  IdSupply.mem_upcoming.2 ⟨ids.used, le_rfl, by omega, rfl⟩

/-- Planned clips are not linked, so that no link leads to one. -/
theorem PlanOf.linksStay (hplan : t.PlanOf plan) (hstep : t.InStep) (hsound : t.Sound ε)
    (hids : t.Unnamed ids) : t.LinksStay (Unmerged plan ids) := by
  intro id clip _ hclip link hlink
  obtain ⟨hmem, _⟩ := hstep.clip?_eq_some_iff.1 hclip
  obtain ⟨partner, hpartner, rfl, hback, _⟩ := hsound.links clip hmem link hlink
  have hfound := hstep.clip?_id hpartner
  refine ⟨⟨fun hin => ?_, hids.ne (next_mem_upcoming ids 0) hpartner⟩, by rw [hfound]; rfl⟩
  obtain ⟨planned, hplanned, hid⟩ := List.mem_map.1 hin
  obtain ⟨hcurrent, _, hnone⟩ := hplan.current planned hplanned
  rw [hid, hfound] at hcurrent
  cases hcurrent
  rw [hnone] at hback
  cases hback

theorem PlanOf.ne_of_mem_ids (hplan : t.PlanOf plan) (hstep : t.InStep) (hids : t.Unnamed ids)
    {count : Nat} {name : ClipId} (hname : name ∈ ids.upcoming count) : name ∉ plan.ids := by
  intro hin
  obtain ⟨planned, hplanned, rfl⟩ := List.mem_map.1 hin
  obtain ⟨hmem, _⟩ := hstep.clip?_eq_some_iff.1 (hplan.current planned hplanned).1
  exact hids.ne hname hmem rfl

/-! ## The edit after the merge -/

theorem clip?_of_merge (hstep : t.InStep)
    (hrevision : t.Revision (·.id ∉ plan.ids) (fun clip => clip)
      [mergedClip plan asset settings.mediaRoot ids.next] after) {id : ClipId}
    (hid : Unmerged plan ids id) : after.clip? id = t.clip? id := by
  refine hrevision.clip?_eq hstep (fun _ _ => rfl) (fun clip _ heq => ⟨?_, rfl⟩) fun clip hclip => ?_
  · simpa [heq] using hid.1
  · rw [List.mem_singleton.1 hclip]
    exact hid.2.symm

/-! ## The merge after the edit -/

theorem checkMerge_of (hduration : settings.tolerance < asset.duration)
    (hcurrent : ∀ planned ∈ plan.clips, t.checkCurrent planned = .ok ()) {track : Track Rat}
    (htrack : t.track? plan.track = some track)
    (hfree : track.overlapping (Span.ofLength plan.origin asset.duration) settings.tolerance
      plan.ids = []) : t.checkMerge plan asset settings = .ok () :=
  (checkMerge_eq_checkFree hduration hcurrent htrack).trans (checkFree_eq_ok_iff.2 hfree)

theorem applyMerge_ok (hstep : t.InStep) (hids : t.Unnamed ids) (hε : 0 ≤ settings.tolerance)
    (hcheck : t.checkMerge plan asset settings = .ok ()) :
    ∃ next, t.applyMerge plan asset settings ids = (.ok (ids.next, next), ids.skip 1) := by
  have hmerge := applyMerge_of_check hstep hids hcheck
  have hlong : ¬ plan.origin + asset.duration ≤ plan.origin := by
    have hduration := (checkMerge_spec hcheck).1
    linarith
  rw [if_neg hlong] at hmerge
  obtain ⟨next, hnext⟩ := hmerge
  refine ⟨next, ?_⟩
  rcases hresult : t.applyMerge plan asset settings ids with ⟨result, left⟩
  rw [hresult] at hnext
  obtain rfl : result = .ok (ids.next, next) := hnext
  rw [(applyMerge_revision hstep hresult).2.2.2]

end Timeline

namespace ClipEdit.Does

/-- What an edit leaves on a track takes no more of it than what was there. -/
theorem overlapping_eq_nil (h : edit.Does t ε effect) (hstep : t.InStep)
    (hhoused : t.Housed) (htracks : (t.tracks.map Track.id).Nodup)
    (hlinks : t.LinksStay (Unmerged plan ids)) (hnamed : ∀ id ∈ edit.named, Unmerged plan ids id)
    {i : Nat} {track : Track Rat} (hi : t.tracks[i]? = some track) {span : Span Rat} {δ : Rat}
    (hfree : track.overlapping span δ plan.ids = []) (names : IdSupply) :
    (track.revise effect.keep effect.alter
      ((effect.make names).filter (t.home? · = some i))).overlapping span δ plan.ids = [] := by
  have hmem : track ∈ t.tracks := List.mem_of_getElem? hi
  have hfree := overlapping_eq_nil_iff.1 hfree
  refine overlapping_eq_nil_iff.2 fun clip hclip hid => ?_
  rcases List.mem_append.1 hclip with hold | hnew
  · obtain ⟨old, hkept, rfl⟩ := List.mem_map.1 hold
    have hin := (List.mem_filter.1 hkept).1
    rw [(h.continues old).id_eq] at hid
    exact Span.overlaps_eq_false_of_within (hfree old hin hid)
      (h.within hstep (mem_clips.2 ⟨track, hmem, hin⟩)) ⟨le_refl _, le_refl _⟩
  · obtain ⟨hmade, hhome⟩ := List.mem_filter.1 hnew
    obtain ⟨old, hold, hkind, htrack, hspan⟩ := h.exists_around hstep hlinks hnamed hmade
    have hnames : old.track = track.id :=
      htrack.symm.trans (track_eq_of_home? (of_decide_eq_true hhome) hi)
    exact Span.overlaps_eq_false_of_within
      (hfree old (hhoused.mem_clips_track htracks hmem hold hnames) hkind.1) hspan
      ⟨le_refl _, le_refl _⟩

theorem checkMerge_ok (h : edit.Does t ε effect) (hstep : t.InStep)
    (hhoused : t.Housed) (htracks : (t.tracks.map Track.id).Nodup)
    (hlinks : t.LinksStay (Unmerged plan ids)) (hnamed : ∀ id ∈ edit.named, Unmerged plan ids id)
    (hids : t.Unnamed ids) (hplan : t.PlanOf plan)
    (hrevision : t.Revision effect.keep effect.alter (effect.make ids) edited)
    (hcheck : t.checkMerge plan asset settings = .ok ()) :
    edited.checkMerge plan asset settings = .ok () := by
  obtain ⟨hduration, hcurrent, track, htrack, hfree⟩ := checkMerge_spec hcheck
  obtain ⟨i, hi, hrevised⟩ := hrevision.track?_eq htrack
  refine checkMerge_of hduration (fun planned hplanned => ?_) hrevised
    (h.overlapping_eq_nil hstep hhoused htracks hlinks hnamed hi hfree ids)
  have hin : planned.id ∈ plan.ids := List.mem_map_of_mem hplanned
  have hsame : edited.clip? planned.id = t.clip? planned.id := by
    refine hrevision.clip?_eq hstep (fun clip _ => (h.continues clip).id_eq)
      (fun clip _ heq => h.spares hstep hlinks hnamed fun hkind => hkind.1 (heq ▸ hin))
      fun clip hclip heq => ?_
    exact hplan.ne_of_mem_ids hstep hids (h.mem_upcoming hclip) (heq ▸ hin)
  have hold := hcurrent planned hplanned
  unfold checkCurrent at hold ⊢
  rwa [hsame]

/-! ## Both orders -/

/-- The names of new clips are turned, so that what is made second in one order is made first. -/
theorem perm_of_turn (h : edit.Does t ε effect) {σ : ClipId → ClipId}
    (hfirst : σ ids.next = (ids.skip (effect.make ids).length).next)
    (hrest : ∀ i < (effect.make ids).length, σ (ids.skip (i + 1)).next = (ids.skip i).next)
    (mediaRoot : String) :
    ((mergedClip plan asset mediaRoot ids.next :: effect.make (ids.skip 1)).map
      (Clip.rename σ)).Perm
        (effect.make ids ++
          [mergedClip plan asset mediaRoot (ids.skip (effect.make ids).length).next]) := by
  have hmade : (effect.make (ids.skip 1)).map (Clip.rename σ) = effect.make ids := by
    refine h.map_rename_make fun i hi => ?_
    rw [IdSupply.skip_skip, Nat.add_comm]
    exact hrest i (h.length_make (ids.skip 1) ids ▸ hi)
  have hmerged : (mergedClip plan asset mediaRoot ids.next).rename σ =
      mergedClip plan asset mediaRoot (ids.skip (effect.make ids).length).next := by
    rw [← hfirst]
    rfl
  rw [List.map_cons, hmerged, hmade]
  exact (List.perm_append_singleton _ _).symm

end ClipEdit.Does

namespace Timeline

/-- The edit passes its checks after the merge, and the two make one revision. -/
theorem edit_after_merge (h : edit.Does t ε effect) (hstep : t.InStep) (hhoused : t.Housed)
    (hids : t.Unnamed ids) (hlinks : t.LinksStay (Unmerged plan ids))
    (hnamed : ∀ id ∈ edit.named, Unmerged plan ids id)
    (hmerge : t.Revision (·.id ∉ plan.ids) (fun clip => clip)
      [mergedClip plan asset settings.mediaRoot ids.next] after) :
    ∃ both, edit.apply after ε (ids.skip 1) = (.ok both, ids.skip ((effect.make ids).length + 1)) ∧
      t.Revision (fun clip => clip.id ∉ plan.ids && effect.keep clip) effect.alter
        (mergedClip plan asset settings.mediaRoot ids.next :: effect.make (ids.skip 1)) both := by
  have hafter : edit.Does after ε effect :=
    h.congr hstep.findsById hmerge.inStep.findsById hlinks
      (fun id hid => clip?_of_merge hstep hmerge hid) hnamed
  have hidsAfter : after.Unnamed (ids.skip 1) := by
    refine hmerge.unnamed hids (fun _ => rfl) fun clip hclip => ?_
    rw [List.mem_singleton.1 hclip]
    exact next_mem_upcoming ids 0
  obtain ⟨both, hboth, hrevision⟩ :=
    hafter.apply_ok hmerge.inStep (hmerge.housed hhoused fun _ => rfl) hidsAfter
  refine ⟨both, ?_, ?_⟩
  · rw [hboth, IdSupply.skip_skip, h.length_make (ids.skip 1) ids, Nat.add_comm]
  have hout : ¬ Unmerged plan ids (mergedClip plan asset settings.mediaRoot ids.next).id :=
    fun hkind => hkind.2 rfl
  obtain ⟨hkeep, halter⟩ := h.spares hstep hlinks hnamed hout
  refine (hmerge.trans hrevision fun clip => (h.continues clip).track_eq).congr (fun _ _ => rfl)
    (fun _ _ => rfl) ?_
  simp [hkeep, halter]

/-- The merge passes its checks after the edit, and the two make one revision. -/
theorem merge_after_edit (h : edit.Does t ε effect) (hstep : t.InStep) (hids : t.Unnamed ids)
    (hplan : t.PlanOf plan) (hε : 0 ≤ settings.tolerance)
    (hedit : t.Revision effect.keep effect.alter (effect.make ids) edited)
    (hcheck : edited.checkMerge plan asset settings = .ok ()) :
    ∃ both, edited.applyMerge plan asset settings (ids.skip (effect.make ids).length) =
        (.ok ((ids.skip (effect.make ids).length).next, both),
          ids.skip ((effect.make ids).length + 1)) ∧
      t.Revision (fun clip => clip.id ∉ plan.ids && effect.keep clip) effect.alter
        (effect.make ids ++ [mergedClip plan asset settings.mediaRoot
          (ids.skip (effect.make ids).length).next]) both := by
  have hidsEdited : edited.Unnamed (ids.skip (effect.make ids).length) :=
    hedit.unnamed hids (fun clip => (h.continues clip).id_eq) fun _ hclip => h.mem_upcoming hclip
  obtain ⟨both, hboth⟩ := applyMerge_ok hedit.inStep hidsEdited hε hcheck
  obtain ⟨_, hrevision, _⟩ := applyMerge_revision hedit.inStep hboth
  refine ⟨both, by rw [hboth, IdSupply.skip_skip], ?_⟩
  refine (hedit.trans hrevision fun _ => rfl).congr (fun clip _ => ?_) (fun _ _ => rfl) ?_
  · rw [(h.continues clip).id_eq, Bool.and_comm]
  · rw [List.filter_eq_self.2 fun clip hclip => ?_, List.map_id']
    simpa using hplan.ne_of_mem_ids hstep hids (h.mem_upcoming hclip)

/--
A merge that waits and an edit that names none of its clips can be made in either order. Both orders
succeed, take the same names, and give the same timeline but for which new clip has which of them.
-/
theorem applyMerge_clipEdit_comm (t : Timeline Rat) (hindex : t.index = .ofTracks t.tracks)
    (htracks : (t.tracks.map Track.id).Nodup) (settings : EditorSettings Rat)
    (hε : 0 ≤ settings.tolerance) (hissues : t.issues settings.tolerance = []) (track : TrackId)
    (clips : List ClipId) (planIds : IdSupply) {plan : MergePlan Rat}
    (hplan : (t.planMerge track clips planIds).1 = .ok plan) (asset : Asset Rat)
    (edit : ClipEdit Rat) (hapart : ∀ id ∈ plan.ids, id ∉ edit.named) (ids : IdSupply)
    (hfresh : ids.Fresh fun name => (∃ clip ∈ t.clips, clip.id = name) ∨ name ∈ edit.named)
    {merged : ClipId} {after edited : Timeline Rat} {left left' : IdSupply}
    (hmerge : t.applyMerge plan asset settings ids = (.ok (merged, after), left))
    (hedit : edit.apply t settings.tolerance ids = (.ok edited, left')) :
    ∃ both both' count, ∃ σ : Equiv.Perm ClipId,
      edit.apply after settings.tolerance left = (.ok both, ids.skip count) ∧
      edited.applyMerge plan asset settings left' = (.ok (σ merged, both'), ids.skip count) ∧
      (∀ name, name ∉ ids.upcoming count → σ name = name) ∧ both.Matches σ both' := by
  have hstep := inStep_of_issues_eq_nil hindex hissues
  have hsound := hstep.issues_eq_nil_iff.1 hissues
  have hplan := planOf_of_planMerge hstep hplan
  have hids : t.Unnamed ids := ⟨hfresh.injective, fun n hn hname => hfresh.unused n hn (.inl hname)⟩
  have hlinks := hplan.linksStay hstep hsound hids
  have hnamed : ∀ id ∈ edit.named, Unmerged plan ids id := fun id hid =>
    ⟨fun hin => hapart id hin hid, fun heq =>
      hfresh.unused ids.used le_rfl (.inr (show ids.next ∈ edit.named from heq ▸ hid))⟩
  obtain ⟨effect, hdoes⟩ := ClipEdit.does_of_apply hedit
  obtain ⟨_, happly, heditRevision⟩ := hdoes.apply_ok hstep hsound.housed hids
  rw [hedit] at happly
  cases happly
  obtain ⟨hcheck, hmergeRevision, rfl, rfl⟩ := applyMerge_revision hstep hmerge
  obtain ⟨both, hboth, hbothRevision⟩ :=
    edit_after_merge hdoes hstep hsound.housed hids hlinks hnamed hmergeRevision
  obtain ⟨both', hboth', hbothRevision'⟩ := merge_after_edit hdoes hstep hids hplan hε heditRevision
    (hdoes.checkMerge_ok hstep hsound.housed htracks hlinks hnamed hids hplan heditRevision hcheck)
  -- Both timelines are one revision of the first, but for the names of the new clips.
  obtain ⟨σ, hfixed, hfirst, hrest⟩ := IdSupply.exists_turn hids.injective (effect.make ids).length
  refine ⟨both, both', (effect.make ids).length + 1, σ, hboth, ?_, hfixed, ?_⟩
  · rw [hboth', hfirst]
  · refine hbothRevision.matches hbothRevision' (fun clip hclip => ?_)
      (hdoes.perm_of_turn hfirst hrest settings.mediaRoot)
    have hold {other : Clip Rat} (hother : other ∈ t.clips) : σ other.id = other.id :=
      hfixed other.id fun hname => hids.ne hname hother rfl
    refine Clip.rename_of_fixed ?_ fun link hlink => ?_
    · rw [(hdoes.continues clip).id_eq]
      exact hold hclip
    · rw [(hdoes.continues clip).link_eq] at hlink
      obtain ⟨partner, hpartner, rfl, _⟩ := hsound.links clip hclip link hlink
      exact hold hpartner

/-- Two sounds, of which a merge is planned. -/
def plannedTrack : Track Rat :=
  ⟨"audio-1", .audio,
    [⟨"p", "audio-1", "media/p.wav", 0, 2, 0, .audio, 1, 1, 0, none⟩,
      ⟨"q", "audio-1", "media/q.wav", 3, 5, 0, .audio, 1, 1, 0, none⟩]⟩

/-- The sounds, and a picture with its own sound. -/
def waitingTimeline : Timeline Rat :=
  ofTracks "t"
    [⟨"video-1", .video, [⟨"a", "video-1", "media/a.mp4", 0, 8, 0, .video, 1, 1, 0, some "b"⟩]⟩,
      ⟨"av-1", .av, [⟨"b", "av-1", "media/a.mp4", 0, 8, 0, .audio, 1, 1, 0, some "a"⟩]⟩,
      plannedTrack]

def waitingPlan : MergePlan Rat :=
  ⟨"audio-1", .audio, plannedTrack.clips, 0, mergeRequest plannedTrack plannedTrack.clips 0 "x"⟩

def mergedSound : Asset Rat :=
  ⟨"m", "m.wav", "/m.wav", .audio, 5⟩

theorem planMerge_waiting :
    (waitingTimeline.planMerge "audio-1" ["p", "q"] .tally).1 = .ok waitingPlan := by
  have htrack : waitingTimeline.track? "audio-1" = some plannedTrack := by decide +kernel
  exact planMerge_of_sorted htrack (by decide +kernel) (by decide) (by decide +kernel)
    (by decide +kernel) (by decide +kernel) rfl (by decide +kernel)

/-- The picture is cut before the merge is applied, or after. -/
theorem applyMerge_clipEdit_comm_cut :
    let t := waitingTimeline
    let settings : EditorSettings Rat := .standard
    let edit : ClipEdit Rat := .split "a" 4
    t.issues settings.tolerance = [] ∧
      (t.planMerge "audio-1" ["p", "q"] .tally).1 = .ok waitingPlan ∧
      ∃ after left edited left',
        t.applyMerge waitingPlan mergedSound settings .tally = (.ok ("x", after), left) ∧
        edit.apply t settings.tolerance .tally = (.ok edited, left') ∧
        ∃ both both' count, ∃ σ : Equiv.Perm ClipId,
          edit.apply after settings.tolerance left = (.ok both, IdSupply.tally.skip count) ∧
          edited.applyMerge waitingPlan mergedSound settings left' =
            (.ok (σ "x", both'), IdSupply.tally.skip count) ∧
          both.Matches σ both' := by
  intro t settings edit
  have htracks : (t.tracks.map Track.id).Nodup := by decide +kernel
  have hissues : t.issues settings.tolerance = [] := by decide +kernel
  have hletters : (∀ clip ∈ t.clips, 'x' ∉ clip.id.toList) ∧ ∀ id ∈ edit.named, 'x' ∉ id.toList := by
    decide +kernel
  have hfresh : IdSupply.tally.Fresh fun name =>
      (∃ clip ∈ t.clips, clip.id = name) ∨ name ∈ edit.named := by
    refine IdSupply.fresh_tally_of_strokeless ?_
    rintro name (⟨clip, hclip, rfl⟩ | hname)
    · exact hletters.1 clip hclip
    · exact hletters.2 name hname
  obtain ⟨after, left, hmerge⟩ : ∃ after left,
      t.applyMerge waitingPlan mergedSound settings .tally = (.ok ("x", after), left) := by
    have hname : (t.applyMerge waitingPlan mergedSound settings .tally).1.toOption.map Prod.fst =
        some "x" := by decide +kernel
    rcases hresult : t.applyMerge waitingPlan mergedSound settings .tally with
      ⟨_ | ⟨_, after⟩, left⟩ <;> rw [hresult] at hname <;> cases hname
    exact ⟨after, left, rfl⟩
  obtain ⟨edited, left', hedit⟩ : ∃ edited left',
      edit.apply t settings.tolerance .tally = (.ok edited, left') := by
    have hsome : (edit.apply t settings.tolerance .tally).1.toOption.isSome := by decide +kernel
    rcases hresult : edit.apply t settings.tolerance .tally with
      ⟨_ | edited, left'⟩ <;> rw [hresult] at hsome
    · cases hsome
    · exact ⟨edited, left', rfl⟩
  obtain ⟨both, both', count, σ, hboth, hboth', _, hmatches⟩ :=
    applyMerge_clipEdit_comm t rfl htracks settings (by decide +kernel) hissues "audio-1" ["p", "q"]
      .tally planMerge_waiting mergedSound edit (by decide +kernel) .tally hfresh hmerge hedit
  exact ⟨hissues, planMerge_waiting, after, left, edited, left', hmerge, hedit, both, both', count, σ,
    hboth, hboth', hmatches⟩

end Timeline

end Montage
