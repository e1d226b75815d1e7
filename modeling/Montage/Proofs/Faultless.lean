import Montage.Proofs.Commits
import Montage.Proofs.Doubles
import Montage.Proofs.Twins

/-!
# Edits that do not blame the model

A refusal says that the edit is at fault, or that the model contradicts itself. On timelines of which
the links lead somewhere and clips stand on their tracks, with ids that are fresh, edits do not refuse
for the second reason. A merge alone may: its clip is not checked to take any time.
-/

namespace Montage

variable {α : Type}

/-! ## Results that do not blame the model -/

/-- The result is not a refusal for which the model is to blame. -/
def Faultless {β : Type} (result : Except (Refusal α) β) : Prop :=
  ∀ refusal, result = .error refusal → refusal.category = .validation

namespace Faultless

theorem ok {β : Type} (value : β) : Faultless (.ok value : Except (Refusal α) β) := nofun

theorem error {β : Type} {refusal : Refusal α} (h : refusal.category = .validation) :
    Faultless (.error refusal : Except (Refusal α) β) := by
  rintro _ ⟨⟩
  exact h

theorem bind {β γ : Type} {first : Except (Refusal α) β} {rest : β → Except (Refusal α) γ}
    (hfirst : Faultless first) (hrest : ∀ value, first = .ok value → Faultless (rest value)) :
    Faultless (first >>= rest) := by
  cases first with
  | error refusal => exact error (hfirst refusal rfl)
  | ok value => exact hrest value rfl

theorem map {β γ : Type} {first : Except (Refusal α) β} (hfirst : Faultless first) (f : β → γ) :
    Faultless (first.map f) := by
  cases first with
  | error refusal => exact error (hfirst refusal rfl)
  | ok value => exact ok _

theorem forM {β : Type} {check : β → Except (Refusal α) Unit} {entries : List β}
    (h : ∀ entry ∈ entries, Faultless (check entry)) : Faultless (entries.forM check) := by
  induction entries with
  | nil => exact ok ()
  | cons entry entries ih =>
      exact bind (h entry List.mem_cons_self) fun _ _ =>
        ih fun other hother => h other (List.mem_cons_of_mem _ hother)

theorem mapM {β γ : Type} {f : β → Except (Refusal α) γ} {entries : List β}
    (h : ∀ entry ∈ entries, Faultless (f entry)) : Faultless (entries.mapM f) := by
  induction entries with
  | nil => exact ok []
  | cons entry entries ih =>
      rw [List.mapM_cons]
      refine bind (h entry List.mem_cons_self) fun _ _ => bind (ih fun other hother => ?_) fun _ _ => ?_
      · exact h other (List.mem_cons_of_mem _ hother)
      · exact ok _

end Faultless

/-! ## Numbers -/

/-- What has to hold of numbers so that a clip which passes the checks takes time. -/
structure Scalar.Ordered (α : Type) [Scalar α] : Prop where
  not_le_of_lt : ∀ a b : α, a < b → ¬ b ≤ a
  not_le_of_lt_sub : ∀ a b ε : α, ¬ ε < 0 → ε < a - b → ¬ a ≤ b

theorem Scalar.ordered_double : Scalar.Ordered Float where
  not_le_of_lt _ _ := Doubles.not_le_of_lt
  not_le_of_lt_sub _ _ _ := Doubles.not_le_of_lt_sub

theorem Scalar.ordered_exact : Scalar.Ordered Rat where
  not_le_of_lt _ _ := not_le_of_gt
  not_le_of_lt_sub _ _ _ hε hlt := not_le_of_gt (sub_pos.1 (lt_of_le_of_lt (le_of_not_gt hε) hlt))

theorem EditorSettings.tolerance_not_neg [Scalar α] {settings : EditorSettings α}
    (h : settings.check = .ok ()) : ¬ settings.tolerance < 0 := by
  unfold EditorSettings.check at h
  split at h
  · cases h
  split at h
  · cases h
  split at h
  · cases h
  · assumption

namespace Timeline

variable [Scalar α] {t : Timeline α} {settings : EditorSettings α}

omit [Scalar α] in
theorem trackFor_faultless (medium : Medium) (hint : Option TrackId) :
    Faultless (t.trackFor medium hint) := by
  intro refusal hrefused
  rcases trackFor_error hrefused with ⟨id, rfl⟩ | ⟨track, _, rfl⟩ | rfl <;> rfl

theorem checkFree_faultless (track : Track α) (span : Span α) (ε : α) (ignore : List ClipId) :
    Faultless (checkFree track span ε ignore) := by
  unfold checkFree
  split
  · exact .ok ()
  · exact .error rfl

theorem findSite_faultless (asset : Asset α) (hint : Option TrackId) (drop : Drop α) :
    Faultless (t.findSite asset hint drop settings) := by
  unfold findSite
  extract_lets partner search checkDrop
  clear_value partner
  have hsearch (u : Unit) : Faultless (search u) := by
    refine .bind (trackFor_faultless _ _) fun target _ => ?_
    extract_lets start span found checkTracks
    have hchecks (u : Unit) : Faultless (checkTracks u) := by
      refine .bind (checkFree_faultless _ _ _ _) fun _ _ => ?_
      split
      · exact .bind (checkFree_faultless _ _ _ _) fun _ _ => .ok _
      · exact .ok _
    split
    · exact .error rfl
    · exact hchecks ()
  split
  · exact .error rfl
  · simp only [checkDrop]
    split
    · split
      · exact .error rfl
      · exact hsearch ()
    · exact hsearch ()

/-! ## Links that lead somewhere -/

/-- Every link leads to a clip. -/
def Connected (t : Timeline α) : Prop :=
  ∀ id clip, t.clip? id = some clip → ∀ link, clip.link = some link → (t.clip? link).isSome

omit [Scalar α] in
theorem Paired.connected {Kin : Seat → Seat → Prop} (h : t.Paired Kin) (hstep : t.InStep) :
    t.Connected := by
  intro id clip hclip link hlink
  obtain ⟨hmem, _⟩ := hstep.clip?_eq_some_iff.1 hclip
  obtain ⟨partner, hpartner, rfl, _⟩ := h clip hmem link hlink
  rw [hstep.clip?_id hpartner]
  rfl

omit [Scalar α] in
theorem Connected.linksStay (h : t.Connected) : t.LinksStay fun _ => True :=
  fun id clip _ hclip link hlink => ⟨trivial, h id clip hclip link hlink⟩

omit [Scalar α] in
theorem Connected.linkClosure_faultless (h : t.Connected) (seeds : List ClipId) :
    Faultless (t.linkClosure seeds) := by
  obtain ⟨closed, hclosure⟩ := h.linksStay.linkClosure_ok fun _ _ => trivial
  rw [hclosure]
  exact .ok closed

omit [Scalar α] in
theorem Connected.select_faultless (h : t.Connected) (selection : ClipSet) (clip : ClipId)
    (additive : Bool) : Faultless (t.select selection clip additive) := by
  unfold select
  extract_lets add
  have hadd (u : Unit) : Faultless (add u) := by
    simp only [add]
    split
    · exact h.linkClosure_faultless _
    split
    · exact .bind (h.linkClosure_faultless _) fun _ _ => h.linkClosure_faultless _
    · exact h.linkClosure_faultless _
  split
  · exact .error rfl
  · exact hadd ()

omit [Scalar α] in
theorem Connected.delete_faultless (h : t.Connected) (selection : ClipSet) :
    Faultless (t.delete selection) :=
  (h.linkClosure_faultless _).map _

theorem setVolume_faultless (id : ClipId) (volume : α) : Faultless (t.setVolume id volume) := by
  unfold setVolume
  split
  · exact .error rfl
  split
  · exact .error rfl
  · exact .ok _

theorem Connected.setSpeed_faultless (h : t.Connected) (id : ClipId) (speed : α) :
    Faultless (t.setSpeed id speed) := by
  unfold setSpeed
  split
  · exact .error rfl
  split
  · exact .error rfl
  rename_i clip hclip
  extract_lets adjust
  split
  · exact .ok _
  rename_i link hlink
  split
  · rename_i hdangling
    have hlead := h id clip hclip link hlink
    rw [hdangling] at hlead
    cases hlead
  · exact .ok _

theorem Connected.start_faultless (h : t.Connected) (selection : ClipSet) (clip : ClipId)
    (pointer : α) : Faultless (Drag.start t selection clip pointer) := by
  unfold Drag.start
  extract_lets begin_ checkSelected
  have hbegin (u : Unit) : Faultless (begin_ u) :=
    .bind (h.linkClosure_faultless _) fun _ _ => .ok _
  have hselected (u : Unit) : Faultless (checkSelected u) := by
    simp only [checkSelected]
    split
    · exact .error rfl
    · exact hbegin ()
  split
  · exact .error rfl
  · exact hselected ()

theorem Connected.toCut_faultless (h : t.Connected) (id : ClipId) (instant ε : α) :
    Faultless (t.toCut id instant ε) := by
  unfold toCut
  split
  · exact .error rfl
  rename_i clip hclip
  split
  · exact .ok _
  split
  · exact .ok _
  rename_i link hlink
  split
  · rename_i hdangling
    have hlead := h id clip hclip link hlink
    rw [hdangling] at hlead
    cases hlead
  split
  · exact .ok _
  · exact .error rfl

theorem planMerge_faultless (id : TrackId) (clips : List ClipId) (ids : IdSupply) :
    Faultless (t.planMerge id clips ids).1 := by
  have hmergeable (track : Track α) (id : ClipId) : Faultless (t.mergeable track id) := by
    unfold mergeable
    split
    · exact .error rfl
    split
    · exact .error rfl
    split
    · exact .error rfl
    · exact .ok _
  have hrun : Faultless (t.runOf id clips) := by
    unfold runOf
    split
    · exact .error rfl
    · extract_lets unique collect
      have hcollect (u : Unit) : Faultless (collect u) :=
        .bind (.mapM fun _ _ => hmergeable _ _) fun _ _ => .ok _
      split
      · exact .error rfl
      · exact hcollect ()
  unfold planMerge
  split
  · rename_i hrefused
    exact .error (hrun _ hrefused)
  · exact .ok _

/-! ## Clips that are put in -/

/-- The clip may be put in: its id is new, its track is there, and it takes time. -/
structure Admits (t : Timeline α) (clip : Clip α) : Prop where
  unused : ∀ other ∈ t.clips, other.id ≠ clip.id
  track_mem : clip.track ∈ t.tracks.map Track.id
  long : ¬ clip.stop ≤ clip.start

omit [Scalar α] in
theorem contains_index_of_unused (h : t.Truthful) {id : ClipId}
    (hunused : ∀ other ∈ t.clips, other.id ≠ id) : t.index.contains id = false := by
  rw [← Bool.not_eq_true, ← Std.ExtTreeMap.isSome_getElem?_eq_contains]
  intro hsome
  obtain ⟨place, hplace⟩ := Option.isSome_iff_exists.1 hsome
  obtain ⟨clip, hclip, hid⟩ := h id place hplace
  exact hunused clip (mem_clips_iff_clipAt?.2 ⟨place, hclip⟩) hid

theorem Admits.insert_ok {clip : Clip α} (hadmits : t.Admits clip) (h : t.Truthful) :
    ∃ next, t.insert clip = .ok next := by
  obtain ⟨track, hmem, hid⟩ := List.mem_map.1 hadmits.track_mem
  have hhome : (t.tracks.findIdx? (·.id = clip.track)).isSome := by
    rw [List.findIdx?_isSome, List.any_eq_true]
    exact ⟨track, hmem, by simpa using hid⟩
  obtain ⟨i, hi⟩ := Option.isSome_iff_exists.1 hhome
  unfold insert
  rw [contains_index_of_unused h hadmits.unused, if_neg Bool.false_ne_true, if_neg hadmits.long, hi]
  exact ⟨_, rfl⟩

theorem insert_of_empty (h : t.Truthful) {clip : Clip α}
    (hunused : ∀ other ∈ t.clips, other.id ≠ clip.id) (hempty : clip.stop ≤ clip.start) :
    t.insert clip = .error (.emptyClip clip.id) := by
  unfold insert
  rw [contains_index_of_unused h hunused, if_neg Bool.false_ne_true, if_pos hempty]

/-- Another clip may still be put in after one of another id was. -/
theorem Admits.insert {clip other : Clip α} {next : Timeline α} (hadmits : t.Admits other)
    (hinsert : t.insert clip = .ok next) (hne : clip.id ≠ other.id) : next.Admits other := by
  obtain ⟨i, track, _, htrack, _, _, rfl⟩ := insert_spec hinsert
  refine ⟨fun present hpresent => ?_, ?_, hadmits.long⟩
  · obtain ⟨place, hplace⟩ := mem_clips_iff_clipAt?.1 hpresent
    rw [clipAt?_append htrack rfl] at hplace
    split at hplace
    · cases hplace
      exact hne
    · exact hadmits.unused present (mem_clips_iff_clipAt?.2 ⟨place, hplace⟩)
  · have hids : (t.tracks.modify i fun track =>
        { track with clips := track.clips ++ [clip] }).map Track.id = t.tracks.map Track.id := by
      refine List.ext_getElem? fun j => ?_
      rw [List.getElem?_map, List.getElem?_modify, List.getElem?_map]
      split <;> simp [Function.comp_def]
    exact hids ▸ hadmits.track_mem

theorem insertAll_ok (h : t.Truthful) (fault : Rejection α → Fault α) {clips : List (Clip α)}
    (hids : (clips.map Clip.id).Nodup) (hadmits : ∀ clip ∈ clips, t.Admits clip) :
    ∃ next, t.insertAll clips fault = .ok next := by
  induction clips generalizing t with
  | nil => exact ⟨t, rfl⟩
  | cons clip clips ih =>
      obtain ⟨hnew, hids⟩ := List.nodup_cons.1 hids
      obtain ⟨mid, hmid⟩ := (hadmits clip List.mem_cons_self).insert_ok h
      obtain ⟨next, hnext⟩ := ih (h.insert hmid) hids fun other hother =>
        (hadmits other (List.mem_cons_of_mem _ hother)).insert hmid fun heq =>
          hnew (heq ▸ List.mem_map_of_mem hother)
      refine ⟨next, ?_⟩
      rw [insertAll, List.foldlM_cons, hmid]
      exact hnext

/-! ## Edits that put clips in -/

/-- The span that a site gives to an asset is longer than the tolerance after rounding. -/
theorem findSite_long {asset : Asset α} {hint : Option TrackId} {drop : Drop α} {site : Site α}
    (hsite : t.findSite asset hint drop settings = .ok site) :
    settings.tolerance < (Span.ofLength site.start asset.duration).length := by
  unfold findSite at hsite
  extract_lets partner search checkDrop at hsite
  clear_value partner
  have hsearch : search () = .ok site := by
    split at hsite
    · cases hsite
    · simp only [checkDrop] at hsite
      split at hsite
      · split at hsite
        · cases hsite
        · exact hsite
      · exact hsite
  simp only [search] at hsearch
  cases htarget : t.trackFor asset.medium hint with
  | error refusal =>
      rw [htarget] at hsearch
      cases hsearch
  | ok target =>
      rw [htarget] at hsearch
      simp only [bind, Except.bind] at hsearch
      split at hsearch
      · cases hsearch
      rename_i hlong
      have hstart : site.start = startOf target partner drop settings := by
        split at hsearch
        · cases hsearch
        split at hsearch
        · split at hsearch
          · cases hsearch
          · cases hsearch
            rfl
        · cases hsearch
          rfl
      rw [hstart]
      simpa using hlong

variable {ids : IdSupply}

theorem mem_clipsAt_span {asset : Asset α} {drop : Drop α} {site : Site α}
    (hsite : t.SiteFound asset drop settings site) {mediaRoot : String} {id partnerId : ClipId}
    {clip : Clip α} (hclip : clip ∈ clipsAt site asset mediaRoot id partnerId) :
    clip.span = Span.ofLength site.start asset.duration ∧
      clip.track ∈ t.tracks.map Track.id := by
  unfold clipsAt at hclip
  cases hpartner : site.partner with
  | none =>
      simp only [hpartner, List.mem_singleton] at hclip
      subst hclip
      exact ⟨rfl, List.mem_map_of_mem hsite.target_mem⟩
  | some track =>
      obtain ⟨_, _, hmem, _⟩ := hsite.partner_spec hpartner
      simp only [hpartner, List.mem_cons, List.not_mem_nil, or_false] at hclip
      rcases hclip with rfl | rfl
      · exact ⟨rfl, List.mem_map_of_mem hsite.target_mem⟩
      · exact ⟨rfl, List.mem_map_of_mem hmem⟩

/-- Where a site is found, the clips are put in. -/
theorem place_of_findSite (hordered : Scalar.Ordered α) (h : t.Truthful) (hids : t.Unnamed ids)
    (hε : ¬ settings.tolerance < 0) {asset : Asset α} {hint : Option TrackId} {drop : Drop α}
    {site : Site α} (hsite : t.findSite asset hint drop settings = .ok site) :
    ∃ next left, t.place asset hint drop settings ids =
        (.ok (⟨ids.next, site.partner.map fun _ => (ids.skip 1).next, site.target.id, site.start⟩,
          next), left) ∧
      t.insertAll (clipsAt site asset settings.mediaRoot ids.next (ids.skip 1).next)
        .placementRejected = .ok next := by
  have hnames := map_id_clipsAt site asset settings.mediaRoot ids
  obtain ⟨next, hnext⟩ := insertAll_ok h .placementRejected
    (hnames ▸ hids.nodup_upcoming _) fun clip hclip => by
      obtain ⟨hspan, htrack⟩ := mem_clipsAt_span (findSite_spec hsite) hclip
      have hid : clip.id ∈ ids.upcoming _ := hnames ▸ List.mem_map_of_mem hclip
      refine ⟨fun other hother => hids.ne hid hother, htrack, ?_⟩
      have hlong := hordered.not_le_of_lt_sub _ _ _ hε (findSite_long hsite)
      rw [← hspan] at hlong
      exact hlong
  have hplace : t.place asset hint drop settings ids =
      (.ok (⟨ids.next, site.partner.map fun _ => (ids.skip 1).next, site.target.id, site.start⟩,
        next), (ids.skip 1).skip
          ((clipsAt site asset settings.mediaRoot ids.next (ids.skip 1).next).length - 1)) := by
    unfold place
    simp only [hsite, IdSupply.take, hnext]
    rfl
  exact ⟨next, _, hplace, hnext⟩

theorem place_faultless (hordered : Scalar.Ordered α) (h : t.InStep) (hids : t.Unnamed ids)
    (hε : ¬ settings.tolerance < 0) (asset : Asset α) (hint : Option TrackId) (drop : Drop α) :
    Faultless (t.place asset hint drop settings ids).1 := by
  cases hsite : t.findSite asset hint drop settings with
  | error refusal =>
      unfold place
      rw [hsite]
      exact .error (findSite_faultless asset hint drop refusal hsite)
  | ok site =>
      obtain ⟨next, left, hplace, _⟩ := place_of_findSite hordered h.truthful hids hε hsite
      rw [hplace]
      exact .ok _

/-- A clip that is cut goes on after the cut. -/
theorem lt_stop_of_toCut (h : t.InStep) {id : ClipId} {instant ε : α} {clips : List (Clip α)}
    (hcut : t.toCut id instant ε = .ok clips) (hne : clips ≠ []) :
    ∀ clip ∈ clips, clip ∈ t.clips ∧ instant < clip.stop := by
  intro clip hclip
  obtain ⟨hmem, hclean⟩ := toCut_clean h hcut hne clip hclip
  simp only [cutsCleanly, Span.strictlyContains, Bool.and_eq_true, decide_eq_true_eq] at hclean
  exact ⟨hmem, hclean.1.1.2⟩

/-- A split that finds something to cut succeeds. -/
theorem split_of_toCut (hordered : Scalar.Ordered α) (h : t.InStep) (hids : t.Unnamed ids)
    (hhoused : t.Housed) {id : ClipId} {instant ε : α} {clips : List (Clip α)}
    (hcut : t.toCut id instant ε = .ok clips) (hne : clips ≠ []) :
    let halves := rightHalves clips instant ids.next (ids.skip 1).next
    ∃ next, t.split id instant ε ids =
      (.ok (some (halves.map Clip.id, next)), ids.skip halves.length) := by
  intro halves
  have hshort := shorten_revision h clips instant
  have hnames := map_id_rightHalves clips instant ids
  obtain ⟨next, hnext⟩ := insertAll_ok hshort.inStep.truthful .splitRejected
    (hnames ▸ hids.nodup_upcoming _) fun half hhalf => by
      obtain ⟨clip, hclip, heq⟩ := mem_rightHalves hhalf
      obtain ⟨hmem, hstop⟩ := lt_stop_of_toCut h hcut hne clip hclip
      have hid : half.id ∈ ids.upcoming _ := hnames ▸ List.mem_map_of_mem hhalf
      refine ⟨fun other hother => ?_, ?_, ?_⟩
      · rcases hshort.mem_clips.1 hother with ⟨old, hold, _, rfl⟩ | hnone
        · rw [(cutShort_continues _ _ old).1.id_eq]
          exact hids.ne hid hold
        · cases hnone
      · obtain ⟨track, htrackMem, hin⟩ := mem_clips.1 hmem
        have hnames : half.track = track.id := by
          rw [heq]
          exact hhoused track htrackMem clip hin
        rw [hshort.map_id_tracks, hnames]
        exact List.mem_map_of_mem htrackMem
      · rw [heq]
        exact hordered.not_le_of_lt instant clip.stop hstop
  refine ⟨next, ?_⟩
  unfold split
  rw [hcut]
  cases clips with
  | nil => exact absurd rfl hne
  | cons clip rest =>
      simp only [hnext]
      rfl

theorem split_faultless (hordered : Scalar.Ordered α) (h : t.InStep) (hids : t.Unnamed ids)
    (hhoused : t.Housed) (hconnected : t.Connected) (id : ClipId) (instant ε : α) :
    Faultless (t.split id instant ε ids).1 := by
  cases hcut : t.toCut id instant ε with
  | error refusal =>
      unfold split
      rw [hcut]
      exact .error (hconnected.toCut_faultless id instant ε refusal hcut)
  | ok clips =>
      by_cases hne : clips = []
      · unfold split
        rw [hcut, hne]
        exact .ok _
      · obtain ⟨next, hsplit⟩ := split_of_toCut hordered h hids hhoused hcut hne
        rw [hsplit]
        exact .ok _

/-! ## Merges and releases -/

omit [Scalar α] in
theorem mem_tracks_of_track? {id : TrackId} {track : Track α} (htrack : t.track? id = some track) :
    id ∈ t.tracks.map Track.id := by
  have hid : track.id = id := by simpa using List.find?_some htrack
  exact hid ▸ List.mem_map_of_mem (List.mem_of_find?_eq_some htrack)

omit [Scalar α] in
theorem exists_track? {id : TrackId} (hid : id ∈ t.tracks.map Track.id) :
    ∃ track, t.track? id = some track := by
  obtain ⟨track, hmem, rfl⟩ := List.mem_map.1 hid
  have hsome : (t.track? track.id).isSome := by
    rw [track?, List.find?_isSome]
    exact ⟨track, hmem, by simp⟩
  exact Option.isSome_iff_exists.1 hsome

theorem checkMerge_faultless {plan : MergePlan α} (htrack : plan.track ∈ t.tracks.map Track.id)
    (asset : Asset α) : Faultless (t.checkMerge plan asset settings) := by
  have hcurrent (planned : Clip α) : Faultless (t.checkCurrent planned) := by
    unfold checkCurrent
    split
    · exact .error rfl
    split
    · exact .ok ()
    · exact .error rfl
  unfold checkMerge
  extract_lets check
  have hcheck (u : Unit) : Faultless (check u) := by
    refine .bind (.forM fun planned _ => hcurrent planned) fun _ _ => ?_
    obtain ⟨track, hfound⟩ := exists_track? htrack
    simp only [hfound]
    exact checkFree_faultless _ _ _ _
  split
  · exact .error rfl
  · exact hcheck ()

/-- A merge that passes its checks fails if and only if no time is left for its clip. -/
theorem applyMerge_of_check (h : t.InStep) (hids : t.Unnamed ids) {plan : MergePlan α}
    {asset : Asset α} (hcheck : t.checkMerge plan asset settings = .ok ()) :
    if plan.origin + asset.duration ≤ plan.origin then
      (t.applyMerge plan asset settings ids).1 =
        .error (.inconsistent (.mergeRejected (.emptyClip ids.next)))
    else ∃ next, (t.applyMerge plan asset settings ids).1 = .ok (ids.next, next) := by
  have herased := foldl_erase_revision h plan.ids
  let merged := mergedClip plan asset settings.mediaRoot ids.next
  have hunused : ∀ other ∈ (plan.ids.foldl erase t).clips, other.id ≠ merged.id := by
    intro other hother
    have hnext : ids.next ∈ ids.upcoming 1 :=
      IdSupply.mem_upcoming.2 ⟨ids.used, le_rfl, by omega, rfl⟩
    rcases herased.mem_clips.1 hother with ⟨old, hold, _, rfl⟩ | hnone
    · exact hids.ne hnext hold
    · cases hnone
  unfold applyMerge
  rw [hcheck]
  simp only [insertAll, List.foldlM_cons, List.foldlM_nil]
  split
  · rename_i hempty
    rw [insert_of_empty herased.inStep.truthful hunused hempty]
    rfl
  · rename_i hlong
    obtain ⟨_, _, track, htrack, _⟩ := checkMerge_spec hcheck
    have hadmits : (plan.ids.foldl erase t).Admits merged :=
      ⟨hunused, herased.map_id_tracks ▸ mem_tracks_of_track? htrack, hlong⟩
    obtain ⟨next, hnext⟩ := hadmits.insert_ok herased.inStep.truthful
    rw [hnext]
    exact ⟨next, rfl⟩

theorem release_faultless {drag : Drag α} (htracks : ∀ held ∈ drag.held,
    held.track ∈ t.tracks.map Track.id) {refusal : Refusal α}
    (hrelease : drag.release t settings = .snappedBack refusal) :
    refusal.category = .validation := by
  have hheld (delta : α) (held : Held α) (hmem : held ∈ drag.held) :
      Faultless (drag.checkHeld t delta settings.tolerance held) := by
    obtain ⟨track, htrack⟩ := exists_track? (htracks held hmem)
    unfold Drag.checkHeld
    rw [htrack]
    extract_lets target checkSpan
    have hcheck (u : Unit) : Faultless (checkSpan u) := by
      simp only [checkSpan]
      split
      · exact .error rfl
      · exact checkFree_faultless _ _ _ _
    split
    · exact .error rfl
    · exact hcheck ()
  have hverdict : Faultless (drag.verdict t settings.tolerance) := by
    unfold Drag.verdict
    split
    · exact .bind (.forM (hheld _)) fun _ _ => .ok _
    · exact .error rfl
  unfold Drag.release at hrelease
  split at hrelease
  · cases hrelease
  · rename_i hrefused
    cases hrelease
    exact hverdict _ hrefused

end Timeline

end Montage
