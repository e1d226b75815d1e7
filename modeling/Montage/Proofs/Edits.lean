import Montage.Editing.Adjustment
import Montage.Editing.Drag
import Montage.Editing.Merge
import Montage.Editing.Split
import Montage.Proofs.Changes
import Montage.Proofs.Closure

/-!
# What edits revise

Each edit that succeeds has passed its checks and makes one revision of the timeline. The theorems
here say both, one for each edit.
-/

namespace Montage

theorem forM_eq_ok_iff {β ε : Type} {check : β → Except ε Unit} {entries : List β} :
    entries.forM check = .ok () ↔ ∀ entry ∈ entries, check entry = .ok () := by
  induction entries with
  | nil => simp [pure, Except.pure]
  | cons entry entries ih =>
      have hcons : (entry :: entries).forM check =
          (check entry >>= fun _ => entries.forM check) := rfl
      rw [hcons, List.forall_mem_cons, ← ih]
      cases hentry : check entry with
      | error => simp [bind, Except.bind]
      | ok => simp [bind, Except.bind]

/-- A row of checks fails where one of them does. -/
theorem exists_of_forM_error {β ε : Type} {check : β → Except ε Unit} {entries : List β} {fault : ε}
    (h : entries.forM check = .error fault) : ∃ entry ∈ entries, check entry = .error fault := by
  induction entries with
  | nil => cases h
  | cons entry entries ih =>
      have hcons : (entry :: entries).forM check =
          (check entry >>= fun _ => entries.forM check) := rfl
      rw [hcons] at h
      cases hentry : check entry with
      | error first =>
          rw [hentry] at h
          cases h
          exact ⟨entry, List.mem_cons_self, hentry⟩
      | ok =>
          rw [hentry] at h
          obtain ⟨other, hother, hfault⟩ := ih h
          exact ⟨other, List.mem_cons_of_mem _ hother, hfault⟩

/-- What a row of steps returns comes from its entries, one for each. -/
theorem mapM_ok {β γ ε : Type} {f : β → Except ε γ} {entries : List β} {results : List γ}
    (h : entries.mapM f = .ok results) :
    results.length = entries.length ∧
      (∀ result ∈ results, ∃ entry ∈ entries, f entry = .ok result) ∧
      ∀ entry ∈ entries, ∃ result ∈ results, f entry = .ok result := by
  induction entries generalizing results with
  | nil =>
      cases h
      simp
  | cons entry entries ih =>
      rw [List.mapM_cons] at h
      cases hentry : f entry with
      | error =>
          rw [hentry] at h
          cases h
      | ok first =>
          cases hrest : entries.mapM f with
          | error =>
              rw [hentry, hrest] at h
              cases h
          | ok rest =>
              rw [hentry, hrest] at h
              cases h
              obtain ⟨hlength, hmem, hall⟩ := ih hrest
              refine ⟨by simp [hlength], fun result hresult => ?_, fun source hsource => ?_⟩
              · rcases List.mem_cons.1 hresult with rfl | hresult
                · exact ⟨entry, List.mem_cons_self, hentry⟩
                · obtain ⟨source, hsource, heq⟩ := hmem result hresult
                  exact ⟨source, List.mem_cons_of_mem _ hsource, heq⟩
              · rcases List.mem_cons.1 hsource with rfl | hsource
                · exact ⟨first, List.mem_cons_self, hentry⟩
                · obtain ⟨result, hresult, heq⟩ := hall source hsource
                  exact ⟨result, List.mem_cons_of_mem _ hresult, heq⟩

variable {α : Type}

namespace Timeline

variable [Scalar α] {t next : Timeline α} {settings : EditorSettings α} {ids left : IdSupply}

/-! ## Placing -/

theorem overlapping_eq_nil_iff {track : Track α} {span : Span α} {ε : α} {ignore : List ClipId} :
    track.overlapping span ε ignore = [] ↔
      ∀ clip ∈ track.clips, clip.id ∉ ignore → clip.span.overlaps span ε = false := by
  simp [Track.overlapping]

theorem checkFree_eq_ok_iff {track : Track α} {span : Span α} {ε : α} {ignore : List ClipId} :
    checkFree track span ε ignore = .ok () ↔ track.overlapping span ε ignore = [] := by
  unfold checkFree
  cases track.overlapping span ε ignore <;> simp

/-- A span that is not free is refused for one of the clips that overlap it. -/
theorem checkFree_error {track : Track α} {span : Span α} {ε : α} {ignore : List ClipId}
    {refusal : Refusal α} (hcheck : checkFree track span ε ignore = .error refusal) :
    ∃ other ∈ track.overlapping span ε ignore, refusal = .overlap track.id other.id := by
  unfold checkFree at hcheck
  split at hcheck
  · cases hcheck
  · rename_i conflicting rest hoverlapping
    cases hcheck
    exact ⟨conflicting, by simp [hoverlapping], rfl⟩

omit [Scalar α] in
theorem trackFor_first_spec {medium : Medium} {kind : TrackKind} {track : Track α}
    (haccepts : kind.accepts medium = true) (h : trackFor.first t medium kind = .ok track) :
    track ∈ t.tracks ∧ track.kind.accepts medium = true := by
  unfold trackFor.first at h
  split at h
  · rename_i found hfound
    cases h
    have hkind : track.kind = kind := by simpa using List.find?_some hfound
    exact ⟨List.mem_of_find?_eq_some hfound, by rwa [hkind]⟩
  · cases h

omit [Scalar α] in
theorem trackFor_spec {medium : Medium} {hint : Option TrackId} {track : Track α}
    (htrack : t.trackFor medium hint = .ok track) :
    track ∈ t.tracks ∧ track.kind.accepts medium = true := by
  unfold trackFor at htrack
  cases hint with
  | none =>
      cases medium with
      | video => exact trackFor_first_spec rfl htrack
      | audio => exact trackFor_first_spec rfl htrack
  | some id =>
      cases hid : t.track? id with
      | none =>
          simp only [hid] at htrack
          cases htrack
      | some hinted =>
          have hmem : hinted ∈ t.tracks := List.mem_of_find?_eq_some hid
          simp only [hid, pure_bind] at htrack
          cases medium with
          | video =>
              simp only at htrack
              split at htrack
              · rename_i hkind
                cases htrack
                exact ⟨hmem, by rw [hkind]; rfl⟩
              · cases htrack
          | audio =>
              simp only at htrack
              split at htrack
              · rename_i hsound
                cases htrack
                refine ⟨hmem, ?_⟩
                cases hkind : track.kind with
                | video => simp [hkind, TrackKind.bearsAudio] at hsound
                | audio => rfl
                | av => rfl
              · exact trackFor_first_spec rfl htrack

omit [Scalar α] in
theorem trackFor_first_error {medium : Medium} {kind : TrackKind} {refusal : Refusal α}
    (h : trackFor.first t medium kind = .error refusal) : refusal = .noTrackFor medium := by
  unfold trackFor.first at h
  split at h
  · cases h
  · cases h
    rfl

omit [Scalar α] in
/-- A medium is refused a track for one of three reasons. -/
theorem trackFor_error {medium : Medium} {hint : Option TrackId} {refusal : Refusal α}
    (h : t.trackFor medium hint = .error refusal) :
    (∃ id, refusal = .trackNotFound id) ∨
      (∃ track ∈ t.tracks, refusal = .wrongTrackKind track.id track.kind medium) ∨
        refusal = .noTrackFor medium := by
  unfold trackFor at h
  cases hint with
  | none =>
      cases medium with
      | video => exact .inr (.inr (trackFor_first_error h))
      | audio => exact .inr (.inr (trackFor_first_error h))
  | some id =>
      cases hid : t.track? id with
      | none =>
          simp only [hid] at h
          cases h
          exact .inl ⟨id, rfl⟩
      | some hinted =>
          simp only [hid, pure_bind] at h
          cases medium with
          | video =>
              simp only at h
              split at h
              · cases h
              · cases h
                exact .inr (.inl ⟨hinted, List.mem_of_find?_eq_some hid, rfl⟩)
          | audio =>
              simp only at h
              split at h
              · cases h
              · exact .inr (.inr (trackFor_first_error h))
/-- What a site has passed. -/
structure SiteFound (t : Timeline α) (asset : Asset α) (drop : Drop α)
    (settings : EditorSettings α) (site : Site α) : Prop where
  long : settings.tolerance < asset.duration
  target_mem : site.target ∈ t.tracks
  accepts : site.target.kind.accepts asset.medium = true
  partner_eq : site.partner = match asset.medium with
    | .video => t.firstOfKind? .av
    | .audio => none
  start_eq : site.start = startOf site.target site.partner drop settings
  free :
    site.target.overlapping (Span.ofLength site.start asset.duration) settings.tolerance [] = []
  partner_free : ∀ track, site.partner = some track →
    track.overlapping (Span.ofLength site.start asset.duration) settings.tolerance [] = []

theorem findSite_spec {asset : Asset α} {hint : Option TrackId} {drop : Drop α} {site : Site α}
    (hsite : t.findSite asset hint drop settings = .ok site) :
    t.SiteFound asset drop settings site := by
  unfold findSite at hsite
  extract_lets partner search checkDrop at hsite
  by_cases hlong : settings.tolerance < asset.duration
  · rw [if_neg (by simpa using hlong)] at hsite
    have hsearch : search () = .ok site := by
      cases drop with
      | instant at_ =>
          by_cases hfinite : (!Scalar.isFinite at_) = true
          · simp only [checkDrop, if_pos hfinite] at hsite
            cases hsite
          · simpa only [checkDrop, if_neg hfinite] using hsite
      | append => exact hsite
    simp only [search] at hsearch
    cases htarget : t.trackFor asset.medium hint with
    | error refusal =>
        rw [htarget] at hsearch
        cases hsearch
    | ok target =>
        rw [htarget] at hsearch
        simp only [bind, Except.bind] at hsearch
        split at hsearch
        · cases hsearch
        cases hfree : checkFree target
            (Span.ofLength (startOf target partner drop settings) asset.duration)
            settings.tolerance [] with
        | error refusal => simp [hfree] at hsearch
        | ok =>
            obtain ⟨hmem, haccepts⟩ := trackFor_spec htarget
            rw [hfree] at hsearch
            simp only at hsearch
            -- The site that is returned, once the partner's track is checked as well.
            have hfound : (∀ track, partner = some track → track.overlapping
                (Span.ofLength (startOf target partner drop settings) asset.duration)
                settings.tolerance [] = []) ∧
                site = ⟨target, partner, startOf target partner drop settings⟩ := by
              cases hpartner : partner with
              | none =>
                  simp only [hpartner] at hsearch
                  cases hsearch
                  exact ⟨by simp, rfl⟩
              | some track =>
                  simp only [hpartner] at hsearch
                  split at hsearch
                  · cases hsearch
                  · rename_i hpartnerFree
                    cases hsearch
                    refine ⟨?_, rfl⟩
                    rintro _ ⟨⟩
                    exact checkFree_eq_ok_iff.1 hpartnerFree
            obtain ⟨hpartnerFree, rfl⟩ := hfound
            exact ⟨hlong, hmem, haccepts, rfl, rfl, checkFree_eq_ok_iff.1 hfree, hpartnerFree⟩
  · rw [if_pos (by simpa using hlong)] at hsite
    cases hsite

/-- Only a video asset has a partner's track, and the tracks are of different kinds then. -/
theorem SiteFound.partner_spec {asset : Asset α} {drop : Drop α} {site : Site α}
    (h : t.SiteFound asset drop settings site) {track : Track α}
    (hpartner : site.partner = some track) :
    asset.medium = .video ∧ site.target.kind = .video ∧ track ∈ t.tracks ∧ track.kind = .av := by
  have hpartnerEq := h.partner_eq
  rw [hpartner] at hpartnerEq
  cases hmedium : asset.medium with
  | audio => simp [hmedium] at hpartnerEq
  | video =>
      simp only [hmedium] at hpartnerEq
      have hkind : site.target.kind = .video := by
        have haccepts := h.accepts
        rw [hmedium] at haccepts
        cases hkind : site.target.kind with
        | video => rfl
        | audio => simp [hkind, TrackKind.accepts, TrackKind.medium] at haccepts
        | av => simp [hkind, TrackKind.accepts, TrackKind.medium] at haccepts
      exact ⟨rfl, hkind, List.mem_of_find?_eq_some hpartnerEq.symm,
        by simpa using List.find?_some hpartnerEq.symm⟩

/-- What a placement that succeeds has done. -/
theorem place_spec {asset : Asset α} {hint : Option TrackId} {drop : Drop α} {placed : Placed α}
    (hplace : t.place asset hint drop settings ids = (.ok (placed, next), left)) :
    ∃ site, t.findSite asset hint drop settings = .ok site ∧
      t.insertAll (clipsAt site asset settings.mediaRoot ids.next (ids.skip 1).next)
        .placementRejected = .ok next ∧
      placed = ⟨ids.next, site.partner.map fun _ => (ids.skip 1).next, site.target.id, site.start⟩ ∧
      left =
        ids.skip (clipsAt site asset settings.mediaRoot ids.next (ids.skip 1).next).length := by
  unfold place at hplace
  cases hsite : t.findSite asset hint drop settings with
  | error refusal =>
      rw [hsite] at hplace
      cases hplace
  | ok site =>
      rw [hsite] at hplace
      simp only [IdSupply.take] at hplace
      obtain ⟨hnext, hleft⟩ := Prod.mk.inj hplace
      cases hinsert : t.insertAll (clipsAt site asset settings.mediaRoot ids.next (ids.skip 1).next)
        .placementRejected with
      | error refusal =>
          rw [hinsert] at hnext
          cases hnext
      | ok result =>
          rw [hinsert] at hnext
          cases hnext
          refine ⟨site, rfl, hinsert, rfl, ?_⟩
          rw [← hleft]
          unfold clipsAt
          cases site.partner <;> rfl

theorem place_revision (h : t.InStep) {asset : Asset α} {hint : Option TrackId} {drop : Drop α}
    {placed : Placed α}
    (hplace : t.place asset hint drop settings ids = (.ok (placed, next), left)) :
    ∃ site, t.findSite asset hint drop settings = .ok site ∧
      t.Revision (fun _ => true) (fun clip => clip)
        (clipsAt site asset settings.mediaRoot ids.next (ids.skip 1).next) next ∧
      left =
        ids.skip (clipsAt site asset settings.mediaRoot ids.next (ids.skip 1).next).length := by
  obtain ⟨site, hsite, hinsert, _, hleft⟩ := place_spec hplace
  exact ⟨site, hsite, (insertAll_revision h hinsert).1, hleft⟩

/-! ## Splitting -/

/-- What a split cuts: a clip that stands alone, or a clip and the partner that it links to. -/
theorem toCut_spec (h : t.InStep) {id : ClipId} {instant ε : α} {clips : List (Clip α)}
    (hcut : t.toCut id instant ε = .ok clips) (hne : clips ≠ []) :
    ∃ clip ∈ t.clips, clip.id = id ∧ cutsCleanly clip.span instant ε = true ∧
      ((clip.link = none ∧ clips = [clip]) ∨
        ∃ partner ∈ t.clips, clip.link = some partner.id ∧
          cutsCleanly partner.span instant ε = true ∧ clips = [clip, partner]) := by
  unfold toCut at hcut
  split at hcut
  · cases hcut
  rename_i clip hclip
  obtain ⟨hmem, hid⟩ := h.clip?_eq_some_iff.1 hclip
  split at hcut
  · cases hcut
    exact absurd rfl hne
  rename_i hclean
  have hclean : cutsCleanly clip.span instant ε = true := by simpa using hclean
  refine ⟨clip, hmem, hid, hclean, ?_⟩
  split at hcut
  · rename_i hlink
    cases hcut
    exact .inl ⟨hlink, rfl⟩
  rename_i link hlink
  split at hcut
  · cases hcut
  rename_i partner hpartner
  obtain ⟨hpartnerMem, rfl⟩ := h.clip?_eq_some_iff.1 hpartner
  split at hcut
  · rename_i hpartnerClean
    cases hcut
    exact .inr ⟨partner, hpartnerMem, hlink, hpartnerClean, rfl⟩
  · cases hcut

theorem toCut_clean (h : t.InStep) {id : ClipId} {instant ε : α} {clips : List (Clip α)}
    (hcut : t.toCut id instant ε = .ok clips) (hne : clips ≠ []) :
    ∀ clip ∈ clips, clip ∈ t.clips ∧ cutsCleanly clip.span instant ε = true := by
  obtain ⟨clip, hclip, _, hclean, hclips⟩ := toCut_spec h hcut hne
  rcases hclips with ⟨_, rfl⟩ | ⟨partner, hpartner, _, hpartnerClean, rfl⟩
  · simpa using ⟨hclip, hclean⟩
  · simpa using ⟨⟨hclip, hclean⟩, hpartner, hpartnerClean⟩

theorem mem_rightHalves {clips : List (Clip α)} {instant : α} {id partnerId : ClipId}
    {half : Clip α} (hhalf : half ∈ rightHalves clips instant id partnerId) :
    ∃ clip ∈ clips, half = { rightHalf clip instant half.id with link := half.link } := by
  match clips, hhalf with
  | [clip], hhalf =>
      obtain rfl := List.mem_singleton.1 hhalf
      exact ⟨clip, List.mem_singleton_self _, rfl⟩
  | clip :: partner :: _, hhalf =>
      simp only [rightHalves, List.mem_cons, List.not_mem_nil, or_false] at hhalf
      rcases hhalf with rfl | rfl
      · exact ⟨clip, List.mem_cons_self, rfl⟩
      · exact ⟨partner, List.mem_cons_of_mem _ List.mem_cons_self, rfl⟩

omit [Scalar α] in
/-- The clip with its end at the instant, if it is one of those with the given ids. -/
def cutShort (ids : List ClipId) (instant : α) (clip : Clip α) : Clip α :=
  if clip.id ∈ ids then { clip with stop := instant } else clip

omit [Scalar α] in
theorem shorten_revision (h : t.InStep) (clips : List (Clip α)) (instant : α) :
    t.Revision (fun _ => true) (cutShort (clips.map Clip.id) instant) []
      (t.shorten clips instant) :=
  (foldl_modify_revision h Clip.id (fun _ c => { c with stop := instant }) clips).congr
    (fun _ _ => rfl)
    (fun clip _ => amendAll_const Clip.id (fun c => { c with stop := instant })
      (fun _ => ⟨rfl, rfl⟩) (fun _ => rfl) clips clip) rfl

/-- What a split that cuts something has done. -/
theorem split_spec {id : ClipId} {instant ε : α} {rights : List ClipId}
    (hsplit : t.split id instant ε ids = (.ok (some (rights, next)), left)) :
    ∃ clips, t.toCut id instant ε = .ok clips ∧ clips ≠ [] ∧
      (t.shorten clips instant).insertAll (rightHalves clips instant ids.next (ids.skip 1).next)
        .splitRejected = .ok next ∧
      rights = (rightHalves clips instant ids.next (ids.skip 1).next).map Clip.id ∧
      left = ids.skip (rightHalves clips instant ids.next (ids.skip 1).next).length := by
  unfold split at hsplit
  split at hsplit
  · cases hsplit
  · cases hsplit
  rename_i clips hne hcut
  obtain ⟨hnext, hleft⟩ := Prod.mk.inj hsplit
  cases hinsert : (t.shorten clips instant).insertAll
      (rightHalves clips instant ids.next (ids.skip 1).next) .splitRejected with
  | error refusal =>
      rw [hinsert] at hnext
      cases hnext
  | ok result =>
      rw [hinsert] at hnext
      cases hnext
      exact ⟨clips, hcut, hne, hinsert, rfl, hleft.symm⟩

theorem split_revision (h : t.InStep) {id : ClipId} {instant ε : α} {rights : List ClipId}
    (hsplit : t.split id instant ε ids = (.ok (some (rights, next)), left)) :
    ∃ clips, t.toCut id instant ε = .ok clips ∧ clips ≠ [] ∧
      t.Revision (fun _ => true) (cutShort (clips.map Clip.id) instant)
        (rightHalves clips instant ids.next (ids.skip 1).next) next ∧
      left = ids.skip (rightHalves clips instant ids.next (ids.skip 1).next).length := by
  obtain ⟨clips, hcut, hne, hinsert, _, hleft⟩ := split_spec hsplit
  have hshort := shorten_revision h clips instant
  have hboth := hshort.trans (insertAll_revision hshort.inStep hinsert).1 fun _ => rfl
  refine ⟨clips, hcut, hne, ?_, hleft⟩
  exact hboth.congr (fun _ _ => rfl) (fun _ _ => rfl) (by simp)

/-! ## Deleting and adjusting -/

omit [Scalar α] in
/-- What a removal that succeeds has done. -/
theorem delete_spec {selection : ClipSet} {removed : List ClipId}
    (hdelete : t.delete selection = .ok (removed, next)) :
    ∃ closed, t.linkClosure selection.toList = .ok closed ∧ removed = closed.toList ∧
      next = closed.toList.foldl erase t := by
  unfold delete at hdelete
  cases hclosure : t.linkClosure selection.toList with
  | error refusal =>
      rw [hclosure] at hdelete
      cases hdelete
  | ok closed =>
      rw [hclosure] at hdelete
      cases hdelete
      exact ⟨closed, rfl, rfl, rfl⟩

omit [Scalar α] in
theorem delete_revision (h : t.InStep) {selection : ClipSet} {removed : List ClipId}
    (hdelete : t.delete selection = .ok (removed, next)) :
    ∃ closed, t.linkClosure selection.toList = .ok closed ∧ removed = closed.toList ∧
      t.Revision (·.id ∉ closed.toList) (fun clip => clip) [] next := by
  obtain ⟨closed, hclosed, hremoved, rfl⟩ := delete_spec hdelete
  exact ⟨closed, hclosed, hremoved, foldl_erase_revision h closed.toList⟩

/-- What setting a volume has done. -/
theorem setVolume_spec {id : ClipId} {volume : α} (hset : t.setVolume id volume = .ok next) :
    Scalar.isFinite volume = true ∧ (¬ volume < 0) ∧
      next = t.modify id fun c => { c with volume := volume } := by
  unfold setVolume at hset
  split at hset
  · cases hset
  rename_i hvalue
  simp only [Bool.or_eq_true, Bool.not_eq_true', decide_eq_true_eq, not_or,
    Bool.not_eq_false] at hvalue
  split at hset
  · cases hset
  cases hset
  exact ⟨hvalue.1, hvalue.2, rfl⟩

theorem setVolume_revision (h : t.InStep) {id : ClipId} {volume : α}
    (hset : t.setVolume id volume = .ok next) :
    ¬ volume < 0 ∧
      t.Revision (fun _ => true) (amend id fun c => { c with volume := volume }) [] next := by
  obtain ⟨_, hvolume, rfl⟩ := setVolume_spec hset
  exact ⟨hvolume, modify_revision h id _⟩

omit [Scalar α] in
/-- The clip at another speed, if it is one of those with the given ids. -/
def retime (ids : List ClipId) (speed : α) (clip : Clip α) : Clip α :=
  if clip.id ∈ ids then { clip with speed := speed } else clip

/-- What setting a speed has done, to a clip and to what it links to. -/
theorem setSpeed_spec {id : ClipId} {speed : α} (hset : t.setSpeed id speed = .ok next) :
    Scalar.isFinite speed = true ∧ (¬ speed ≤ 0) ∧ ∃ clip, t.clip? id = some clip ∧
      next = (clip.id :: clip.link.toList).foldl
        (fun t id => t.modify id fun c => { c with speed := speed }) t := by
  unfold setSpeed at hset
  split at hset
  · cases hset
  rename_i hvalue
  simp only [Bool.or_eq_true, Bool.not_eq_true', decide_eq_true_eq, not_or,
    Bool.not_eq_false] at hvalue
  split at hset
  · cases hset
  rename_i clip hclip
  refine ⟨hvalue.1, hvalue.2, clip, hclip, ?_⟩
  simp only at hset
  split at hset
  · rename_i hlink
    cases hset
    rw [hlink]
    rfl
  rename_i link hlink
  split at hset
  · cases hset
  cases hset
  rw [hlink]
  rfl

theorem setSpeed_revision (h : t.InStep) {id : ClipId} {speed : α}
    (hset : t.setSpeed id speed = .ok next) :
    ¬ speed ≤ 0 ∧ ∃ clip ∈ t.clips, clip.id = id ∧
      t.Revision (fun _ => true) (retime (clip.id :: clip.link.toList) speed) [] next := by
  obtain ⟨_, hspeed, clip, hclip, rfl⟩ := setSpeed_spec hset
  obtain ⟨hmem, hid⟩ := h.clip?_eq_some_iff.1 hclip
  refine ⟨hspeed, clip, hmem, hid, ?_⟩
  refine (foldl_modify_revision h (fun id => id) (fun _ c => { c with speed := speed })
    (clip.id :: clip.link.toList)).congr (fun _ _ => rfl) (fun other _ => ?_) rfl
  rw [amendAll_const _ (fun c => { c with speed := speed }) (fun _ => ⟨rfl, rfl⟩) (fun _ => rfl),
    List.map_id']
  rfl

/-! ## Releasing a drag -/

/-- The clip where a release puts it. -/
def dropped (held : List (Held α)) (delta : α) (clip : Clip α) : Clip α :=
  match held.find? (·.clip = clip.id) with
  | some h => { clip with start := h.start + delta, stop := h.stop + delta }
  | none => clip

theorem shifted_revision (h : t.InStep) {drag : Drag α} (hnodup : drag.ids.Nodup) (delta : α) :
    t.Revision (fun _ => true) (dropped drag.held delta) [] (drag.shifted t delta) := by
  refine (foldl_modify_revision h Held.clip
    (fun held c => { c with start := held.start + delta, stop := held.stop + delta })
    drag.held).congr (fun _ _ => rfl) (fun clip _ => ?_) rfl
  rw [amendAll_eq_find? _ hnodup]
  unfold dropped
  cases drag.held.find? (·.clip = clip.id) <;> rfl

theorem checkHeld_spec {drag : Drag α} {delta ε : α} {held : Held α}
    (hcheck : drag.checkHeld t delta ε held = .ok ()) :
    (∃ clip, t.clip? held.clip = some clip) ∧ ∃ track, t.track? held.track = some track ∧
      (held.span.shift delta).start < (held.span.shift delta).stop ∧
      track.overlapping (held.span.shift delta) ε drag.ids = [] := by
  unfold Drag.checkHeld at hcheck
  cases hclip : t.clip? held.clip with
  | none =>
      rw [hclip] at hcheck
      cases hcheck
  | some clip =>
      refine ⟨⟨clip, rfl⟩, ?_⟩
      cases htrack : t.track? held.track with
      | none =>
          rw [hclip, htrack] at hcheck
          cases hcheck
      | some track =>
          simp only [hclip, htrack, Option.isNone_some] at hcheck
          by_cases hspan : (held.span.shift delta).start < (held.span.shift delta).stop
          · refine ⟨track, rfl, hspan, checkFree_eq_ok_iff.1 ?_⟩
            simpa [hspan] using hcheck
          · simp [hspan, bind, Except.bind, throw, throwThe, MonadExceptOf.throw] at hcheck

/-- A clip that is there and takes time, on a track that is there, leaves one check: its new place. -/
theorem checkHeld_eq_checkFree {drag : Drag α} {delta ε : α} {held : Held α} {track : Track α}
    (hclip : (t.clip? held.clip).isSome) (htrack : t.track? held.track = some track)
    (hspan : (held.span.shift delta).start < (held.span.shift delta).stop) :
    drag.checkHeld t delta ε held = checkFree track (held.span.shift delta) ε drag.ids := by
  obtain ⟨clip, hfound⟩ := Option.isSome_iff_exists.1 hclip
  simp [Drag.checkHeld, hfound, htrack, hspan]

theorem release_of_checks {drag : Drag α} (hfinite : Scalar.isFinite drag.delta = true)
    (hchecks : drag.held.forM (drag.checkHeld t drag.feasibleDelta settings.tolerance) = .ok ()) :
    drag.release t settings = .moved (drag.shifted t drag.feasibleDelta) drag.feasibleDelta := by
  simp [Drag.release, Drag.verdict, hfinite, hchecks, bind, Except.bind, pure, Except.pure]

theorem release_of_error {drag : Drag α} (hfinite : Scalar.isFinite drag.delta = true)
    {reason : Refusal α} (hchecks : drag.held.forM
      (drag.checkHeld t drag.feasibleDelta settings.tolerance) = .error reason) :
    drag.release t settings = .snappedBack reason := by
  simp [Drag.release, Drag.verdict, hfinite, hchecks, bind, Except.bind]

theorem release_of_not_finite {drag : Drag α} (hdelta : Scalar.isFinite drag.delta = false) :
    drag.release t settings = .snappedBack (.invalidValue .delta drag.delta) := by
  simp [Drag.release, Drag.verdict, hdelta]

/-- What a release that moves clips has done. -/
theorem release_spec {drag : Drag α} {delta : α}
    (hrelease : drag.release t settings = .moved next delta) :
    delta = drag.feasibleDelta ∧
      (∀ held ∈ drag.held, drag.checkHeld t delta settings.tolerance held = .ok ()) ∧
      next = drag.shifted t delta := by
  unfold Drag.release Drag.verdict at hrelease
  split at hrelease
  · rename_i delta' hverdict
    cases hrelease
    split at hverdict
    · cases hchecks : drag.held.forM (drag.checkHeld t drag.feasibleDelta settings.tolerance) with
      | error refusal =>
          simp [hchecks, bind, Except.bind] at hverdict
      | ok =>
          simp only [hchecks, bind, Except.bind, pure, Except.pure, Except.ok.injEq] at hverdict
          subst hverdict
          exact ⟨rfl, forM_eq_ok_iff.1 hchecks, rfl⟩
    · cases hverdict
  · cases hrelease

theorem release_revision (h : t.InStep) {drag : Drag α} (hnodup : drag.ids.Nodup) {delta : α}
    (hrelease : drag.release t settings = .moved next delta) :
    delta = drag.feasibleDelta ∧
      (∀ held ∈ drag.held, drag.checkHeld t delta settings.tolerance held = .ok ()) ∧
      t.Revision (fun _ => true) (dropped drag.held delta) [] next := by
  obtain ⟨hdelta, hchecks, rfl⟩ := release_spec hrelease
  exact ⟨hdelta, hchecks, shifted_revision h hnodup delta⟩

/-! ## Merging -/

/-- What a plan is of: unlinked clips of one track as they stand, the first at its origin. -/
structure PlanOf (t : Timeline α) (plan : MergePlan α) : Prop where
  onTrack : ∃ track ∈ t.tracks, track.id = plan.track ∧ track.kind = plan.kind
  current : ∀ planned ∈ plan.clips,
    t.clip? planned.id = some planned ∧ planned.track = plan.track ∧ planned.link = none
  origin_mem : ∃ planned ∈ plan.clips, planned.start = plan.origin

omit [Scalar α] in
theorem mergeable_spec {track : Track α} {id : ClipId} {clip : Clip α}
    (hmergeable : t.mergeable track id = .ok clip) :
    t.clip? id = some clip ∧ clip.track = track.id ∧ clip.link = none := by
  unfold mergeable at hmergeable
  split at hmergeable
  · cases hmergeable
  rename_i clip hclip
  split at hmergeable
  · cases hmergeable
  rename_i hon
  split at hmergeable
  · cases hmergeable
  rename_i hlink
  cases hmergeable
  exact ⟨hclip, Decidable.not_not.1 hon, hlink⟩

/-- The clips to merge are found under their ids, two at least, and then sorted. -/
theorem exists_of_runOf {id : TrackId} {ids : List ClipId} {track : Track α} {run : List (Clip α)}
    (hrun : t.runOf id ids = .ok (track, run)) :
    t.track? id = some track ∧ 2 ≤ (Std.ExtTreeSet.ofList ids compare).toList.length ∧
      ∃ sources, (Std.ExtTreeSet.ofList ids compare).toList.mapM (t.mergeable track) = .ok sources ∧
        run = sources.mergeSort fun a b => Scalar.totalLe a.start b.start := by
  unfold runOf at hrun
  cases htrack : t.track? id with
  | none =>
      rw [htrack] at hrun
      cases hrun
  | some found =>
      rw [htrack] at hrun
      simp only at hrun
      by_cases hfew : (Std.ExtTreeSet.ofList ids compare).toList.length < 2
      · rw [if_pos hfew] at hrun
        cases hrun
      rw [if_neg hfew] at hrun
      cases hclips : (Std.ExtTreeSet.ofList ids compare).toList.mapM (t.mergeable found) with
      | error refusal =>
          rw [hclips] at hrun
          cases hrun
      | ok sources =>
          rw [hclips] at hrun
          cases hrun
          exact ⟨rfl, Nat.le_of_not_lt hfew, sources, hclips, rfl⟩

/-- The clips to merge are those that were asked for, two at least. -/
theorem runOf_spec {id : TrackId} {ids : List ClipId} {track : Track α} {run : List (Clip α)}
    (hrun : t.runOf id ids = .ok (track, run)) :
    t.track? id = some track ∧ 2 ≤ run.length ∧
      (∀ planned ∈ run, ∃ source ∈ ids, t.mergeable track source = .ok planned) ∧
      ∀ source ∈ ids, ∃ planned ∈ run, t.mergeable track source = .ok planned := by
  obtain ⟨htrack, hmany, sources, hclips, rfl⟩ := exists_of_runOf hrun
  obtain ⟨hlength, hmem, hall⟩ := mapM_ok hclips
  have hunique (source : ClipId) :
      source ∈ (Std.ExtTreeSet.ofList ids compare).toList ↔ source ∈ ids := by
    rw [Std.ExtTreeSet.mem_toList, Std.ExtTreeSet.mem_ofList, List.contains_iff_mem]
  refine ⟨htrack, ?_, fun planned hplanned => ?_, fun source hsource => ?_⟩
  · rw [List.length_mergeSort]
    omega
  · obtain ⟨source, hsource, heq⟩ := hmem planned (List.mem_mergeSort.1 hplanned)
    exact ⟨source, (hunique source).1 hsource, heq⟩
  · obtain ⟨planned, hplanned, heq⟩ := hall source ((hunique source).2 hsource)
    exact ⟨planned, List.mem_mergeSort.2 hplanned, heq⟩

theorem planMerge_spec {id : TrackId} {clips : List ClipId} {plan : MergePlan α}
    (hplan : (t.planMerge id clips ids).1 = .ok plan) :
    ∃ track run, t.runOf id clips = .ok (track, run) ∧
      let origin := (run.head?.map Clip.start).getD 0
      plan = ⟨track.id, track.kind, run, origin, mergeRequest track run origin ids.next⟩ := by
  unfold planMerge at hplan
  split at hplan
  · cases hplan
  · rename_i track run hrun
    exact ⟨track, run, hrun, (Except.ok.inj hplan).symm⟩

theorem planOf_of_planMerge (h : t.InStep) {id : TrackId} {clips : List ClipId}
    {plan : MergePlan α} (hplan : (t.planMerge id clips ids).1 = .ok plan) : t.PlanOf plan := by
  obtain ⟨track, run, hrun, rfl⟩ := planMerge_spec hplan
  obtain ⟨htrack, hlength, hsources, _⟩ := runOf_spec hrun
  refine ⟨⟨track, List.mem_of_find?_eq_some htrack, rfl, rfl⟩, fun planned hplanned => ?_, ?_⟩
  · obtain ⟨source, _, hsource⟩ := hsources planned hplanned
    obtain ⟨hclip, hon, hlink⟩ := mergeable_spec hsource
    obtain ⟨hmem, _⟩ := h.clip?_eq_some_iff.1 hclip
    exact ⟨h.clip?_id hmem, hon, hlink⟩
  · obtain ⟨first, rest, hfirst⟩ := List.exists_cons_of_length_pos (Nat.zero_lt_of_lt hlength)
    exact ⟨first, by simp [hfirst], by simp [hfirst]⟩

omit [Scalar α] in
theorem mapM_mergeable {track : Track α} {names : List ClipId} {run : List (Clip α)}
    (hclips : names.map t.clip? = run.map some)
    (hfree : ∀ clip ∈ run, clip.track = track.id ∧ clip.link = none) :
    names.mapM (t.mergeable track) = .ok run := by
  induction names generalizing run with
  | nil =>
      obtain rfl : run = [] := by simpa using hclips.symm
      rfl
  | cons id names ih =>
      obtain ⟨clip, rest, rfl, hclip, hrest⟩ := List.map_eq_cons_iff.1 hclips.symm
      obtain ⟨⟨htrack, hlink⟩, hfree⟩ := List.forall_mem_cons.1 hfree
      have hfirst : t.mergeable track id = .ok clip := by
        simp only [mergeable, ← hclip, htrack, ne_eq, not_true, if_false, hlink]
      rw [List.mapM_cons, hfirst, ih hrest.symm hfree]
      rfl

/-- The plan for clips that are named in the order of their ids and stand in that order. -/
theorem planMerge_of_sorted {id : TrackId} {names : List ClipId} {track : Track α}
    {run : List (Clip α)} {origin : α} {name : String} (htrack : t.track? id = some track)
    (hnames : (Std.ExtTreeSet.ofList names compare).toList = names) (hmany : 2 ≤ names.length)
    (hclips : names.map t.clip? = run.map some)
    (hfree : ∀ clip ∈ run, clip.track = track.id ∧ clip.link = none)
    (hsorted : run.Pairwise fun a b => Scalar.totalLe a.start b.start = true)
    (horigin : run.head?.map Clip.start = some origin) (hname : ids.next = name) :
    (t.planMerge id names ids).1 =
      .ok ⟨track.id, track.kind, run, origin, mergeRequest track run origin name⟩ := by
  have hrun : t.runOf id names = .ok (track, run) := by
    unfold runOf
    rw [htrack]
    simp only [hnames, mapM_mergeable hclips hfree]
    rw [if_neg (Nat.not_lt.2 hmany)]
    exact congrArg (fun run => Except.ok (track, run)) (List.mergeSort_of_pairwise hsorted)
  simp only [planMerge, hrun, horigin, hname, Option.getD_some]

/-- A plan is of the clips that were asked for. -/
theorem planMerge_mem_ids (h : t.InStep) {track : TrackId} {clips : List ClipId}
    {plan : MergePlan α} (hplan : (t.planMerge track clips ids).1 = .ok plan) (id : ClipId) :
    id ∈ plan.ids ↔ id ∈ clips := by
  obtain ⟨_, _, hrun, rfl⟩ := planMerge_spec hplan
  obtain ⟨_, _, hsources, hall⟩ := runOf_spec hrun
  have hid {source : ClipId} {planned : Clip α} {found : Track α}
      (hsource : t.mergeable found source = .ok planned) : planned.id = source :=
    (h.clip?_eq_some_iff.1 (mergeable_spec hsource).1).2
  rw [MergePlan.ids, List.mem_map]
  constructor
  · rintro ⟨planned, hplanned, rfl⟩
    obtain ⟨source, hmem, hsource⟩ := hsources planned hplanned
    rwa [hid hsource]
  · intro hmem
    obtain ⟨planned, hplanned, hsource⟩ := hall id hmem
    exact ⟨planned, hplanned, hid hsource⟩

/-- A planned clip that passes its check is still there, unlinked, and plays when it did. -/
theorem checkCurrent_spec {planned : Clip α} (hcheck : t.checkCurrent planned = .ok ()) :
    ∃ current, t.clip? planned.id = some current ∧ current.track = planned.track ∧
      current.span.same planned.span = true ∧ current.link = none := by
  unfold checkCurrent at hcheck
  split at hcheck
  · cases hcheck
  rename_i current hcurrent
  split at hcheck
  · rename_i hsame
    simp only [Bool.and_eq_true, decide_eq_true_eq, Clip.isLinked, Bool.not_eq_true',
      Option.isSome_eq_false_iff, Option.isNone_iff_eq_none] at hsame
    exact ⟨current, hcurrent, hsame.1.1, hsame.1.2, hsame.2⟩
  · cases hcheck

theorem checkMerge_spec {plan : MergePlan α} {asset : Asset α}
    (hcheck : t.checkMerge plan asset settings = .ok ()) :
    settings.tolerance < asset.duration ∧
      (∀ planned ∈ plan.clips, t.checkCurrent planned = .ok ()) ∧
      ∃ track, t.track? plan.track = some track ∧
        track.overlapping (Span.ofLength plan.origin asset.duration) settings.tolerance plan.ids
          = [] := by
  unfold checkMerge at hcheck
  by_cases hduration : settings.tolerance < asset.duration
  · cases hcurrent : plan.clips.forM t.checkCurrent with
    | error refusal =>
        simp [hduration, hcurrent, bind, Except.bind] at hcheck
    | ok =>
        cases htrack : t.track? plan.track with
        | none =>
            simp [hduration, hcurrent, htrack, bind, Except.bind, throw, throwThe,
              MonadExceptOf.throw] at hcheck
        | some track =>
            refine ⟨hduration, forM_eq_ok_iff.1 hcurrent, track, rfl, checkFree_eq_ok_iff.1 ?_⟩
            simpa [hduration, hcurrent, htrack, bind, Except.bind] using hcheck
  · simp [hduration, bind, Except.bind, throw, throwThe, MonadExceptOf.throw] at hcheck

/-- Planned clips that are as they were leave one check: whether the rendering fits. -/
theorem checkMerge_eq_checkFree {plan : MergePlan α} {asset : Asset α}
    (hduration : settings.tolerance < asset.duration)
    (hcurrent : ∀ planned ∈ plan.clips, t.checkCurrent planned = .ok ()) {track : Track α}
    (htrack : t.track? plan.track = some track) :
    t.checkMerge plan asset settings =
      checkFree track (Span.ofLength plan.origin asset.duration) settings.tolerance plan.ids := by
  simp [checkMerge, hduration, forM_eq_ok_iff.2 hcurrent, htrack, bind, Except.bind]

theorem applyMerge_of_error {plan : MergePlan α} {asset : Asset α} {refusal : Refusal α}
    (hcheck : t.checkMerge plan asset settings = .error refusal) :
    t.applyMerge plan asset settings ids = (.error refusal, ids) := by
  unfold applyMerge
  rw [hcheck]

/-- What a merge that succeeds has done. -/
theorem applyMerge_spec {plan : MergePlan α} {asset : Asset α} {merged : ClipId}
    (hmerge : t.applyMerge plan asset settings ids = (.ok (merged, next), left)) :
    t.checkMerge plan asset settings = .ok () ∧
      (plan.ids.foldl erase t).insertAll [mergedClip plan asset settings.mediaRoot ids.next]
        .mergeRejected = .ok next ∧
      merged = ids.next ∧ left = ids.skip 1 := by
  unfold applyMerge at hmerge
  split at hmerge
  · cases hmerge
  rename_i hcheck
  obtain ⟨hnext, hleft⟩ := Prod.mk.inj hmerge
  cases hinsert : (plan.ids.foldl erase t).insertAll
      [mergedClip plan asset settings.mediaRoot ids.next] .mergeRejected with
  | error refusal =>
      rw [hinsert] at hnext
      cases hnext
  | ok result =>
      rw [hinsert] at hnext
      cases hnext
      exact ⟨hcheck, rfl, rfl, hleft.symm⟩

theorem applyMerge_revision (h : t.InStep) {plan : MergePlan α} {asset : Asset α}
    {merged : ClipId} (hmerge : t.applyMerge plan asset settings ids = (.ok (merged, next), left)) :
    t.checkMerge plan asset settings = .ok () ∧
      t.Revision (·.id ∉ plan.ids) (fun clip => clip)
        [mergedClip plan asset settings.mediaRoot ids.next] next ∧
      merged = ids.next ∧ left = ids.skip 1 := by
  obtain ⟨hcheck, hinsert, hmerged, hleft⟩ := applyMerge_spec hmerge
  have herased := foldl_erase_revision h plan.ids
  have hboth := herased.trans (insertAll_revision herased.inStep hinsert).1 fun _ => rfl
  refine ⟨hcheck, ?_, hmerged, hleft⟩
  exact hboth.congr (fun _ _ => by simp) (fun _ _ => rfl) (by simp)

end Timeline

end Montage
