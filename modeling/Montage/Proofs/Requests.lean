import Montage.Proofs.Deletions
import Montage.Proofs.Gaps

/-!
# Requests for a rendering

A merge is planned for a set of clips: in what order they are named, and how often, makes no
difference. The render service is asked for these clips alone, in the order of their starts and the
first one at zero, and the request breaks no rule if the timeline breaks none.
-/

namespace Montage

/-! ## Clips in order -/

/-- One clip starts before another, or with it and under a lesser id. -/
def Clip.Precedes (a b : Clip Rat) : Prop :=
  a.start < b.start ∨ a.start = b.start ∧ a.id < b.id

/-- The clip, so much earlier. -/
def Clip.earlier (clip : Clip Rat) (delta : Rat) : Clip Rat :=
  { clip with start := clip.start - delta, stop := clip.stop - delta }

/-- The times between the stop of each clip and the start of the next one. -/
def gapsOf (run : List (Clip Rat)) : List Rat :=
  run.zipWith (fun clip next => next.start - clip.stop) run.tail

theorem Clip.Precedes.ne {a b : Clip Rat} (h : a.Precedes b) : a ≠ b := by
  rintro rfl
  rcases h with hstart | ⟨_, hid⟩
  · exact lt_irrefl _ hstart
  · exact lt_irrefl _ hid

theorem Clip.earlier_span (clip : Clip Rat) (delta : Rat) :
    (clip.earlier delta).span = clip.span.shift (-delta) := by
  simp only [earlier, span, Span.shift, sub_eq_add_neg]

theorem map_duration_earlier (run : List (Clip Rat)) (delta : Rat) :
    (run.map (·.earlier delta)).map Clip.duration = run.map Clip.duration := by
  rw [List.map_map]
  exact List.map_congr_left fun clip _ => sub_sub_sub_cancel_right ..

theorem gapsOf_earlier (run : List (Clip Rat)) (delta : Rat) :
    gapsOf (run.map (·.earlier delta)) = gapsOf run := by
  have hgap (a b : Clip Rat) : (b.earlier delta).start - (a.earlier delta).stop = b.start - a.stop :=
    sub_sub_sub_cancel_right ..
  simp only [gapsOf, ← List.map_tail, List.zipWith_map, hgap]

theorem pairwise_precedes_mergeSort {clips : List (Clip Rat)}
    (hids : clips.Pairwise fun a b => a.id < b.id) :
    (clips.mergeSort fun a b => Scalar.totalLe a.start b.start).Pairwise Clip.Precedes := by
  have htrans := Timeline.startsNoLater_trans
  have htotal := Timeline.startsNoLater_total
  induction clips with
  | nil => simp
  | cons first rest ih =>
      obtain ⟨hfirst, hrest⟩ := List.pairwise_cons.1 hids
      -- The first clip goes behind those that start before it, and before all others.
      obtain ⟨before, after, hwhole, hothers, hbefore⟩ := List.mergeSort_cons htrans htotal first rest
      have hsorted := List.pairwise_mergeSort htrans htotal (first :: rest)
      have hordered := ih hrest
      have hperm := List.mergeSort_perm rest fun a b => Scalar.totalLe a.start b.start
      rw [hwhole] at hsorted ⊢
      rw [hothers] at hordered hperm
      obtain ⟨hleft, hright, hacross⟩ := List.pairwise_append.1 hordered
      obtain ⟨_, hafter, _⟩ := List.pairwise_append.1 hsorted
      refine List.pairwise_append.2 ⟨hleft, List.pairwise_cons.2 ⟨fun other hother => ?_, hright⟩,
        fun earlier hearlier other hother => ?_⟩
      · have hle : first.start ≤ other.start :=
          of_decide_eq_true (List.rel_of_pairwise_cons hafter hother)
        have hid := hfirst other (hperm.mem_iff.1 (List.mem_append_right _ hother))
        exact (lt_or_eq_of_le hle).imp_right fun heq => ⟨heq, hid⟩
      · rcases List.mem_cons.1 hother with rfl | hother
        · refine .inl (lt_of_not_ge fun hle => ?_)
          have hlater : Scalar.totalLe other.start earlier.start = true := decide_eq_true hle
          simpa [hlater] using hbefore earlier hearlier
        · exact hacross earlier hearlier other hother

/-! ## Plans by sets of ids -/

/-- The plan, with a request that has no id. -/
def MergePlan.anonymous {α : Type} (plan : MergePlan α) : MergePlan α :=
  { plan with request := { plan.request with id := "" } }

namespace Timeline

section Sets

variable {α : Type} [Scalar α] {t : Timeline α} {named others : List ClipId}

theorem runOf_congr (hsame : ∀ id, id ∈ others ↔ id ∈ named) (track : TrackId) :
    t.runOf track others = t.runOf track named := by
  have hset : Std.ExtTreeSet.ofList others compare = Std.ExtTreeSet.ofList named compare := by
    refine Std.ExtTreeSet.ext_mem fun id => ?_
    simp only [Std.ExtTreeSet.mem_ofList, List.contains_iff_mem, hsame]
  unfold runOf
  rw [hset]

theorem planMerge_congr (hsame : ∀ id, id ∈ others ↔ id ∈ named) (track : TrackId)
    (ids otherIds : IdSupply) :
    (t.planMerge track others otherIds).1.map MergePlan.anonymous =
      (t.planMerge track named ids).1.map MergePlan.anonymous := by
  unfold planMerge
  rw [runOf_congr hsame]
  cases t.runOf track named <;> rfl

end Sets

/-! ## Runs of named clips -/

variable {t : Timeline Rat} {ε : Rat} {track : Track Rat} {named : List ClipId}

theorem mem_clips_of_clip? {id : ClipId} {clip : Clip Rat} (h : t.clip? id = some clip) :
    clip ∈ t.clips := by
  obtain ⟨place, _, hat⟩ := Option.bind_eq_some_iff.1 h
  exact mem_clips_iff_clipAt?.2 ⟨place, hat⟩

theorem map_id_of_mapM_mergeable (hown : t.FindsById) {sources : List (Clip Rat)}
    (h : named.mapM (t.mergeable track) = .ok sources) : sources.map Clip.id = named := by
  induction named generalizing sources with
  | nil =>
      cases h
      rfl
  | cons id named ih =>
      rw [List.mapM_cons] at h
      cases hfirst : t.mergeable track id with
      | error refusal =>
          rw [hfirst] at h
          cases h
      | ok first =>
          cases hrest : named.mapM (t.mergeable track) with
          | error refusal =>
              rw [hfirst, hrest] at h
              cases h
          | ok rest =>
              rw [hfirst, hrest] at h
              cases h
              rw [List.map_cons, hown id first (mergeable_spec hfirst).1, ih hrest]

theorem runOf_ordered (hown : t.FindsById) {id : TrackId} {run : List (Clip Rat)}
    (hrun : t.runOf id named = .ok (track, run)) : run.Pairwise Clip.Precedes := by
  obtain ⟨_, _, sources, hsources, rfl⟩ := exists_of_runOf hrun
  refine pairwise_precedes_mergeSort ?_
  rw [← List.pairwise_map (R := (· < ·)), map_id_of_mapM_mergeable hown hsources]
  exact pairwise_lt_toList _

end Timeline

/-! ## Plans and their requests -/

/-- The plan is of the named clips of a track, in order, and asks for them alone, from zero on. -/
structure MergePlan.Asks (plan : MergePlan Rat) (track : Track Rat) (named : List ClipId)
    (request : String) : Prop where
  track_eq : plan.track = track.id
  kind_eq : plan.kind = track.kind
  mem_iff : ∀ clip, clip ∈ plan.clips ↔ clip ∈ track.clips ∧ clip.id ∈ named
  all_found : ∀ id ∈ named, ∃ clip ∈ plan.clips, clip.id = id
  unlinked : ∀ clip ∈ plan.clips, clip.link = none
  ordered : plan.clips.Pairwise Clip.Precedes
  origin_mem : ∃ clip ∈ plan.clips, clip.start = plan.origin
  origin_le : ∀ clip ∈ plan.clips, plan.origin ≤ clip.start
  request_eq : plan.request =
    .ofTracks request [⟨track.id, track.kind, plan.clips.map (·.earlier plan.origin)⟩]

theorem MergePlan.Asks.exists_first {plan : MergePlan Rat} {track : Track Rat}
    {named : List ClipId} {request : String} (h : plan.Asks track named request) :
    ∃ first rest, plan.clips = first :: rest ∧ first.start = plan.origin := by
  obtain ⟨earliest, hearliest, horigin⟩ := h.origin_mem
  obtain ⟨first, rest, hclips⟩ := List.exists_cons_of_ne_nil (List.ne_nil_of_mem hearliest)
  refine ⟨first, rest, hclips, le_antisymm ?_ (h.origin_le first (by simp [hclips]))⟩
  have hordered := h.ordered
  rw [hclips] at hearliest hordered
  rcases List.mem_cons.1 hearliest with rfl | hrest
  · exact le_of_eq horigin
  · have hprecedes := List.rel_of_pairwise_cons hordered hrest
    exact horigin ▸ hprecedes.elim le_of_lt fun hstart => le_of_eq hstart.1

namespace Timeline

variable {t : Timeline Rat} {ε : Rat} {track : Track Rat} {named : List ClipId}
  {plan : MergePlan Rat} {ids : IdSupply}

theorem planMerge_asks (hown : t.FindsById) (hids : (t.clips.map Clip.id).Nodup) (hhoused : t.Housed)
    (htracks : (t.tracks.map Track.id).Nodup) {id : TrackId}
    (hplan : (t.planMerge id named ids).1 = .ok plan) :
    ∃ found ∈ t.tracks, found.id = id ∧ plan.Asks found named ids.next := by
  have horigin := planMerge_origin_le hplan
  obtain ⟨found, run, hrun, rfl⟩ := planMerge_spec hplan
  obtain ⟨hfound, hlength, hsources, hall⟩ := runOf_spec hrun
  have hmem : found ∈ t.tracks := List.mem_of_find?_eq_some hfound
  have hsource {source : ClipId} {clip : Clip Rat} (h : t.mergeable found source = .ok clip) :
      clip.id = source ∧ clip ∈ found.clips ∧ clip.link = none := by
    obtain ⟨hclip, hon, hlink⟩ := mergeable_spec h
    exact ⟨hown source clip hclip,
      hhoused.mem_clips_track htracks hmem (mem_clips_of_clip? hclip) hon, hlink⟩
  have hplanned {clip : Clip Rat} (hclip : clip ∈ run) :
      clip ∈ found.clips ∧ clip.id ∈ named ∧ clip.link = none := by
    obtain ⟨source, hnamed, hfine⟩ := hsources clip hclip
    obtain ⟨rfl, hin, hlink⟩ := hsource hfine
    exact ⟨hin, hnamed, hlink⟩
  have hall {source : ClipId} (hnamed : source ∈ named) : ∃ clip ∈ run, clip.id = source := by
    obtain ⟨clip, hclip, hfine⟩ := hall source hnamed
    exact ⟨clip, hclip, (hsource hfine).1⟩
  refine ⟨found, hmem, by simpa using List.find?_some hfound, rfl, rfl, fun clip => ?_,
    fun _ => hall, fun clip hclip => (hplanned hclip).2.2, runOf_ordered hown hrun, ?_, horigin, rfl⟩
  · refine ⟨fun hclip => ⟨(hplanned hclip).1, (hplanned hclip).2.1⟩, ?_⟩
    rintro ⟨hin, hnamed⟩
    obtain ⟨other, hother, hid⟩ := hall hnamed
    have hsame := List.inj_on_of_nodup_map hids (mem_clips.2 ⟨found, hmem, (hplanned hother).1⟩)
      (mem_clips.2 ⟨found, hmem, hin⟩) hid
    exact hsame ▸ hother
  · obtain ⟨first, rest, hfirst⟩ := List.exists_cons_of_length_pos (Nat.zero_lt_of_lt hlength)
    exact ⟨first, by simp [hfirst], by simp [hfirst]⟩

theorem Fits.earlier {clip : Clip Rat} (h : Fits track clip) {delta : Rat}
    (hdelta : delta ≤ clip.start) {clips : List (Clip Rat)} :
    Fits ⟨track.id, track.kind, clips⟩ (clip.earlier delta) where
  track_eq := h.track_eq
  accepts := h.accepts
  start_lt_stop := sub_lt_sub_right h.start_lt_stop delta
  start_nonneg := sub_nonneg.2 hdelta
  offset_nonneg := h.offset_nonneg
  speed_pos := h.speed_pos
  volume_nonneg := h.volume_nonneg

/-- The clips of a request are as far apart as those of the track, and not linked. -/
theorem issues_request_eq_nil {request : String} (h : plan.Asks track named request)
    (hids : ∀ a ∈ track.clips, ∀ b ∈ track.clips, a.id = b.id → a = b)
    (hfits : ∀ clip ∈ track.clips, Fits track clip)
    (hapart : track.clips.Pairwise fun a b => a.span.overlaps b.span ε = false) :
    plan.request.issues ε = [] := by
  have hin {clip : Clip Rat} (hclip : clip ∈ plan.clips) : clip ∈ track.clips :=
    ((h.mem_iff clip).1 hclip).1
  have hsymm : Std.Symm fun a b : Clip Rat => a.span.overlaps b.span ε = false :=
    ⟨fun a b hfree => (Span.overlaps_comm ..).trans hfree⟩
  have hfree {a b : Clip Rat} (ha : a ∈ plan.clips) (hb : b ∈ plan.clips) (hne : a ≠ b) :
      (a.earlier plan.origin).span.overlaps (b.earlier plan.origin).span ε = false := by
    rw [Clip.earlier_span, Clip.earlier_span]
    exact Span.overlaps_shift _ (hapart.forall (hin ha) (hin hb) hne)
  have hnodup : (plan.clips.map Clip.id).Nodup :=
    List.Nodup.map_on (fun a ha b hb => hids a (hin ha) b (hin hb))
      (h.ordered.imp Clip.Precedes.ne)
  have hmapIds : (plan.clips.map (·.earlier plan.origin)).map Clip.id = plan.clips.map Clip.id := by
    rw [List.map_map]
    rfl
  rw [h.request_eq, issues, List.append_eq_nil_iff, placementIssues_eq_nil_iff]
  simp only [clips, ofTracks, assemble, List.flatMap_cons, List.flatMap_nil, List.append_nil,
    List.forall_mem_singleton, List.forall_mem_map, List.flatMap_eq_nil_iff, hmapIds]
  refine ⟨⟨⟨hnodup, by simp⟩, fun clip hclip => (hfits clip (hin hclip)).earlier (h.origin_le clip hclip),
    List.pairwise_map.2 (h.ordered.imp_of_mem fun ha hb hprecedes => hfree ha hb hprecedes.ne)⟩,
    fun clip hclip => ?_⟩
  have hlink : (clip.earlier plan.origin).link = none := h.unlinked clip hclip
  simp only [linkIssues, hlink]

/--
Of one set of ids there is one plan or refusal, but for the id of the request. On exact times and a
timeline without issues a plan is of the named clips in the order of their starts, of clips with one
start in that of their ids. It asks for those alone, moved to zero with their lengths and gaps, and
the request has no issues either.
-/
theorem planMerge_requests (track : TrackId) (named : List ClipId) (ids : IdSupply) :
    (∀ (α : Type) [Scalar α] (t : Timeline α) (others : List ClipId) (otherIds : IdSupply),
        (∀ id, id ∈ others ↔ id ∈ named) →
          (t.planMerge track others otherIds).1.map MergePlan.anonymous =
            (t.planMerge track named ids).1.map MergePlan.anonymous) ∧
      ∀ (t : Timeline Rat) (ε : Rat) (plan : MergePlan Rat), t.Made →
        (t.tracks.map Track.id).Nodup → t.issues ε = [] →
        (t.planMerge track named ids).1 = .ok plan →
          ∃ found ∈ t.tracks, found.id = track ∧ plan.Asks found named ids.next ∧
            plan.request.clips.map Clip.duration = plan.clips.map Clip.duration ∧
            gapsOf plan.request.clips = gapsOf plan.clips ∧
            plan.request.clips.head?.map Clip.start = some 0 ∧ plan.request.issues ε = [] := by
  refine ⟨fun α _ t others otherIds hsame => planMerge_congr hsame track ids otherIds,
    fun t ε plan hmade htracks hissues hplan => ?_⟩
  rw [issues, List.append_eq_nil_iff, placementIssues_eq_nil_iff] at hissues
  obtain ⟨⟨⟨hids, _⟩, hfits, hapart⟩, _⟩ := hissues
  have hhoused : t.Housed := fun house hhouse clip hclip => (hfits house hhouse clip hclip).track_eq
  obtain ⟨found, hfound, hid, hasks⟩ :=
    planMerge_asks hmade.truthful.findsById hids hhoused htracks hplan
  have hsame : ∀ a ∈ found.clips, ∀ b ∈ found.clips, a.id = b.id → a = b := fun a ha b hb =>
    List.inj_on_of_nodup_map hids (mem_clips.2 ⟨found, hfound, ha⟩) (mem_clips.2 ⟨found, hfound, hb⟩)
  have hclips : plan.request.clips = plan.clips.map (·.earlier plan.origin) := by
    rw [hasks.request_eq]
    simp [clips, ofTracks, assemble]
  refine ⟨found, hfound, hid, hasks, ?_, ?_, ?_,
    issues_request_eq_nil hasks hsame (hfits found hfound) (hapart found hfound)⟩
  · rw [hclips, map_duration_earlier]
  · rw [hclips, gapsOf_earlier]
  · obtain ⟨first, rest, hfirst, hstart⟩ := hasks.exists_first
    simp [hclips, hfirst, Clip.earlier, hstart]

/-- Two sounds play at once, and another one before them. -/
def tiedTracks : List (Track Rat) :=
  [⟨"video-1", .video, []⟩,
    ⟨"audio-1", .audio,
      [⟨"b", "audio-1", "media/b.wav", 5, 6, 0, .audio, 1, 1, 0, none⟩,
        ⟨"d", "audio-1", "media/d.wav", 3, 4, 0, .audio, 1, 1, 0, none⟩,
        ⟨"a", "audio-1", "media/a.wav", 5, 6, 2, .audio, 1, 2, 0, none⟩,
        ⟨"c", "audio-1", "media/c.wav", 2, 3, 0, .audio, 1 / 2, 1, 0, none⟩]⟩]

/-- A tolerance of a second allows the two sounds, and they are asked for by their ids. -/
theorem planMerge_requests_tied :
    let t := ofTracks "p" tiedTracks
    let named := ["b", "c", "a", "b"]
    t.Made ∧ (t.tracks.map Track.id).Nodup ∧ t.issues 1 = [] ∧
      (t.planMerge "audio-1" ["a", "b", "c"] .tally).1.map MergePlan.anonymous =
        (t.planMerge "audio-1" named .tally).1.map MergePlan.anonymous ∧
      ∃ plan, (t.planMerge "audio-1" named .tally).1 = .ok plan ∧
        plan.clips.map Clip.id = ["c", "a", "b"] ∧ gapsOf plan.request.clips = [2, -1] ∧
        plan.request.clips.head?.map Clip.start = some 0 ∧ plan.request.issues 1 = [] := by
  intro t named
  have hsame (id : ClipId) : id ∈ ["a", "b", "c"] ↔ id ∈ named := by
    simp only [named, List.mem_cons, List.not_mem_nil, or_false]
    grind
  have hmade : t.Made := made_of_index_eq rfl
  have htracks : (t.tracks.map Track.id).Nodup := by decide +kernel
  have hissues : t.issues 1 = [] := by decide +kernel
  have hresult : (t.planMerge "audio-1" named .tally).1.toOption.map
      (fun plan => (plan.clips.map Clip.id, gapsOf plan.clips)) =
        some (["c", "a", "b"], [2, -1]) := by
    cbv
  obtain ⟨hset, hplans⟩ := planMerge_requests "audio-1" named .tally
  cases hplan : (t.planMerge "audio-1" named .tally).1 with
  | error refusal =>
      rw [hplan] at hresult
      cases hresult
  | ok plan =>
      rw [hplan] at hresult
      obtain ⟨hnames, hgaps⟩ := Prod.mk.inj (Option.some.inj hresult)
      obtain ⟨_, _, _, _, _, hsameGaps, hfirst, hrequest⟩ :=
        hplans t 1 plan hmade htracks hissues hplan
      exact ⟨hmade, htracks, hissues, hplan ▸ hset Rat t _ .tally hsame, plan, rfl, hnames,
        hsameGaps.trans hgaps, hfirst, hrequest⟩

end Timeline

end Montage
