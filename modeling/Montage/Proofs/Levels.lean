import Montage.Proofs.Entries
import Montage.Proofs.Runs
import Montage.Proofs.Stored

/-!
# Numbers that stay finite

Volumes and speeds stay finite along every run, for they are checked when they are set, and pieces
of a clip have those of the clip. So do the lengths of assets, if the calls bring no other. The
times of clips are sums, of which nothing like that can be said.
-/

namespace Montage

/-! ## Levels stay finite -/

theorem Clip.ofAsset_levels (asset : Asset Float) (id : ClipId) (medium : Medium)
    (track : TrackId) (start : Float) (mediaRoot : String) :
    AllFinite (ofAsset asset id medium track start mediaRoot).levels := by
  have hone : (1 : Float).isFinite = true := by decide +kernel
  simp [AllFinite, levels, ofAsset, hone]

namespace Timeline

variable {t next : Timeline Float} {settings : EditorSettings Float} {ids left : IdSupply}

theorem Revision.tempered {keep : Clip Float → Bool} {alter : Clip Float → Clip Float}
    {new : List (Clip Float)} (hrevision : t.Revision keep alter new next)
    (halter : ∀ clip, AllFinite clip.levels → AllFinite (alter clip).levels)
    (hnew : ∀ clip ∈ new, AllFinite clip.levels) (h : t.Tempered) : next.Tempered where
  levels clip hclip := by
    rcases hrevision.mem_clips.1 hclip with ⟨old, hold, _, rfl⟩ | hclip
    · exact halter old (h.levels old hold)
    · exact hnew clip hclip
  captions := by
    rw [hrevision.captions_eq]
    exact h.captions
  shapes := by
    rw [hrevision.shapes_eq]
    exact h.shapes

theorem clipsAt_levels (site : Site Float) (asset : Asset Float) (mediaRoot : String)
    (id partnerId : ClipId) :
    ∀ clip ∈ clipsAt site asset mediaRoot id partnerId, AllFinite clip.levels := by
  unfold clipsAt
  cases site.partner with
  | none =>
      simp only [List.mem_singleton, forall_eq]
      exact Clip.ofAsset_levels asset id asset.medium site.target.id site.start mediaRoot
  | some track =>
      simp only [List.forall_mem_cons]
      exact ⟨Clip.ofAsset_levels asset id asset.medium site.target.id site.start mediaRoot,
        Clip.ofAsset_levels asset partnerId .audio track.id site.start mediaRoot, by simp⟩

theorem rightHalves_levels {clips : List (Clip Float)} (h : ∀ clip ∈ clips, AllFinite clip.levels)
    (instant : Float) (id partnerId : ClipId) :
    ∀ clip ∈ rightHalves clips instant id partnerId, AllFinite clip.levels := by
  match clips with
  | [] => simp [rightHalves]
  | [clip] =>
      simp only [rightHalves, List.forall_mem_singleton]
      exact h clip (by simp)
  | clip :: partner :: _ =>
      simp only [List.forall_mem_cons] at h
      simp only [rightHalves, List.forall_mem_cons]
      exact ⟨h.1, h.2.1, by simp⟩

theorem Edit.tempered {Planned : MergePlan Float → Prop} (hstep : t.InStep) (h : t.Tempered)
    (hedit : t.Edit settings Planned ids next left) : next.Tempered := by
  cases hedit with
  | place hplace =>
      obtain ⟨site, _, hrevision, _⟩ := place_revision hstep hplace
      exact hrevision.tempered (fun _ hlevels => hlevels)
        (clipsAt_levels site _ _ _ _) h
  | split hsplit =>
      obtain ⟨clips, hcut, hne, hrevision, _⟩ := split_revision hstep hsplit
      refine hrevision.tempered (fun clip hlevels => ?_) (rightHalves_levels ?_ _ _ _) h
      · unfold cutShort
        split <;> exact hlevels
      · obtain ⟨clip, hclip, _, _, hcase⟩ := toCut_spec hstep hcut hne
        rcases hcase with ⟨_, rfl⟩ | ⟨partner, hpartner, _, _, rfl⟩
        · simpa using h.levels clip hclip
        · simp only [List.forall_mem_cons]
          exact ⟨h.levels clip hclip, h.levels partner hpartner, by simp⟩
  | delete hdelete _ =>
      obtain ⟨_, _, _, hrevision⟩ := delete_revision hstep hdelete
      exact hrevision.tempered (fun _ hlevels => hlevels) (by simp) h
  | @setVolume _ volume hset _ =>
      obtain ⟨_, hrevision⟩ := setVolume_revision hstep hset
      refine hrevision.tempered (fun clip hlevels => ?_) (by simp) h
      unfold amend
      split
      · simp only [Clip.levels, AllFinite, List.forall_mem_cons] at hlevels ⊢
        exact ⟨(setVolume_spec hset).1, hlevels.2⟩
      · exact hlevels
  | setSpeed hset _ =>
      obtain ⟨_, _, _, _, hrevision⟩ := setSpeed_revision hstep hset
      refine hrevision.tempered (fun clip hlevels => ?_) (by simp) h
      unfold retime
      split
      · simp only [Clip.levels, AllFinite, List.forall_mem_cons] at hlevels ⊢
        exact ⟨hlevels.1, (setSpeed_spec hset).1, hlevels.2.2⟩
      · exact hlevels
  | applyMerge _ hmerge =>
      obtain ⟨_, hrevision, _⟩ := applyMerge_revision hstep hmerge
      exact hrevision.tempered (fun _ hlevels => hlevels)
        (List.forall_mem_singleton.2 (Clip.ofAsset_levels _ _ _ _ _ _)) h

end Timeline

namespace Session

/-- The clips are told by their ids, also those that a drag holds, and the levels are finite. -/
structure Level (s : Session Float) : Prop where
  inStep : s.timeline.InStep
  tempered : s.timeline.Tempered
  distinct : ∀ drag, s.drag = some drag → drag.ids.Nodup

variable {s next : Session Float}

theorem Advance.level {Planned : MergePlan Float → Prop} (h : s.Level)
    (hadvance : s.Advance Planned next) : next.Level := by
  obtain ⟨hstep, htempered, hdistinct⟩ := h
  cases hadvance with
  | rest _ _ htimeline hdrag =>
      exact ⟨htimeline ▸ hstep, htimeline ▸ htempered, hdrag ▸ hdistinct⟩
  | @press _ _ _ drag hpress _ htimeline hdrag =>
      refine ⟨htimeline ▸ hstep, htimeline ▸ htempered, fun held hsome => ?_⟩
      rw [hdrag] at hsome
      cases hsome
      exact (Drag.start_heldFrom hstep hpress).nodup_ids hstep
  | pull hpulled _ htimeline hdrag =>
      refine ⟨htimeline ▸ hstep, htimeline ▸ htempered, fun held hsome => ?_⟩
      rw [hdrag] at hsome
      cases hsome
      have hsame := hdistinct _ hpulled
      exact hsame
  | letGo _ htimeline hdrag =>
      exact ⟨htimeline ▸ hstep, htimeline ▸ htempered, by simp [hdrag]⟩
  | release hheld hrelease _ hdrag =>
      obtain ⟨_, _, hrevision⟩ := Timeline.release_revision hstep (hdistinct _ hheld) hrelease
      refine ⟨hrevision.inStep, hrevision.tempered (fun clip hlevels => ?_) (by simp) htempered,
        by simp [hdrag]⟩
      unfold Timeline.dropped
      split <;> exact hlevels
  | edit hedit hdrag =>
      obtain ⟨_, _, _, hrevision, _⟩ := hedit.lineage hstep
      exact ⟨hrevision.inStep, hedit.tempered hstep htempered, hdrag ▸ hdistinct⟩

theorem start_level {t : Timeline Float} (hindex : t.index = .ofTracks t.tracks)
    (hnodup : (t.clips.map Clip.id).Nodup) (htempered : t.Tempered) (library : Library Float)
    (settings : EditorSettings Float) (ids : IdSupply) (observed : Bool) :
    (start t library settings ids observed).Level :=
  ⟨Timeline.inStep_of_index_eq hindex hnodup, htempered, nofun⟩

theorem run_level (h : s.Level) (calls : List (Call Float)) : (s.run calls).Level := by
  induction calls generalizing s with
  | nil => exact h
  | cons call calls ih =>
      have hadvance : s.Advance (fun _ => True) (s.step call).2 :=
        step_advance s call fun _ _ _ => trivial
      exact ih (hadvance.level h)

end Session

/-! ## Lengths stay finite -/

theorem Library.allFinite_register {library : Library Float} {asset : Asset Float}
    (h : AllFinite library.numbers) (hasset : asset.duration.isFinite = true) :
    AllFinite (library.register asset).numbers := by
  unfold Library.numbers register at *
  generalize library.assets = assets at h ⊢
  simp only at h ⊢
  induction assets with
  | nil => simpa [register.place, AllFinite] using hasset
  | cons held rest ih =>
      obtain ⟨hheld, hrest⟩ := List.forall_mem_cons.1 h
      unfold register.place
      split
      · exact List.forall_mem_cons.2 ⟨hasset, hrest⟩
      · exact List.forall_mem_cons.2 ⟨hheld, ih hrest⟩

/-- The call is an edit or prepares one, and an asset that comes with it has a finite length. -/
def Call.Storable : Call Float → Prop
  | .register _ => False
  | .placeAsset asset _ _ | .applyMerge _ asset => asset.duration.isFinite = true
  | _ => True

namespace Session

/-- A call leaves all that is stored as it is, or the session has something to store after it. -/
inductive Stocks (s next : Session Float) : Prop
  | rest (hrevision : next.revision = s.revision) (htimeline : next.timeline = s.timeline)
      (hlibrary : next.library = s.library)
  | commit (hrevision : next.revision = s.revision + 1)
      (hlibrary : AllFinite s.library.numbers → AllFinite next.library.numbers)

variable {s next : Session Float} {call : Call Float}

theorem Edits.allFinite {answer : Answer Float} {library : Library Float} {t : Timeline Float}
    {left : IdSupply} (hedits : s.Edits call answer library t left) (hcall : call.Storable)
    (h : AllFinite s.library.numbers) : AllFinite library.numbers := by
  cases hedits with
  | place hplaces =>
      cases hplaces with
      | named hfind =>
          exact Library.allFinite_register h
            (h _ (List.mem_map_of_mem (List.mem_of_find?_eq_some hfind)))
      | brought => exact Library.allFinite_register h hcall
  | applyMerge => exact Library.allFinite_register h hcall
  | _ => exact h

theorem Outcome.stocks {answer : Except (Refusal Float) (Answer Float)}
    (hout : s.Outcome call answer next) (hcall : call.Storable) : s.Stocks next := by
  cases hout with
  | register => exact hcall.elim
  | move => exact .commit rfl id
  | edit hedits => exact .commit rfl (hedits.allFinite hcall)
  | _ => exact .rest rfl rfl rfl

/-- A run that never commits has nothing to store; after any other the lengths are finite. -/
theorem run_stocks {calls : List (Call Float)} (hcalls : ∀ call ∈ calls, call.Storable)
    (h : AllFinite s.library.numbers) :
    AllFinite (s.run calls).library.numbers ∧
      (((s.run calls).revision = s.revision ∧ (s.run calls).timeline = s.timeline ∧
        (s.run calls).library = s.library) ∨ s.revision < (s.run calls).revision) := by
  induction calls generalizing s with
  | nil => exact ⟨h, .inl ⟨rfl, rfl, rfl⟩⟩
  | cons call calls ih =>
      obtain ⟨hcall, hcalls⟩ := List.forall_mem_cons.1 hcalls
      rw [run_cons]
      cases (s.step_outcome call).stocks hcall with
      | rest hrevision htimeline hlibrary =>
          have hrest := ih hcalls (s := (s.step call).2) (hlibrary ▸ h)
          rwa [hrevision, htimeline, hlibrary] at hrest
      | commit hrevision hlibrary =>
          obtain ⟨hfinite, hrest⟩ := ih hcalls (s := (s.step call).2) (hlibrary h)
          refine ⟨hfinite, .inr ?_⟩
          rcases hrest with ⟨hsame, _⟩ | hmore <;> omega

end Session

end Montage
