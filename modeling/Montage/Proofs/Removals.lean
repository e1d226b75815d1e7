import Montage.Command.Run
import Montage.Proofs.Deletions
import Montage.Proofs.Reachability
import Montage.Proofs.Saves

/-!
# Removals of sets of clips

The clips that a user names are selected one after the other, each by a click that would take it out
again if it were selected already. A clip that is selected is not clicked on, and so the selection
grows to what links lead to from all of them, in whatever order and however often they are named.
-/

namespace Montage

/-! ## Selections that grow -/

namespace Timeline

variable {α : Type} {t : Timeline α} {clips seeds others : List ClipId}

/-- Adds clips that are not selected yet, one after the other. -/
def gather (t : Timeline α) (selection : ClipSet) (clips : List ClipId) :
    Except (Refusal α) ClipSet :=
  clips.foldlM (fun selection clip =>
    if selection.contains clip then .ok selection else t.select selection clip true) selection

/-- The ids all find clips, and the selection is what links lead to from them. -/
structure Gathered (t : Timeline α) (clips : List ClipId) (selection : ClipSet) : Prop where
  found : ∀ id ∈ clips, (t.clip? id).isSome
  linkClosed : t.LinkClosed selection
  mem_iff : ∀ id, id ∈ selection ↔ t.Reachable clips id

/-- The ids all find clips, and links lead from them to no clip of which the link leads nowhere. -/
structure Removable (t : Timeline α) (clips : List ClipId) : Prop where
  found : ∀ id ∈ clips, (t.clip? id).isSome
  holds : ∀ id link, ¬ t.Dangles clips id link

/-- Why clips cannot be removed together. -/
inductive Hinders (t : Timeline α) (clips : List ClipId) : Refusal α → Prop
  | missing {id} : id ∈ clips → t.clip? id = none → Hinders t clips (.clipNotFound id)
  | dangling {id link} : t.Dangles clips id link →
      Hinders t clips (.inconsistent (.danglingLink id link))

theorem gathered_nil : t.Gathered [] ∅ where
  found := by simp
  linkClosed := fun id hid => by simp at hid
  mem_iff id := by
    refine ⟨fun hid => by simp at hid, fun hreach => ?_⟩
    induction hreach with
    | seed hid => cases hid
    | link _ _ _ _ ih => simp at ih

theorem Hinders.of_append {refusal : Refusal α} (h : t.Hinders seeds refusal) :
    t.Hinders (seeds ++ others) refusal := by
  cases h with
  | missing hid hnone => exact .missing (List.mem_append_left _ hid) hnone
  | dangling hdangles =>
      exact .dangling (hdangles.of_seeds fun id hid _ => List.mem_append_left _ hid)

theorem Removable.not_hinders (h : t.Removable clips) (refusal : Refusal α) :
    ¬ t.Hinders clips refusal := by
  intro hhinders
  cases hhinders with
  | missing hid hnone =>
      have hsome := h.found _ hid
      rw [hnone] at hsome
      cases hsome
  | dangling hdangles => exact h.holds _ _ hdangles

theorem Gathered.removable (hown : t.FindsById) {selection : ClipSet}
    (h : t.Gathered clips selection) : t.Removable clips where
  found := h.found
  holds := h.linkClosed.not_dangles hown fun id hid hsome =>
    (h.mem_iff id).2 (reachable_of_mem hown hid hsome)

theorem Removable.exists_linkClosure (hown : t.FindsById) (h : t.Removable clips) :
    ∃ closed, t.linkClosure clips = .ok closed ∧ t.Gathered clips closed := by
  cases hclosure : t.linkClosure clips with
  | ok closed =>
      exact ⟨closed, rfl, h.found, (linkClosure_collected hown hclosure).1,
        mem_linkClosure_iff hown hclosure⟩
  | error refusal =>
      obtain ⟨id, link, hdangles⟩ := (linkClosure_error_iff hown).1 ⟨refusal, hclosure⟩
      exact absurd hdangles (h.holds id link)

theorem Gathered.congr (hsame : ∀ id, id ∈ others ↔ id ∈ clips) {selection : ClipSet}
    (h : t.Gathered clips selection) : t.Gathered others selection where
  found id hid := h.found id ((hsame id).1 hid)
  linkClosed := h.linkClosed
  mem_iff id := (h.mem_iff id).trans
    ⟨fun hreach => hreach.of_seeds fun id hid _ => (hsame id).2 hid,
      fun hreach => hreach.of_seeds fun id hid _ => (hsame id).1 hid⟩

/-- What selecting the clips together may come to. -/
def MayGather (t : Timeline α) (clips : List ClipId) : Except (Refusal α) ClipSet → Prop
  | .ok selection => t.Gathered clips selection
  | .error refusal => t.Hinders clips refusal

theorem Gathered.of_mem (hown : t.FindsById) {selection : ClipSet} (h : t.Gathered seeds selection)
    {clip : ClipId} (hmember : clip ∈ selection) : t.Gathered (seeds ++ [clip]) selection where
  found := List.forall_mem_append.2
    ⟨h.found, List.forall_mem_singleton.2 (h.linkClosed.isSome hmember)⟩
  linkClosed := h.linkClosed
  mem_iff id := by
    have hseeds : ∀ id ∈ seeds ++ [clip], (t.clip? id).isSome → t.Reachable seeds id :=
      List.forall_mem_append.2 ⟨fun id hid => reachable_of_mem hown hid,
        List.forall_mem_singleton.2 fun _ => (h.mem_iff clip).1 hmember⟩
    exact (h.mem_iff id).trans
      ⟨fun hreach => hreach.of_seeds fun id hid _ => List.mem_append_left _ hid,
        fun hreach => hreach.of_reachable hown hseeds⟩

/-- What is selected stands for the ids that it was gathered from. -/
theorem Gathered.mayGather_linkClosure (hown : t.FindsById) {selection : ClipSet}
    (h : t.Gathered seeds selection) {clip : ClipId} (hsome : (t.clip? clip).isSome) :
    t.MayGather (seeds ++ [clip]) (t.linkClosure (selection.toList ++ [clip])) := by
  have hto : ∀ id ∈ selection.toList ++ [clip], (t.clip? id).isSome →
      t.Reachable (seeds ++ [clip]) id := by
    refine List.forall_mem_append.2 ⟨fun id hid _ => ?_, fun id hid =>
      reachable_of_mem hown (List.mem_append_right _ hid)⟩
    have hreach := (h.mem_iff id).1 (Std.ExtTreeSet.mem_toList.1 hid)
    exact hreach.of_seeds fun id hid _ => List.mem_append_left _ hid
  have hfrom : ∀ id ∈ seeds ++ [clip], (t.clip? id).isSome →
      t.Reachable (selection.toList ++ [clip]) id := by
    refine List.forall_mem_append.2 ⟨fun id hid hclip => ?_, fun id hid =>
      reachable_of_mem hown (List.mem_append_right _ hid)⟩
    have hselected := (h.mem_iff id).2 (reachable_of_mem hown hid hclip)
    exact reachable_of_mem hown
      (List.mem_append_left _ (Std.ExtTreeSet.mem_toList.2 hselected)) hclip
  cases hclosure : t.linkClosure (selection.toList ++ [clip]) with
  | ok closed =>
      refine ⟨List.forall_mem_append.2 ⟨h.found, List.forall_mem_singleton.2 hsome⟩,
        (linkClosure_collected hown hclosure).1, fun id => ?_⟩
      rw [mem_linkClosure_iff hown hclosure]
      exact ⟨fun hid => hid.of_reachable hown hto, fun hid => hid.of_reachable hown hfrom⟩
  | error refusal =>
      have hanswer := linkClosure_mayAnswer hown (selection.toList ++ [clip])
      rw [hclosure] at hanswer
      obtain ⟨id, link, ⟨hreach, hdangling⟩, rfl⟩ := hanswer
      exact .dangling ⟨hreach.of_reachable hown hto, hdangling⟩

/-- One clip more: it was selected already, or its closure joins the selection. -/
theorem Gathered.step (hown : t.FindsById) {selection : ClipSet} (h : t.Gathered seeds selection)
    (clip : ClipId) : t.MayGather (seeds ++ [clip])
      (if selection.contains clip then .ok selection else t.select selection clip true) := by
  by_cases hmember : selection.contains clip
  · rw [if_pos hmember]
    exact h.of_mem hown (Std.ExtTreeSet.mem_iff_contains.2 hmember)
  · rw [if_neg hmember]
    cases hclip : t.clip? clip with
    | none =>
        have hselect : t.select selection clip true = .error (.clipNotFound clip) := by
          simp only [select, hclip]
          rfl
        rw [hselect]
        exact .missing (List.mem_append_right _ (List.mem_singleton_self _)) hclip
    | some found =>
        have hselect : t.select selection clip true =
            t.linkClosure (selection.toList ++ [clip]) := by
          simp [select, hclip, hmember]
        rw [hselect]
        exact h.mayGather_linkClosure hown (by simp [hclip])

/-- Clips that are named one after the other are selected together, or something hinders it. -/
theorem Gathered.gather (hown : t.FindsById) {selection : ClipSet} (h : t.Gathered seeds selection)
    (clips : List ClipId) : t.MayGather (seeds ++ clips) (t.gather selection clips) := by
  -- The ids that were named already are the seeds of the selection; each step adds one to them.
  induction clips generalizing seeds selection with
  | nil =>
      rw [List.append_nil]
      exact h
  | cons clip clips ih =>
      have hstep := h.step hown clip
      rw [List.append_cons]
      unfold Timeline.gather
      rw [List.foldlM_cons]
      cases hfirst : (if selection.contains clip then .ok selection
          else t.select selection clip true : Except (Refusal α) ClipSet) with
      | ok next =>
          rw [hfirst] at hstep
          exact ih hstep
      | error refusal =>
          rw [hfirst] at hstep
          exact Hinders.of_append hstep

theorem mayGather_gather (hown : t.FindsById) (clips : List ClipId) :
    t.MayGather clips (t.gather ∅ clips) :=
  gathered_nil.gather hown clips

theorem Gathered.gather_eq (hown : t.FindsById) {selection : ClipSet}
    (h : t.Gathered clips selection) : t.gather ∅ clips = .ok selection := by
  have hgathers := mayGather_gather hown clips
  cases hgather : t.gather ∅ clips with
  | ok result =>
      rw [hgather] at hgathers
      have heq : result = selection := Std.ExtTreeSet.ext_mem fun id =>
        (hgathers.mem_iff id).trans (h.mem_iff id).symm
      rw [heq]
  | error refusal =>
      rw [hgather] at hgathers
      exact absurd hgathers ((h.removable hown).not_hinders refusal)

theorem exists_gather_error (hown : t.FindsById) (h : ¬ t.Removable clips) :
    ∃ refusal, t.Hinders clips refusal ∧ t.gather ∅ clips = .error refusal := by
  have hgathers := mayGather_gather hown clips
  cases hgather : t.gather ∅ clips with
  | ok selection =>
      rw [hgather] at hgathers
      exact absurd (hgathers.removable hown) h
  | error refusal =>
      rw [hgather] at hgathers
      exact ⟨refusal, hgathers, rfl⟩

/-! ## Timelines without some clips -/

/-- The timeline made anew from the clips that have other ids. -/
def without (t : Timeline α) (ids : List ClipId) : Timeline α :=
  assemble t.id
    (t.tracks.map fun track =>
      { track with clips := track.clips.filter fun clip => clip.id ∉ ids })
    t.captions t.shapes

theorem mem_clips_without {ids : List ClipId} {clip : Clip α} :
    clip ∈ (t.without ids).clips ↔ clip ∈ t.clips ∧ clip.id ∉ ids := by
  simp only [without, assemble, clips, List.mem_flatMap, List.mem_map, exists_exists_and_eq_and,
    List.mem_filter, decide_eq_true_eq]
  constructor
  · rintro ⟨track, htrack, hclip, hid⟩
    exact ⟨⟨track, htrack, hclip⟩, hid⟩
  · rintro ⟨⟨track, htrack, hclip⟩, hid⟩
    exact ⟨track, htrack, hclip, hid⟩

theorem Bounded.without {t : Timeline Float} (h : t.Bounded) (ids : List ClipId) :
    (t.without ids).Bounded :=
  fun clip hclip => h clip (mem_clips_without.1 hclip).1

theorem Tempered.without {t : Timeline Float} (h : t.Tempered) (ids : List ClipId) :
    (t.without ids).Tempered where
  levels clip hclip := h.levels clip (mem_clips_without.1 hclip).1
  captions := h.captions
  shapes := h.shapes

theorem numbers_without_subset (t : Timeline Float) (ids : List ClipId) :
    (t.without ids).numbers ⊆ t.numbers := by
  intro x hx
  rcases List.mem_append.1 hx with hclips | hoverlays
  · obtain ⟨clip, hclip, hx⟩ := List.mem_flatMap.1 hclips
    exact List.mem_append_left _ (List.mem_flatMap.2 ⟨clip, (mem_clips_without.1 hclip).1, hx⟩)
  · exact List.mem_append_right _ hoverlays

theorem delete_of_linkClosed (hstep : t.InStep) {selection : ClipSet}
    (h : t.LinkClosed selection) :
    t.delete selection = .ok (selection.toList, t.without selection.toList) := by
  have hdelete : t.delete selection =
      .ok (selection.toList, selection.toList.foldl erase t) := by
    unfold delete
    rw [h.linkClosure_toList hstep.findsById]
    rfl
  rw [hdelete, (foldl_erase_revision hstep selection.toList).eq_assemble]
  rfl

end Timeline

/-- The bundle without the clips that have the ids. -/
def Bundle.without (bundle : Bundle Float) (ids : List ClipId) : Bundle Float :=
  { bundle with timeline := bundle.timeline.without ids }

/-- What is left of a bundle that was loaded is loaded as it was written. -/
theorem Bundle.Stands.run_load_without {machine saved : Machine} {bundle : Bundle Float}
    {path now : String} {ids : List ClipId}
    (h : ((bundle.without ids).stamp now).Stands saved)
    (hload : machine.run (load path) = (.ok bundle, machine))
    (hreads : ∀ x ∈ bundle.timeline.numbers ++ bundle.library.numbers, ReadsBack x) :
    saved.run (load path) = (.ok ((bundle.without ids).stamp now), saved) := by
  obtain ⟨_, rfl, _, hbounded, htempered, hfinite⟩ := finite_of_load hload
  obtain ⟨htimeline, hlibrary⟩ := List.forall_mem_append.1 hreads
  have hagain := h.run_load rfl (htempered.without ids) hfinite (List.forall_mem_append.2
    ⟨fun x hx => htimeline x (Timeline.numbers_without_subset _ ids hx), hlibrary⟩)
  have hleft : ((bundle.without ids).stamp now).timeline.Bounded := hbounded.without ids
  rwa [if_pos hleft] at hagain

/-! ## The command -/

namespace Workspace

section Edit

variable {β : Type} {w : Workspace Float} {session : Session Float}
  {act : Session Float → Except (Refusal Float) β × Session Float}

theorem run_edit_ok {answer : β} (h : act w.session = (.ok answer, session)) (machine : Machine) :
    machine.run (w.edit act) = (.ok (answer, { w with session }), machine) := by
  unfold edit
  rw [h]
  rfl

theorem run_edit_error {refusal : Refusal Float} (h : act w.session = (.error refusal, session))
    (machine : Machine) : machine.run (w.edit act) = (.error (.refused refusal), machine) := by
  unfold edit
  rw [h]
  rfl

end Edit

/-- Selecting clips asks nothing of the machine. -/
theorem run_selectAll (machine : Machine) (w : Workspace Float) (clips : List ClipId) :
    machine.run (w.selectAll clips) =
      (((w.session.timeline.gather w.session.selection clips).map fun selection =>
        { w with session := { w.session with selection } }).mapError Complaint.refused,
      machine) := by
  induction clips generalizing w with
  | nil => rfl
  | cons clip clips ih =>
      unfold selectAll Timeline.gather
      rw [List.foldlM_cons, List.foldlM_cons]
      by_cases hmember : w.session.selection.contains clip
      · rw [if_pos hmember, if_pos hmember]
        exact ih w
      · rw [if_neg hmember, if_neg hmember]
        cases hselect : w.session.timeline.select w.session.selection clip true with
        | error refusal =>
            have hclick : w.session.select clip true = (.error refusal, w.session) := by
              simp only [Session.select, hselect]
            have hrun : machine.run (w.edit fun s => s.select clip true) =
                (.error (.refused refusal), machine) := run_edit_error hclick machine
            rw [Machine.run_bind_error (Machine.run_bind_error hrun)]
            rfl
        | ok selection =>
            have hclick : w.session.select clip true =
                (.ok selection, { w.session with selection }) := by
              simp only [Session.select, hselect]
            have hrun : machine.run (w.edit fun s => s.select clip true) =
                (.ok (selection, { w with session := { w.session with selection } }), machine) :=
              run_edit_ok hclick machine
            rw [Machine.run_bind, Machine.run_bind_ok hrun]
            exact ih _

theorem run_delete_error {w : Workspace Float} {clips : List ClipId} {refusal : Refusal Float}
    (h : w.session.timeline.gather w.session.selection clips = .error refusal) (machine : Machine) :
    machine.run (w.delete clips) = (.error (.refused refusal), machine) := by
  have hselect := run_selectAll machine w clips
  rw [h] at hselect
  exact Machine.run_bind_error hselect

theorem run_delete_ok {w : Workspace Float} {clips : List ClipId} {selection : ClipSet}
    (hstep : w.session.timeline.InStep)
    (hgather : w.session.timeline.gather w.session.selection clips = .ok selection)
    (hclosed : w.session.timeline.LinkClosed selection) (hsome : selection.toList ≠ [])
    (machine : Machine) :
    machine.run (w.delete clips) = (.ok (selection.toList, { w with
      session := { w.session with selection }.commit
        (w.session.timeline.without selection.toList) }), machine) := by
  have hselect := run_selectAll machine w clips
  rw [hgather] at hselect
  unfold delete
  rw [Machine.run_bind_ok hselect]
  refine run_edit_ok ?_ machine
  simp only [Session.deleteSelection, Timeline.delete_of_linkClosed hstep hclosed,
    List.isEmpty_eq_false_iff.2 hsome, Bool.false_eq_true, if_false]

end Workspace

namespace Action

variable {machine : Machine} {bundle : Bundle Float} {path : String} {clips : List ClipId}
  {settings : Settings Float} {ids : IdSupply}

theorem run_say (machine : Machine) (line : String) : machine.run (say line) =
    (.ok (), { machine with output := machine.output ++ line ++ "\n" }) := rfl

theorem run_delete_error (hload : machine.run (Bundle.load path) = (.ok bundle, machine))
    {refusal : Refusal Float} (hgather : bundle.timeline.gather ∅ clips = .error refusal) :
    machine.run (delete path clips settings ids) = (.error (.refused refusal), machine) := by
  unfold delete openProject
  rw [Machine.run_bind_ok (Workspace.run_openBundle hload)]
  exact Machine.run_bind_error (Workspace.run_delete_error hgather machine)

theorem run_delete_ok (hload : machine.run (Bundle.load path) = (.ok bundle, machine))
    (hstep : bundle.timeline.InStep) {selection : ClipSet}
    (hgather : bundle.timeline.gather ∅ clips = .ok selection)
    (hclosed : bundle.timeline.LinkClosed selection) (hsome : selection.toList ≠ []) :
    machine.run (delete path clips settings ids) = machine.run (do
      say (s!"Deleted {selection.toList.length} clip(s): " ++ ", ".intercalate selection.toList)
      ((bundle.without selection.toList).stamp machine.clock).write.adapt Complaint.notSaved) := by
  unfold delete openProject
  rw [Machine.run_bind_ok (Workspace.run_openBundle hload)]
  rw [Machine.run_bind_ok (Workspace.run_delete_ok hstep hgather hclosed hsome machine)]
  rw [Machine.run_bind_ok (run_say ..), Machine.run_bind_ok (run_say ..),
    Workspace.run_save (Nat.succ_ne_zero _)]
  rfl

/--
Clips of a bundle that is loaded are named, in any order and as often as one likes. If all are there,
and links lead from them to none of which the link leads nowhere, the command removes what links lead
to from them, tells it, and writes what is left; it does the same however the same clips are named.
If it succeeds, the files hold what is left, and that is loaded if each number has a text that names
it. In all other cases it complains, and the machine with all its files is as it was.
-/
theorem delete_removes (machine : Machine) (path : String) (bundle : Bundle Float)
    (hload : machine.run (Bundle.load path) = (.ok bundle, machine))
    (hnodup : (bundle.timeline.clips.map Clip.id).Nodup) (clips : List ClipId) (hsome : clips ≠ [])
    (settings : Settings Float) (ids : IdSupply) :
    let t := bundle.timeline
    (t.Removable clips → ∃ closed, t.linkClosure clips = .ok closed ∧
        (∀ id, id ∈ closed ↔ t.Reachable clips id) ∧
        ∀ others : List ClipId, (∀ id, id ∈ others ↔ id ∈ clips) →
          machine.run (delete path others settings ids) = machine.run (do
            say (s!"Deleted {closed.toList.length} clip(s): " ++ ", ".intercalate closed.toList)
            ((bundle.without closed.toList).stamp machine.clock).write.adapt Complaint.notSaved) ∧
          ∀ saved, machine.run (delete path others settings ids) = (.ok (), saved) →
            let left := (bundle.without closed.toList).stamp machine.clock
            left.Stands saved ∧ ((∀ x ∈ t.numbers ++ bundle.library.numbers, ReadsBack x) →
              saved.run (Bundle.load path) = (.ok left, saved))) ∧
      (¬ t.Removable clips → ∃ refusal, t.Hinders clips refusal ∧
        machine.run (delete path clips settings ids) = (.error (.refused refusal), machine)) := by
  intro t
  obtain ⟨_, _, hindex, _⟩ := Bundle.finite_of_load hload
  have hstep := Timeline.inStep_of_index_eq hindex hnodup
  have hown := hstep.findsById
  refine ⟨fun hremovable => ?_, fun hnot => ?_⟩
  · obtain ⟨closed, hclosure, hgathered⟩ := hremovable.exists_linkClosure hown
    refine ⟨closed, hclosure, hgathered.mem_iff, fun others hsame => ?_⟩
    obtain ⟨first, rest, rfl⟩ := List.exists_cons_of_ne_nil hsome
    have hfirst : first ∈ closed.toList := by
      refine Std.ExtTreeSet.mem_toList.2 ((hgathered.mem_iff first).2 ?_)
      exact Timeline.reachable_of_mem hown List.mem_cons_self (hremovable.found _ List.mem_cons_self)
    have hrun : machine.run (delete path others settings ids) = _ := run_delete_ok hload hstep
      ((hgathered.congr hsame).gather_eq hown) hgathered.linkClosed (List.ne_nil_of_mem hfirst)
    refine ⟨hrun, fun saved hsaved => ?_⟩
    rw [hrun, Machine.run_bind_ok (run_say ..)] at hsaved
    have hstands := Bundle.stands_of_write (Machine.run_eq_ok_of_adapt hsaved)
    exact ⟨hstands, hstands.run_load_without hload⟩
  · obtain ⟨refusal, hhinders, hgather⟩ := Timeline.exists_gather_error hown hnot
    exact ⟨refusal, hhinders, run_delete_error hload hgather⟩

/-- A picture with its sound, another sound, and one that has lost its partner. -/
def paired : Bundle Float where
  root := "demo"
  header := .new "demo" "2024-01-01T00:00:00Z"
  timeline := .ofTracks "p"
    [⟨"video-1", .video, [⟨"v1", "video-1", "media/v.mp4", 0, 4, 0, .video, 1, 1, 0, some "s1"⟩]⟩,
      ⟨"av-1", .av,
        [⟨"s2", "av-1", "media/x.wav", 4, 6, 0, .audio, 1, 1, 0, none⟩,
          ⟨"s1", "av-1", "media/v.mp4", 0, 4, 0, .audio, 1, 1, 0, some "v1"⟩]⟩,
      ⟨"audio-1", .audio, [⟨"d", "audio-1", "media/d.wav", 0, 1, 0, .audio, 1, 1, 0, some "gone"⟩]⟩]
  library := .empty

theorem load_paired : (Workspace.shelved paired).run (Bundle.load "demo") =
    (.ok paired, Workspace.shelved paired) := by
  have htempered : paired.timeline.Tempered :=
    ⟨by decide +kernel, by decide +kernel, by decide +kernel⟩
  have hstands : paired.Stands (Workspace.shelved paired) := Workspace.stands_shelved rfl
  have hload := hstands.run_load rfl htempered (by decide +kernel) (by decide +kernel)
  rwa [if_pos (by decide +kernel)] at hload

/-- What is left when clips are removed can be written over the bundle. -/
theorem exists_write_paired (line : String) (ids : List ClipId) : ∃ saved,
    (Workspace.shelved paired).run (do
      say line
      ((paired.without ids).stamp (Workspace.shelved paired).clock).write.adapt
        Complaint.notSaved) = (.ok (), saved) := by
  have hstands : paired.Stands (Workspace.shelved paired) := Workspace.stands_shelved rfl
  let told : Machine :=
    { Workspace.shelved paired with
      output := (Workspace.shelved paired).output ++ line ++ "\n" }
  have htold : paired.Stands told := hstands.of_files_eq rfl
  let left := (paired.without ids).stamp (Workspace.shelved paired).clock
  obtain ⟨saved, hwrite⟩ : ∃ saved, told.run left.write = (.ok (), saved) :=
    htold.exists_write rfl rfl
  refine ⟨saved, ?_⟩
  rw [Machine.run_bind_ok (run_say ..), Machine.run_adapt, hwrite]
  rfl

/-- One half of the pair is named twice, after its partner; the broken link stops a removal. -/
theorem delete_removes_paired :
    let machine := Workspace.shelved paired
    let t := paired.timeline
    let clips := ["s1", "s2", "v1", "s1"]
    machine.run (Bundle.load "demo") = (.ok paired, machine) ∧ (t.clips.map Clip.id).Nodup ∧
      clips ≠ [] ∧ t.Removable clips ∧
      (∃ closed, t.linkClosure clips = .ok closed ∧ closed.toList = ["s1", "s2", "v1"] ∧
        (∀ id, id ∈ closed ↔ t.Reachable clips id) ∧
        machine.run (delete "demo" clips .standard .tally) =
          machine.run (delete "demo" ["v1", "s2", "s1"] .standard .tally)) ∧
      (∃ saved, machine.run (delete "demo" clips .standard .tally) = (.ok (), saved) ∧
        let left := (paired.without ["s1", "s2", "v1"]).stamp machine.clock
        left.Stands saved ∧ saved.run (Bundle.load "demo") = (.ok left, saved)) ∧
      (¬ t.Removable ["s1", "d"]) ∧ ∃ refusal, t.Hinders ["s1", "d"] refusal ∧
        machine.run (delete "demo" ["s1", "d"] .standard .tally) =
          (.error (.refused refusal), machine) := by
  intro machine t clips
  have hnodup : (t.clips.map Clip.id).Nodup := by decide +kernel
  have hown : t.FindsById := (Timeline.inStep_of_index_eq rfl hnodup).findsById
  have hlist : (t.linkClosure clips).toOption.map Std.ExtTreeSet.toList =
      some ["s1", "s2", "v1"] := by decide +kernel
  have hfound : ∀ id ∈ clips, (t.clip? id).isSome := by decide +kernel
  have hbroken : (t.linkClosure ["s1", "d"]).toOption = none := by decide +kernel
  have hremovable : t.Removable clips := by
    refine ⟨hfound, fun id link hdangles => ?_⟩
    obtain ⟨refusal, hrefused⟩ := (Timeline.linkClosure_error_iff hown).2 ⟨id, link, hdangles⟩
    rw [hrefused] at hlist
    cases hlist
  have hnot : ¬ t.Removable ["s1", "d"] := by
    intro h
    obtain ⟨closed, hclosure, _⟩ := h.exists_linkClosure hown
    rw [hclosure] at hbroken
    cases hbroken
  obtain ⟨hremoves, _⟩ := delete_removes machine "demo" paired load_paired hnodup clips
    (by simp [clips]) .standard .tally
  obtain ⟨closed, hclosure, hreach, hothers⟩ := hremoves hremovable
  obtain ⟨_, hrefuses⟩ := delete_removes machine "demo" paired load_paired hnodup ["s1", "d"]
    (by simp) .standard .tally
  have hsame (id : ClipId) : id ∈ ["v1", "s2", "s1"] ↔ id ∈ clips := by
    simp only [clips, List.mem_cons, List.not_mem_nil, or_false]
    grind
  obtain ⟨hrun, hsaved⟩ := hothers clips fun _ => Iff.rfl
  obtain ⟨hrunSame, _⟩ := hothers _ hsame
  rw [hclosure] at hlist
  have hclosed : closed.toList = ["s1", "s2", "v1"] := Option.some.inj hlist
  obtain ⟨saved, hwritten⟩ := exists_write_paired _ closed.toList
  have hdone := hrun.trans hwritten
  obtain ⟨hstands, hload⟩ := hsaved saved hdone
  have hagain := hload (by decide +kernel)
  rw [hclosed] at hstands hagain
  exact ⟨load_paired, hnodup, by simp [clips], hremovable,
    ⟨closed, hclosure, hclosed, hreach, hrun.trans hrunSame.symm⟩, ⟨saved, hdone, hstands, hagain⟩,
    hnot, hrefuses hnot⟩

end Action

end Montage
