import Montage.Proofs.Saves

/-!
# Saves that stop half-way

The documents of a bundle are written one after the other, each over the one that was there. When
one is refused the save ends, and nothing is put back: the documents before it are new, it and those
after it are old. The library comes last, so it is never newer than the timeline beside it.
-/

namespace Montage

/-! ## Documents of one folder -/

/-- A name that a file in a folder can have. -/
def IsFileName (name : String) : Prop :=
  '/' ∉ name.toList ∧ name ∉ ["", ".", ".."]

theorem EndsIn.name_eq {path name other : String} (h : EndsIn path name) (h' : EndsIn path other) :
    name = other := by
  obtain ⟨steps, hsteps⟩ := h.splitOn_eq
  obtain ⟨others, hothers⟩ := h'.splitOn_eq
  exact List.singleton_inj.1 (List.append_inj' (hsteps.symm.trans hothers) rfl).2

namespace Machine

variable {machine mid next : Machine} {root : String}
  {documents : List (String × Json)}

/-- At the path the second machine has what the first one has, be it a file or nothing. -/
structure SameAt (machine next : Machine) (path : String) : Prop where
  read_eq : next.files.read path = machine.files.read path
  at_eq : next.files.at? path = machine.files.at? path

theorem SameAt.trans {path : String} (h : machine.SameAt mid path) (h' : mid.SameAt next path) :
    machine.SameAt next path :=
  ⟨h'.read_eq.trans h.read_eq, h'.at_eq.trans h.at_eq⟩

theorem Holds.of_sameAt {path : String} {document : Json} (hheld : machine.Holds path document)
    (h : machine.SameAt next path) : next.Holds path document :=
  ⟨h.read_eq.trans hheld.read_eq, h.at_eq.trans hheld.at_eq⟩

/-- Writes documents to files of a folder, one after the other. -/
def writeAll (root : String) : List (String × Json) → ExceptT BundleFault (StateM Machine) Unit
  | [] => pure ()
  | document :: documents => do
      writeDocument (Text.Path.join root document.1) document.2
      writeAll root documents

/-- A document is refused, with nothing changed, or it is written and leaves what is beside it. -/
theorem run_writeDocument_cases {name : String} (hname : IsFileName name) (machine : Machine)
    (root : String) (document : Json) :
    (∃ fault, machine.run (writeDocument (Text.Path.join root name) document) =
        (.error (.file (Text.Path.join root name) fault), machine)) ∨
      ∃ files, machine.run (writeDocument (Text.Path.join root name) document) =
          (.ok (), { machine with files }) ∧
        Holds { machine with files } (Text.Path.join root name) document ∧
        ∀ other, IsFileName other → other ≠ name →
          machine.SameAt { machine with files } (Text.Path.join root other) := by
  have hpath := endsIn_join root hname.1 hname.2
  cases hrun : machine.run (writeDocument (Text.Path.join root name) document) with
  | mk answer next =>
      cases answer with
      | error fault =>
          rw [run_writeDocument] at hrun
          split at hrun
          · rename_i refusal _
            cases hrun
            exact .inl ⟨refusal, rfl⟩
          · cases hrun
      | ok =>
          have hheld := holds_of_writeDocument hpath hrun
          obtain ⟨files, hwrite, rfl⟩ := exists_of_writeDocument hrun
          refine .inr ⟨files, rfl, hheld, fun other hother hne => ?_⟩
          obtain ⟨hread, hat⟩ :=
            FileTree.read_write_join hname.1 hname.2 hother.1 hother.2 hne hwrite
          exact ⟨hread, hat⟩

theorem sameAt_of_writeAll (hnames : ∀ document ∈ documents, IsFileName document.1)
    {other : String} (hother : IsFileName other) (hnew : other ∉ documents.map Prod.fst)
    {answer : Except BundleFault Unit}
    (h : machine.run (writeAll root documents) = (answer, next)) :
    machine.SameAt next (Text.Path.join root other) := by
  induction documents generalizing machine with
  | nil =>
      cases h
      exact ⟨rfl, rfl⟩
  | cons document documents ih =>
      obtain ⟨hname, hnames⟩ := List.forall_mem_cons.1 hnames
      rw [List.map_cons, List.mem_cons, not_or] at hnew
      unfold writeAll at h
      rcases run_writeDocument_cases hname machine root document.2 with
        ⟨fault, hrun⟩ | ⟨files, hrun, _, hbeside⟩
      · rw [run_bind_error hrun] at h
        cases h
        exact ⟨rfl, rfl⟩
      · rw [run_bind_ok hrun] at h
        exact (hbeside other hother hnew.1).trans (ih hnames hnew.2 h)

/-- Where a run of writes has stopped. -/
structure Halted (machine next : Machine) (root : String) (written : List (String × Json))
    (refused : String × Json) (waiting : List (String × Json)) : Prop where
  holds : ∀ document ∈ written, next.Holds (Text.Path.join root document.1) document.2
  sameAt : ∀ document ∈ refused :: waiting,
    machine.SameAt next (Text.Path.join root document.1)
  files_only : next = { machine with files := next.files }

/-- Writes that fail have stopped at one of the documents, and the fault is at its file. -/
theorem exists_halted (hnames : ∀ document ∈ documents, IsFileName document.1)
    (hnodup : (documents.map Prod.fst).Nodup) {fault : BundleFault}
    (h : machine.run (writeAll root documents) = (.error fault, next)) :
    ∃ written refused waiting why, documents = written ++ refused :: waiting ∧
      fault = .file (Text.Path.join root refused.1) why ∧
      machine.Halted next root written refused waiting := by
  -- Names are distinct: what is written leaves what waits, and is left by what comes after it.
  induction documents generalizing machine with
  | nil => cases h
  | cons document documents ih =>
      obtain ⟨hname, hnames⟩ := List.forall_mem_cons.1 hnames
      obtain ⟨hnew, hnodup⟩ := List.nodup_cons.1 hnodup
      unfold writeAll at h
      rcases run_writeDocument_cases hname machine root document.2 with
        ⟨why, hrun⟩ | ⟨files, hrun, hheld, hbeside⟩
      · rw [run_bind_error hrun] at h
        cases h
        exact ⟨[], document, documents, why, rfl, rfl, by simp, fun _ _ => ⟨rfl, rfl⟩, rfl⟩
      · rw [run_bind_ok hrun] at h
        obtain ⟨written, refused, waiting, why, rfl, rfl, hhalted⟩ := ih hnames hnodup h
        refine ⟨document :: written, refused, waiting, why, rfl, rfl,
          List.forall_mem_cons.2 ⟨?_, hhalted.holds⟩, fun left hleft => ?_, hhalted.files_only⟩
        · exact hheld.of_sameAt (sameAt_of_writeAll hnames hname hnew h)
        · have hmem : left ∈ written ++ refused :: waiting := List.mem_append_right _ hleft
          have hne : left.1 ≠ document.1 :=
            ne_of_mem_of_not_mem (List.mem_map_of_mem hmem) hnew
          exact (hbeside left.1 (hnames left hmem) hne).trans (hhalted.sameAt left hleft)

end Machine

/-! ## Bundles -/

namespace Bundle

open Machine (writeAll SameAt)

variable {α : Type} [Scalar α] [WireNumber α] {machine next : Machine} {root : String}

/-- The documents of a bundle with the names of their files, in the order of writing. -/
def documents (bundle : Bundle α) : List (String × Json) :=
  [("bundle.json", bundle.header.toJson), ("project.json", bundle.timeline.toJson),
    ("library.json", bundle.library.toJson)]

theorem isFileName_of_mem_documents (bundle : Bundle α) :
    ∀ document ∈ bundle.documents, IsFileName document.1 := by
  simp only [documents, List.forall_mem_cons]
  exact ⟨⟨by decide, by decide⟩, ⟨by decide, by decide⟩, ⟨by decide, by decide⟩, by simp⟩

theorem nodup_documents (bundle : Bundle α) : (bundle.documents.map Prod.fst).Nodup := by
  simp [documents]

theorem write_eq_writeAll (bundle : Bundle α) :
    (bundle.write : ExceptT BundleFault (StateM Machine) Unit) =
      writeAll bundle.root bundle.documents := by
  unfold write documents writeAll writeAll writeAll writeAll
  rw [bind_pure_unit]
  rfl

theorem save_eq (bundle : Bundle α) (machine : Machine) :
    (bundle.save : StateM Machine (Except BundleFault Unit × Bundle α)) machine =
      (((machine.run (bundle.stamp machine.clock).write).1, bundle.stamp machine.clock),
        (machine.run (bundle.stamp machine.clock).write).2) := rfl

theorem exists_of_save {bundle saved : Bundle α} {answer : Except BundleFault Unit}
    (h : (bundle.save : StateM Machine (Except BundleFault Unit × Bundle α)) machine =
      ((answer, saved), next)) :
    saved = bundle.stamp machine.clock ∧
      machine.run (writeAll bundle.root saved.documents) = (answer, next) := by
  rw [save_eq, write_eq_writeAll] at h
  cases h
  exact ⟨rfl, rfl⟩

theorem readDocument_sameAt {β : Type} {path : String} (ofJson? : Json → Option β)
    (h : machine.SameAt next path) :
    (next.run (readDocument path ofJson?)).1 = (machine.run (readDocument path ofJson?)).1 := by
  rw [Machine.run_readDocument, Machine.run_readDocument, h.read_eq]

omit [Scalar α] in
theorem readLibrary_sameAt (h : machine.SameAt next (libraryPath root)) :
    (next.run (readLibrary root : ExceptT BundleFault (StateM Machine) (Library α))).1 =
      (machine.run (readLibrary root)).1 := by
  rw [run_readLibrary, run_readLibrary, h.at_eq]
  split
  · exact readDocument_sameAt _ h
  · rfl

theorem mem_of_documents_eq {bundle : Bundle α} {written waiting : List (String × Json)}
    {refused : String × Json} (h : bundle.documents = written ++ refused :: waiting) :
    ("library.json", bundle.library.toJson) ∈ refused :: waiting ∧
      (refused.1 = "library.json" ∨
        ("project.json", bundle.timeline.toJson) ∈ refused :: waiting) := by
  unfold documents at h
  rcases written with _ | ⟨first, _ | ⟨second, written⟩⟩
  · cases h
    simp
  · cases h
    simp
  · obtain ⟨rfl, hwritten⟩ := List.cons.inj h
    obtain ⟨rfl, hlast⟩ := List.cons.inj hwritten
    obtain ⟨rfl, hlast⟩ := List.append_eq_singleton_iff.1 hlast.symm |>.resolve_right (by simp)
    cases hlast
    simp

/--
A save that fails has stopped at one of the three documents. Those before it are in their files;
from it on, and so always at the library, the files are as they were. A bundle that could be loaded
before, and can be now, has the library that it had, and the timeline too unless it was the library
that could not be written.
-/
theorem save_stops (machine next : Machine) (bundle saved : Bundle α) (fault : BundleFault)
    (hsave : (bundle.save : StateM Machine (Except BundleFault Unit × Bundle α)) machine =
      ((.error fault, saved), next)) :
    saved = bundle.stamp machine.clock ∧
      (∃ written refused waiting why, saved.documents = written ++ refused :: waiting ∧
        fault = .file (Text.Path.join bundle.root refused.1) why ∧
        machine.Halted next bundle.root written refused waiting) ∧
      machine.SameAt next (libraryPath bundle.root) ∧
      ∀ old loaded : Bundle α, machine.run (load bundle.root) = (.ok old, machine) →
        next.run (load bundle.root) = (.ok loaded, next) → loaded.library = old.library ∧
          (fault.path ≠ libraryPath bundle.root → loaded.timeline = old.timeline) := by
  obtain ⟨hstamped, hwrite⟩ := exists_of_save hsave
  obtain ⟨written, refused, waiting, why, hsplit, rfl, hhalted⟩ :=
    Machine.exists_halted saved.isFileName_of_mem_documents saved.nodup_documents hwrite
  obtain ⟨hlibraryLeft, htimelineLeft⟩ := mem_of_documents_eq hsplit
  have hlibrary : machine.SameAt next (libraryPath bundle.root) :=
    hhalted.sameAt _ hlibraryLeft
  refine ⟨hstamped, ⟨written, refused, waiting, why, hsplit, rfl, hhalted⟩, hlibrary,
    fun old loaded hold hloaded => ?_⟩
  obtain ⟨_, _, htimelineOld, hlibraryOld⟩ := parts_of_load hold
  obtain ⟨_, _, htimelineNew, hlibraryNew⟩ := parts_of_load hloaded
  constructor
  · have hread := readLibrary_sameAt (α := α) hlibrary
    rw [hlibraryOld, hlibraryNew] at hread
    exact Except.ok.inj hread
  · intro hpath
    have htimeline : machine.SameAt next (timelinePath bundle.root) :=
      hhalted.sameAt _ (htimelineLeft.resolve_left fun hname =>
        hpath (congrArg (Text.Path.join bundle.root) hname))
    have hread := readDocument_sameAt (Timeline.ofJson? (α := α)) htimeline
    rw [htimelineOld, htimelineNew] at hread
    exact Except.ok.inj hread

/-! ## A library that cannot be written -/

theorem Stands.exists_write_stopped {bundle old : Bundle Float} (h : old.Stands machine)
    (hguarded : machine.guarded = [libraryPath old.root]) (hroot : bundle.root = old.root) :
    ∃ next, machine.run bundle.write = (.error (.file (libraryPath old.root) .denied), next) ∧
      Stands { bundle with library := old.library } next := by
  have hfree {path name : String} (hpath : EndsIn path name) (hname : name ≠ "library.json") :
      path ∉ machine.guarded := by
    rw [hguarded, List.mem_singleton]
    rintro rfl
    exact hname (hpath.name_eq (libraryPath_endsIn _))
  obtain ⟨next, hsame, hstands, hwrite⟩ := h.exists_write_timeline hroot
    (hfree (headerPath_endsIn _) (by decide)) (hfree (timelinePath_endsIn _) (by decide))
  refine ⟨next, ?_, hstands⟩
  rw [hwrite, Machine.run_writeDocument]
  unfold Machine.write
  simp [hsame, hguarded, hroot]

/-- The demonstration with another sound, which is placed. -/
def renewed : Bundle Float :=
  { Workspace.demo with
    timeline := .ofTracks "p"
      [⟨"audio-1", .audio, [⟨"x", "audio-1", "media/b.wav", 0, 2, 0, .audio, 1, 1, 0, none⟩]⟩]
    library := ⟨[⟨"a", "a.wav", "/a.wav", .audio, 1e308⟩, ⟨"b", "b.wav", "/b.wav", .audio, 2⟩]⟩ }

/-- The demonstration where the library can be read but not written. -/
def guardedMachine : Machine :=
  { Workspace.demoMachine with guarded := [libraryPath "demo"] }

theorem stands_guarded : Workspace.demo.Stands guardedMachine :=
  Workspace.stands_demo.of_files_eq rfl

theorem load_guarded : guardedMachine.run (load "demo") = (.ok Workspace.demo, guardedMachine) := by
  have hload := stands_guarded.run_load rfl Workspace.tempered_demo (by decide +kernel)
    (by decide +kernel)
  rwa [if_pos (by decide +kernel)] at hload

/-- The new timeline is saved, its library is not, and it is loaded with the old one. -/
theorem exists_save_guarded : ∃ saved next,
    (renewed.save : StateM Machine (Except BundleFault Unit × Bundle Float)) guardedMachine =
        ((.error (.file (libraryPath "demo") .denied), saved), next) ∧
      next.run (load "demo") =
        (.ok ⟨"demo", saved.header, renewed.timeline, Workspace.demo.library⟩, next) := by
  let saved := renewed.stamp guardedMachine.clock
  have hroot : saved.root = Workspace.demo.root := rfl
  obtain ⟨next, hwrite, hmixed⟩ := stands_guarded.exists_write_stopped rfl hroot
  have htempered : renewed.timeline.Tempered :=
    ⟨by decide +kernel, by decide +kernel, by decide +kernel⟩
  have hload := hmixed.run_load rfl htempered (by decide +kernel) (by decide +kernel)
  rw [if_pos (by decide +kernel)] at hload
  refine ⟨saved, next, ?_, hload⟩
  rw [save_eq, hwrite]
  rfl

/-- The save of the new sound fails, and its clip is loaded with a library that has no such sound. -/
theorem save_mixes_renewed : ∃ fault saved next,
    (renewed.save : StateM Machine (Except BundleFault Unit × Bundle Float)) guardedMachine =
        ((.error fault, saved), next) ∧
      (¬ guardedMachine.SameAt next (timelinePath "demo")) ∧
      ∃ old loaded : Bundle Float, guardedMachine.run (load "demo") = (.ok old, guardedMachine) ∧
        next.run (load "demo") = (.ok loaded, next) ∧ loaded.timeline = renewed.timeline ∧
        loaded.library = old.library ∧
        loaded.timeline.clips.map Clip.source = ["media/b.wav"] ∧
        loaded.library.assets.map Asset.fileName = ["a.wav"] := by
  obtain ⟨saved, next, hsave, hload⟩ := exists_save_guarded
  have hsources : renewed.timeline.clips.map Clip.source = ["media/b.wav"] := by decide +kernel
  have hnames : Workspace.demo.library.assets.map Asset.fileName = ["a.wav"] := by decide +kernel
  refine ⟨_, saved, next, hsave, fun hsame => ?_, _, _, load_guarded, hload, rfl, rfl, hsources,
    hnames⟩
  have hread := readDocument_sameAt (Timeline.ofJson? (α := Float)) hsame
  obtain ⟨_, _, htimelineOld, _⟩ := parts_of_load load_guarded
  obtain ⟨_, _, htimelineNew, _⟩ := parts_of_load hload
  rw [htimelineOld, htimelineNew] at hread
  have hclips : renewed.timeline.clips = Workspace.demo.timeline.clips :=
    congrArg Timeline.clips (Except.ok.inj hread)
  rw [hclips] at hsources
  exact absurd hsources (by decide +kernel)

/-- The header and the timeline are new, the library is what it was. -/
theorem save_stops_renewed : ∃ saved next,
    (renewed.save : StateM Machine (Except BundleFault Unit × Bundle Float)) guardedMachine =
        ((.error (.file (libraryPath "demo") .denied), saved), next) ∧
      saved = renewed.stamp guardedMachine.clock ∧
      (∃ written refused waiting why, saved.documents = written ++ refused :: waiting ∧
        BundleFault.file (libraryPath "demo") .denied =
          .file (Text.Path.join "demo" refused.1) why ∧
        guardedMachine.Halted next "demo" written refused waiting) ∧
      guardedMachine.SameAt next (libraryPath "demo") ∧
      ∃ loaded : Bundle Float, next.run (load "demo") = (.ok loaded, next) ∧
        loaded.library = Workspace.demo.library := by
  obtain ⟨saved, next, hsave, hload⟩ := exists_save_guarded
  obtain ⟨hstamped, hhalted, hlibrary, hloads⟩ :=
    save_stops guardedMachine next renewed saved _ hsave
  exact ⟨saved, next, hsave, hstamped, hhalted, hlibrary, _, hload,
    (hloads _ _ load_guarded hload).1⟩

end Bundle

end Montage
