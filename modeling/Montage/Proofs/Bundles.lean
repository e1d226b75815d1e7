import Montage.Proofs.Folders
import Montage.Proofs.Stored

/-!
# Bundles that are written and read

The three documents of a bundle go into three files, each under its own name in the folder, so none
is written over by another. What is read is what was written, unless the timeline has a clip whose
times are not all finite: its document is malformed.
-/

namespace Montage

open Json (respelt)

/-! ## Runs on a machine -/

namespace Machine

/-- The answer of a program, and the machine after it. -/
def run {ε β : Type} (machine : Machine) (program : ExceptT ε (StateM Machine) β) :
    Except ε β × Machine :=
  ExceptT.run program machine

section Bind

variable {ε β γ : Type} {first : ExceptT ε (StateM Machine) β}
  {rest : β → ExceptT ε (StateM Machine) γ} {machine mid next : Machine}

theorem run_bind (machine : Machine) (first : ExceptT ε (StateM Machine) β)
    (rest : β → ExceptT ε (StateM Machine) γ) : machine.run (first >>= rest) =
      match machine.run first with
      | (.ok value, mid) => mid.run (rest value)
      | (.error fault, mid) => (.error fault, mid) := by
  have hbind : machine.run (first >>= rest) =
      ExceptT.bindCont rest (machine.run first).1 (machine.run first).2 := rfl
  rw [hbind]
  cases machine.run first with
  | mk answer mid => cases answer <;> rfl

theorem run_bind_ok {value : β} (h : machine.run first = (.ok value, mid)) :
    machine.run (first >>= rest) = mid.run (rest value) := by
  rw [run_bind, h]

theorem run_bind_error {fault : ε} (h : machine.run first = (.error fault, mid)) :
    machine.run (first >>= rest) = (.error fault, mid) := by
  rw [run_bind, h]

theorem exists_of_run_bind {result : γ} (h : machine.run (first >>= rest) = (.ok result, next)) :
    ∃ value mid, machine.run first = (.ok value, mid) ∧
      mid.run (rest value) = (.ok result, next) := by
  rw [run_bind] at h
  split at h
  · rename_i value mid hfirst
    exact ⟨value, mid, hfirst, h⟩
  · cases h

end Bind

theorem run_adapt {β ε ε' : Type} (machine : Machine) (program : ExceptT ε (StateM Machine) β)
    (f : ε → ε') : machine.run (program.adapt f) =
      ((machine.run program).1.mapError f, (machine.run program).2) := rfl

theorem run_eq_ok_of_adapt {β ε ε' : Type} {program : ExceptT ε (StateM Machine) β} {f : ε → ε'}
    {machine next : Machine} {value : β} (h : machine.run (program.adapt f) = (.ok value, next)) :
    machine.run program = (.ok value, next) := by
  rw [run_adapt] at h
  cases hrun : machine.run program with
  | mk answer mid =>
      rw [hrun] at h
      cases answer with
      | ok result =>
          cases h
          rfl
      | error fault => cases h

/-! ## Documents in files -/

variable {machine next : Machine} {path : String} {document : Json}

/-- The file is there, and it has the text of the document. -/
structure Holds (machine : Machine) (path : String) (document : Json) : Prop where
  read_eq : machine.files.read path = .ok document.pretty
  at_eq : machine.files.at? path = some (.file document.pretty)

theorem run_writeDocument (machine : Machine) (path : String) (document : Json) :
    machine.run (writeDocument path document) =
      match Machine.write path document.pretty machine with
      | .error fault => (.error (.file path fault), machine)
      | .ok files => (.ok (), { machine with files }) := by
  unfold writeDocument
  rw [run_adapt]
  change ((change (Machine.write path document.pretty) machine).1.mapError _,
    (change (Machine.write path document.pretty) machine).2) = _
  unfold change
  cases Machine.write path document.pretty machine <;> rfl

theorem run_readDocument (machine : Machine) {β : Type} (path : String)
    (ofJson? : Json → Option β) : machine.run (readDocument path ofJson?) =
      (match machine.files.read path with
        | .error fault => .error (.file path fault)
        | .ok text => (Json.parse? text >>= ofJson?).elim (.error (.malformed path)) .ok,
      machine) := by
  have htext : machine.run ((ExceptT.mk (Host.readText path)).adapt (BundleFault.file path)) =
      ((machine.files.read path).mapError (.file path), machine) := rfl
  unfold readDocument
  rw [run_bind, htext]
  cases machine.files.read path with
  | error fault => rfl
  | ok text =>
      simp only [Except.mapError]
      cases Json.parse? text >>= ofJson? <;> rfl

theorem exists_of_writeDocument (h : machine.run (writeDocument path document) = (.ok (), next)) :
    ∃ files, machine.files.write path document.pretty = .ok files ∧
      next = { machine with files } := by
  rw [run_writeDocument] at h
  unfold Machine.write at h
  split at h
  · cases h
  · rename_i files hwrite
    split at hwrite
    · cases hwrite
    · cases h
      exact ⟨files, hwrite, rfl⟩

theorem exists_of_readDocument {β : Type} {ofJson? : Json → Option β} {value : β}
    (h : machine.run (readDocument path ofJson?) = (.ok value, next)) :
    next = machine ∧ ∃ document, ofJson? document = some value := by
  rw [run_readDocument] at h
  cases hread : machine.files.read path with
  | error fault =>
      rw [hread] at h
      cases h
  | ok text =>
      rw [hread] at h
      simp only [Option.bind_eq_bind] at h
      cases hvalue : (Json.parse? text).bind ofJson? with
      | none =>
          rw [hvalue] at h
          cases h
      | some result =>
          rw [hvalue] at h
          cases h
          obtain ⟨document, _, hdocument⟩ := Option.bind_eq_some_iff.1 hvalue
          exact ⟨rfl, document, hdocument⟩

theorem holds_of_writeDocument {name : String} (hpath : EndsIn path name)
    (h : machine.run (writeDocument path document) = (.ok (), next)) :
    next.Holds path document := by
  obtain ⟨files, hwrite, rfl⟩ := exists_of_writeDocument h
  obtain ⟨hread, hat⟩ := FileTree.read_write hpath hwrite
  exact ⟨hread, hat⟩

namespace Holds

theorem writeDocument {name other otherPath : String} {otherDocument : Json}
    (hheld : machine.Holds otherPath otherDocument) (hother : EndsIn otherPath other)
    (hpath : EndsIn path name) (hne : other ≠ name)
    (h : machine.run (writeDocument path document) = (.ok (), next)) :
    next.Holds otherPath otherDocument := by
  obtain ⟨files, hwrite, rfl⟩ := exists_of_writeDocument h
  obtain ⟨hread, hat⟩ := FileTree.read_write_other hpath hother hne hwrite hheld.read_eq
  exact ⟨hread, hat⟩

/-- A file that is there, and that is not guarded, can be filled again. -/
theorem exists_writeDocument {name : String} (hheld : machine.Holds path document)
    (hpath : EndsIn path name) (hfree : path ∉ machine.guarded) (other : Json) :
    ∃ next, machine.run (Montage.writeDocument path other) = (.ok (), next) ∧
      next.guarded = machine.guarded := by
  obtain ⟨files, hwrite⟩ := FileTree.exists_write hpath hheld.read_eq other.pretty
  have hwriteFree : Machine.write path other.pretty machine = .ok files := by
    unfold Machine.write
    rw [if_neg (by simpa using hfree), hwrite]
  refine ⟨{ machine with files }, ?_, rfl⟩
  rw [run_writeDocument, hwriteFree]

theorem run_readDocument (h : machine.Holds path document) {β : Type}
    (ofJson? : Json → Option β) : machine.run (readDocument path ofJson?) =
      ((ofJson? (respelt document)).elim (.error (.malformed path)) .ok, machine) := by
  rw [Machine.run_readDocument, h.read_eq]
  simp only [Json.parse?_pretty, Option.bind_eq_bind, Option.bind_some]

end Holds

end Machine

/-! ## Headers -/

theorem BundleHeader.ofJson?_toJson (header : BundleHeader) :
    BundleHeader.ofJson? (respelt header.toJson) = some header := by
  rw [toJson, Json.respelt_record, ofJson?, Json.fields?_record (by simp) (by simp)]
  rfl

/-! ## Bundles -/

namespace Bundle

theorem headerPath_endsIn (root : String) : EndsIn (headerPath root) "bundle.json" :=
  endsIn_join root (by decide) (by decide)

theorem timelinePath_endsIn (root : String) : EndsIn (timelinePath root) "project.json" :=
  endsIn_join root (by decide) (by decide)

theorem libraryPath_endsIn (root : String) : EndsIn (libraryPath root) "library.json" :=
  endsIn_join root (by decide) (by decide)

variable {machine saved : Machine}

/-- The three files of the bundle are there. -/
structure Stands (bundle : Bundle Float) (machine : Machine) : Prop where
  header : machine.Holds (headerPath bundle.root) bundle.header.toJson
  timeline : machine.Holds (timelinePath bundle.root) bundle.timeline.toJson
  library : machine.Holds (libraryPath bundle.root) bundle.library.toJson

theorem Stands.of_files_eq {bundle : Bundle Float} (h : bundle.Stands machine)
    (hfiles : saved.files = machine.files) : bundle.Stands saved := by
  obtain ⟨hheader, htimeline, hlibrary⟩ := h
  refine ⟨⟨?_, ?_⟩, ⟨?_, ?_⟩, ⟨?_, ?_⟩⟩ <;> rw [hfiles]
  · exact hheader.read_eq
  · exact hheader.at_eq
  · exact htimeline.read_eq
  · exact htimeline.at_eq
  · exact hlibrary.read_eq
  · exact hlibrary.at_eq

/-- A bundle that is written stands in its three files. -/
theorem stands_of_write {bundle : Bundle Float}
    (h : machine.run bundle.write = (.ok (), saved)) : bundle.Stands saved := by
  obtain ⟨_, first, hheader, hafter⟩ := Machine.exists_of_run_bind h
  obtain ⟨_, second, htimeline, hlibrary⟩ := Machine.exists_of_run_bind hafter
  have hheaderHeld := Machine.holds_of_writeDocument (headerPath_endsIn _) hheader
  have hheaderLeft := hheaderHeld.writeDocument (headerPath_endsIn _) (timelinePath_endsIn _)
    (by decide) htimeline
  have htimelineHeld := Machine.holds_of_writeDocument (timelinePath_endsIn _) htimeline
  exact ⟨hheaderLeft.writeDocument (headerPath_endsIn _) (libraryPath_endsIn _) (by decide)
      hlibrary,
    htimelineHeld.writeDocument (timelinePath_endsIn _) (libraryPath_endsIn _) (by decide) hlibrary,
    Machine.holds_of_writeDocument (libraryPath_endsIn _) hlibrary⟩

/-- Over a bundle that stands in the same folder, two documents are written before the library. -/
theorem Stands.exists_write_timeline {old : Bundle Float} (h : old.Stands machine)
    {bundle : Bundle Float} (hroot : bundle.root = old.root)
    (hheaderFree : headerPath bundle.root ∉ machine.guarded)
    (htimelineFree : timelinePath bundle.root ∉ machine.guarded) :
    ∃ mid, mid.guarded = machine.guarded ∧ Stands { bundle with library := old.library } mid ∧
      machine.run bundle.write =
        mid.run (writeDocument (libraryPath bundle.root) bundle.library.toJson) := by
  -- The files are filled in turn; those that wait for it stay as they were.
  obtain ⟨hheader, htimeline, hlibrary⟩ := h
  rw [← hroot] at hheader htimeline hlibrary
  obtain ⟨first, hfirst, hfirstGuarded⟩ := hheader.exists_writeDocument (headerPath_endsIn _)
    hheaderFree bundle.header.toJson
  have hheaderHeld := Machine.holds_of_writeDocument (headerPath_endsIn _) hfirst
  have htimelineLeft := htimeline.writeDocument (timelinePath_endsIn _) (headerPath_endsIn _)
    (by decide) hfirst
  have hlibraryLeft := hlibrary.writeDocument (libraryPath_endsIn _) (headerPath_endsIn _)
    (by decide) hfirst
  obtain ⟨second, hsecond, hsecondGuarded⟩ := htimelineLeft.exists_writeDocument
    (timelinePath_endsIn _) (hfirstGuarded ▸ htimelineFree) bundle.timeline.toJson
  refine ⟨second, hsecondGuarded.trans hfirstGuarded, ⟨?_, ?_, ?_⟩, ?_⟩
  · exact hheaderHeld.writeDocument (headerPath_endsIn _) (timelinePath_endsIn _) (by decide) hsecond
  · exact Machine.holds_of_writeDocument (timelinePath_endsIn _) hsecond
  · exact hlibraryLeft.writeDocument (libraryPath_endsIn _) (timelinePath_endsIn _) (by decide)
      hsecond
  · unfold write
    rw [Machine.run_bind_ok hfirst, Machine.run_bind_ok hsecond]

/-- A bundle can be written over one that stands in the same folder, if no file is guarded. -/
theorem Stands.exists_write {old : Bundle Float} (h : old.Stands machine)
    (hfree : machine.guarded = []) {bundle : Bundle Float} (hroot : bundle.root = old.root) :
    ∃ saved, machine.run bundle.write = (.ok (), saved) := by
  obtain ⟨mid, hguarded, hstands, hwrite⟩ :=
    h.exists_write_timeline hroot (by simp [hfree]) (by simp [hfree])
  obtain ⟨saved, hsaved, _⟩ := hstands.library.exists_writeDocument (libraryPath_endsIn _)
    (by simp [hguarded, hfree]) bundle.library.toJson
  exact ⟨saved, hwrite.trans hsaved⟩

/-- What a folder with the documents of a bundle is read as. -/
theorem Stands.run_load {bundle : Bundle Float} (h : bundle.Stands machine)
    (hindex : bundle.timeline.index = .ofTracks bundle.timeline.tracks)
    (htempered : bundle.timeline.Tempered) (hfinite : AllFinite bundle.library.numbers)
    (hreads : ∀ x ∈ bundle.timeline.numbers ++ bundle.library.numbers, ReadsBack x) :
    machine.run (load bundle.root) =
      (if bundle.timeline.Bounded then .ok bundle
        else .error (.malformed (timelinePath bundle.root)), machine) := by
  obtain ⟨htimelineReads, hlibraryReads⟩ := List.forall_mem_append.1 hreads
  obtain ⟨hheader, htimeline, hlibrary⟩ := h
  have hreadHeader := hheader.run_readDocument BundleHeader.ofJson?
  have hreadTimeline := htimeline.run_readDocument (Timeline.ofJson? (α := Float))
  have hreadLibrary := hlibrary.run_readDocument (Library.ofJson? (α := Float))
  rw [BundleHeader.ofJson?_toJson] at hreadHeader
  rw [Timeline.ofJson?_toJson hindex htimelineReads htempered] at hreadTimeline
  rw [Library.ofJson?_toJson hlibraryReads hfinite] at hreadLibrary
  unfold load
  rw [Machine.run_bind_ok hreadHeader]
  split
  · rename_i hbounded
    rw [if_pos hbounded] at hreadTimeline
    rw [Machine.run_bind_ok hreadTimeline]
    have hthere : machine.run
        (liftM (Host.has (libraryPath bundle.root) : StateM Machine Bool) :
          ExceptT BundleFault (StateM Machine) Bool) = (.ok true, machine) := by
      change (Except.ok (machine.files.at? (libraryPath bundle.root)).isSome, machine) = _
      rw [hlibrary.at_eq]
      rfl
    rw [Machine.run_bind_ok hthere, if_pos rfl, Machine.run_bind_ok hreadLibrary]
    rfl
  · rename_i hbounded
    rw [if_neg hbounded] at hreadTimeline
    exact Machine.run_bind_error hreadTimeline

/-- Reads the library of a bundle, an empty one if it has none. -/
def readLibrary {α : Type} [WireNumber α] (root : String) :
    ExceptT BundleFault (StateM Machine) (Library α) := do
  if ← (Host.has (libraryPath root) : StateM Machine Bool) then
    readDocument (libraryPath root) Library.ofJson?
  else pure .empty

theorem run_readLibrary {α : Type} [WireNumber α] (machine : Machine) (root : String) :
    machine.run (readLibrary root) =
      machine.run (if (machine.files.at? (libraryPath root)).isSome then
        readDocument (libraryPath root) (Library.ofJson? (α := α)) else pure .empty) := rfl

/-- A bundle that is loaded has the timeline and the library that are read from their files. -/
theorem parts_of_load {α : Type} [Scalar α] [WireNumber α] {root : String} {bundle : Bundle α}
    (h : machine.run (load root) = (.ok bundle, saved)) :
    saved = machine ∧ bundle.root = root ∧
      machine.run (readDocument (timelinePath root) Timeline.ofJson?) =
        (.ok bundle.timeline, machine) ∧
      machine.run (readLibrary root) = (.ok bundle.library, machine) := by
  unfold load at h
  obtain ⟨_, _, hheader, hafter⟩ := Machine.exists_of_run_bind h
  obtain ⟨rfl, _⟩ := Machine.exists_of_readDocument hheader
  obtain ⟨timeline, _, htimeline, hrest⟩ := Machine.exists_of_run_bind hafter
  obtain ⟨rfl, _⟩ := Machine.exists_of_readDocument htimeline
  obtain ⟨there, _, hthere, hlast⟩ := Machine.exists_of_run_bind hrest
  cases hthere
  rw [run_readLibrary]
  split at hlast
  · rename_i hthere
    obtain ⟨library, _, hlibrary, hbundle⟩ := Machine.exists_of_run_bind hlast
    obtain ⟨rfl, _⟩ := Machine.exists_of_readDocument hlibrary
    cases hbundle
    rw [if_pos hthere]
    exact ⟨rfl, rfl, htimeline, hlibrary⟩
  · rename_i hnone
    cases hlast
    rw [if_neg hnone]
    exact ⟨rfl, rfl, htimeline, rfl⟩

/-- All numbers of a bundle that is read are finite. -/
theorem finite_of_load {root : String} {bundle : Bundle Float}
    (h : machine.run (load root) = (.ok bundle, saved)) :
    saved = machine ∧ bundle.root = root ∧
      bundle.timeline.index = .ofTracks bundle.timeline.tracks ∧ bundle.timeline.Bounded ∧
      bundle.timeline.Tempered ∧ AllFinite bundle.library.numbers := by
  obtain ⟨hsaved, hroot, htimeline, hlibrary⟩ := parts_of_load h
  obtain ⟨_, _, hread⟩ := Machine.exists_of_readDocument htimeline
  obtain ⟨hindex, hbounded, htempered⟩ := Timeline.tempered_of_ofJson? hread
  refine ⟨hsaved, hroot, hindex, hbounded, htempered, ?_⟩
  rw [run_readLibrary] at hlibrary
  split at hlibrary
  · obtain ⟨_, _, hreadLibrary⟩ := Machine.exists_of_readDocument hlibrary
    exact Library.allFinite_of_ofJson? hreadLibrary
  · obtain ⟨hlibrary, _⟩ := Prod.mk.inj hlibrary
    rw [← Except.ok.inj hlibrary]
    intro x hx
    cases hx

end Bundle

end Montage
