import Montage.Command.Workspace
import Montage.Proofs.Blame
import Montage.Proofs.Bundles
import Montage.Proofs.Levels

/-!
# What is saved can be loaded

A workspace that is opened, edited and saved is loaded as it was saved if and only if all its clips
have finite times. An edit can give a clip others: a sum of finite doubles may be infinite, and no
edit looks at that.
-/

namespace Montage

/-! ## Workspaces that are opened and saved -/

namespace Workspace

variable {machine saved : Machine} {w : Workspace Float} {root : String}

theorem exists_of_openBundle {settings : EditorSettings Float} {ids : IdSupply}
    (h : machine.run (openBundle root settings ids) = (.ok w, saved)) :
    machine.run (Bundle.load root) = (.ok w.bundle, saved) ∧
      w.session = .start w.bundle.timeline w.bundle.library settings ids false := by
  unfold openBundle at h
  obtain ⟨bundle, mid, hload, hreturn⟩ := Machine.exists_of_run_bind h
  cases hreturn
  exact ⟨Machine.run_eq_ok_of_adapt hload, rfl⟩

theorem run_openBundle {settings : EditorSettings Float} {ids : IdSupply} {bundle : Bundle Float}
    (h : machine.run (Bundle.load root) = (.ok bundle, saved)) :
    machine.run (openBundle root settings ids) =
      (.ok ⟨bundle, .start bundle.timeline bundle.library settings ids false⟩, saved) := by
  have hadapt : machine.run ((Bundle.load root).adapt (Complaint.notLoaded (α := Float))) =
      (.ok bundle, saved) := by
    rw [Machine.run_adapt, h]
    rfl
  unfold openBundle
  rw [Machine.run_bind_ok hadapt]
  rfl

/-- The bundle that a workspace is saved as. -/
def stored (w : Workspace Float) (now : String) : Bundle Float :=
  { w.bundle with timeline := w.session.timeline, library := w.session.library }.stamp now

theorem run_save_of_zero (h : w.session.revision = 0) : machine.run w.save = (.ok (), machine) := by
  unfold save
  rw [if_neg (not_not_intro h)]
  rfl

theorem run_save (h : w.session.revision ≠ 0) : machine.run w.save =
    machine.run ((w.stored machine.clock).write.adapt Complaint.notSaved) := by
  rw [Machine.run_adapt]
  unfold save
  rw [if_pos h]
  rfl

/-- A workspace can be saved over a bundle that stands in the same folder. -/
theorem exists_save {old : Bundle Float} (h : old.Stands machine) (hfree : machine.guarded = [])
    (hroot : w.bundle.root = old.root) : ∃ saved, machine.run w.save = (.ok (), saved) := by
  by_cases hrevision : w.session.revision = 0
  · exact ⟨machine, run_save_of_zero hrevision⟩
  · have hwritten : ∃ saved, machine.run (w.stored machine.clock).write = (.ok (), saved) :=
      h.exists_write hfree hroot
    obtain ⟨saved, hwrite⟩ := hwritten
    refine ⟨saved, ?_⟩
    rw [run_save hrevision, Machine.run_adapt, hwrite]
    rfl

/-- What a saved workspace is loaded as. -/
theorem run_load_saved (hroot : w.bundle.root = root) (hrevision : w.session.revision ≠ 0)
    (hindex : w.session.timeline.index = .ofTracks w.session.timeline.tracks)
    (htempered : w.session.timeline.Tempered) (hfinite : AllFinite w.session.library.numbers)
    (hreads : ∀ x ∈ w.session.timeline.numbers ++ w.session.library.numbers, ReadsBack x)
    (hsave : machine.run w.save = (.ok (), saved)) :
    saved.run (Bundle.load root) =
      (if w.session.timeline.Bounded then
          .ok ⟨root, { w.bundle.header with modifiedAt := machine.clock }, w.session.timeline,
            w.session.library⟩
        else .error (.malformed (Bundle.timelinePath root)), saved) := by
  rw [run_save hrevision] at hsave
  have hstands := Bundle.stands_of_write (Machine.run_eq_ok_of_adapt hsave)
  subst hroot
  exact hstands.run_load hindex htempered hfinite hreads

/--
A workspace is opened, edited and saved, and each finite number has a text that names it. What is
loaded is the timeline and the library of the session if all clips start, stop and begin in their
sources at finite times; if not, the document of the timeline is malformed.
-/
theorem load_of_save {settings : EditorSettings Float} {ids : IdSupply}
    (hopen : machine.run (openBundle root settings ids) = (.ok w, machine))
    (hnodup : (w.bundle.timeline.clips.map Clip.id).Nodup) (calls : List (Call Float))
    (hcalls : ∀ call ∈ calls, call.Storable)
    (hreads : ∀ x ∈ (w.session.run calls).timeline.numbers ++
      (w.session.run calls).library.numbers, ReadsBack x)
    (hsave : machine.run (save { w with session := w.session.run calls }) = (.ok (), saved)) :
    let s := w.session.run calls
    ∃ header, saved.run (Bundle.load root) =
      (if s.timeline.Bounded then .ok ⟨root, header, s.timeline, s.library⟩
        else .error (.malformed (Bundle.timelinePath root)), saved) := by
  intro s
  obtain ⟨hload, hsession⟩ := exists_of_openBundle hopen
  obtain ⟨_, hroot, hindex, hbounded, htempered, hfinite⟩ := Bundle.finite_of_load hload
  have hlevel : s.Level := by
    refine Session.run_level ?_ calls
    rw [hsession]
    exact Session.start_level hindex hnodup htempered ..
  obtain ⟨hlengths, hstocked⟩ := Session.run_stocks (s := w.session) hcalls (by rwa [hsession])
  rcases hstocked with ⟨hrevision, htimeline, hlibrary⟩ | hcommitted
  -- Without a commit nothing is written, and the files are those that were opened.
  · have hzero : (w.session.run calls).revision = 0 := by
      rw [hrevision, hsession]
      rfl
    rw [run_save_of_zero hzero] at hsave
    cases hsave
    have htimelineEq : s.timeline = w.bundle.timeline := by
      rw [htimeline, hsession]
      rfl
    have hlibraryEq : s.library = w.bundle.library := by
      rw [hlibrary, hsession]
      rfl
    subst hroot
    refine ⟨w.bundle.header, ?_⟩
    rw [htimelineEq, hlibraryEq, if_pos hbounded]
    exact hload
  · have hsome : (w.session.run calls).revision ≠ 0 := Nat.ne_of_gt (Nat.zero_lt_of_lt hcommitted)
    exact ⟨_, run_load_saved (w := { w with session := s }) hroot hsome hlevel.inStep.index_eq
      hlevel.tempered hlengths hreads hsave⟩

/-! ## A folder for a demonstration -/

/-- A project with one empty track, and a sound whose length is close to the greatest double. -/
def demo : Bundle Float where
  root := "demo"
  header := .new "demo" "2024-01-01T00:00:00Z"
  timeline := .ofTracks "p" [⟨"audio-1", .audio, []⟩]
  library := ⟨[⟨"a", "a.wav", "/a.wav", .audio, 1e308⟩]⟩

/-- A machine where the project stands in a folder. -/
def demoMachine : Machine :=
  .ofFiles ⟨[(["demo"], .folder), (["demo", "bundle.json"], .file demo.header.toJson.pretty),
    (["demo", "project.json"], .file demo.timeline.toJson.pretty),
    (["demo", "library.json"], .file demo.library.toJson.pretty)], []⟩ "2024-01-02T00:00:00Z"

/-- The workspace when the project is opened. -/
def demoWorkspace : Workspace Float :=
  ⟨demo, .start demo.timeline demo.library Session.doubleSettings .tally false⟩

/-- A machine where a bundle stands in the folder of the demonstration. -/
def shelved (bundle : Bundle Float) : Machine :=
  .ofFiles ⟨[(["demo"], .folder), (["demo", "bundle.json"], .file bundle.header.toJson.pretty),
    (["demo", "project.json"], .file bundle.timeline.toJson.pretty),
    (["demo", "library.json"], .file bundle.library.toJson.pretty)], []⟩ "2024-01-02T00:00:00Z"

theorem locate_shelved (bundle : Bundle Float) {name : String}
    (hname : name ∈ ["bundle.json", "project.json", "library.json"]) :
    (shelved bundle).files.locate (Text.Path.join "demo" name) = .ok ["demo", name] := by
  simp only [List.mem_cons, List.not_mem_nil, or_false] at hname
  have hplain : (Text.Path.join "demo" name).splitOn "/" = ["demo", name] ∧
      FileTree.checkPath (Text.Path.join "demo" name) = .ok () ∧
      Text.Path.isAbsolute (Text.Path.join "demo" name) = false := by
    rw [Text.Path.splitOn_slash]
    rcases hname with rfl | rfl | rfl <;> decide +kernel
  unfold FileTree.locate FileTree.follow
  rw [hplain.1, hplain.2.1, hplain.2.2]
  rcases hname with rfl | rfl | rfl <;> rfl

theorem stands_shelved {bundle : Bundle Float} (hroot : bundle.root = "demo") :
    bundle.Stands (shelved bundle) := by
  have hread {text : String} (name : String)
      (hname : name ∈ ["bundle.json", "project.json", "library.json"])
      (hentry : (shelved bundle).files.entry? ["demo", name] = some (.file text)) :
      (shelved bundle).files.read (Text.Path.join bundle.root name) = .ok text ∧
        (shelved bundle).files.at? (Text.Path.join bundle.root name) = some (.file text) := by
    rw [hroot]
    exact FileTree.read_of_file (locate_shelved bundle hname) hentry
  obtain ⟨hheader, hheaderAt⟩ := hread "bundle.json" (by simp) rfl
  obtain ⟨htimeline, htimelineAt⟩ := hread "project.json" (by simp) rfl
  obtain ⟨hlibrary, hlibraryAt⟩ := hread "library.json" (by simp) rfl
  exact ⟨⟨hheader, hheaderAt⟩, ⟨htimeline, htimelineAt⟩, ⟨hlibrary, hlibraryAt⟩⟩

theorem stands_demo : demo.Stands demoMachine :=
  stands_shelved rfl

theorem tempered_demo : demo.timeline.Tempered := by
  constructor <;> simp [demo, Timeline.clips, Timeline.ofTracks, Timeline.assemble]

theorem open_demo : demoMachine.run (openBundle "demo" Session.doubleSettings .tally) =
    (.ok demoWorkspace, demoMachine) := by
  refine run_openBundle ?_
  have hload := stands_demo.run_load rfl tempered_demo (by decide +kernel) (by decide +kernel)
  rwa [if_pos (by decide +kernel)] at hload

theorem nodup_demo : (demoWorkspace.bundle.timeline.clips.map Clip.id).Nodup := by
  decide +kernel

theorem exists_save_demo (s : Session Float) :
    ∃ saved, demoMachine.run (save { demoWorkspace with session := s }) = (.ok (), saved) :=
  exists_save stands_demo rfl rfl

/-- Places the sound, splits it, and makes its left half silent. -/
def tamedCalls : List (Call Float) :=
  [.place "a" none (.instant 0), .split "x" 4e307, .setVolume "x" 0]

theorem load_of_save_tamed :
    let s := demoWorkspace.session.run tamedCalls
    ∃ saved header,
      demoMachine.run (openBundle "demo" Session.doubleSettings .tally) =
        (.ok demoWorkspace, demoMachine) ∧
      (demoWorkspace.bundle.timeline.clips.map Clip.id).Nodup ∧
      (∀ call ∈ tamedCalls, call.Storable) ∧
      (∀ x ∈ s.timeline.numbers ++ s.library.numbers, ReadsBack x) ∧
      demoMachine.run (save { demoWorkspace with session := s }) = (.ok (), saved) ∧
      s.revision = 3 ∧ s.timeline.Bounded ∧
      saved.run (Bundle.load "demo") = (.ok ⟨"demo", header, s.timeline, s.library⟩, saved) := by
  intro s
  have hcalls : ∀ call ∈ tamedCalls, call.Storable := by
    simp only [tamedCalls, List.forall_mem_cons]
    exact ⟨trivial, trivial, trivial, nofun⟩
  have hreads : ∀ x ∈ s.timeline.numbers ++ s.library.numbers, ReadsBack x := by decide +kernel
  have hbounded : s.timeline.Bounded := by decide +kernel
  obtain ⟨saved, hsave⟩ := exists_save_demo s
  obtain ⟨header, hload⟩ := load_of_save open_demo nodup_demo tamedCalls hcalls hreads hsave
  rw [if_pos hbounded] at hload
  exact ⟨saved, header, open_demo, nodup_demo, hcalls, hreads, hsave, by decide +kernel, hbounded,
    hload⟩

/-- Places the sound where its end is beyond the greatest double. -/
def wildCalls : List (Call Float) :=
  [.place "a" none (.instant 1e308)]

/-- The sound is placed and the workspace is saved, and then it cannot be loaded. -/
theorem malformed_of_save_wild :
    let s := demoWorkspace.session.run wildCalls
    ∃ saved,
      demoMachine.run (openBundle "demo" Session.doubleSettings .tally) =
        (.ok demoWorkspace, demoMachine) ∧
      (demoWorkspace.bundle.timeline.clips.map Clip.id).Nodup ∧
      (∀ call ∈ wildCalls, call.Storable) ∧
      (∀ x ∈ s.timeline.numbers ++ s.library.numbers, ReadsBack x) ∧
      demoMachine.run (save { demoWorkspace with session := s }) = (.ok (), saved) ∧
      s.revision = 1 ∧
      saved.run (Bundle.load "demo" : ExceptT BundleFault (StateM Machine) (Bundle Float)) =
        (.error (.malformed (Bundle.timelinePath "demo")), saved) := by
  intro s
  have hreads : ∀ x ∈ s.timeline.numbers ++ s.library.numbers, ReadsBack x := by decide +kernel
  have hfinite : AllFinite s.library.numbers := by decide +kernel
  have hrevision : s.revision = 1 := by decide +kernel
  have hunbounded : ¬ s.timeline.Bounded := by decide +kernel
  have hlevel : s.Level :=
    Session.run_level (Session.start_level rfl nodup_demo tempered_demo ..) wildCalls
  clear_value s
  obtain ⟨saved, hsave⟩ := exists_save_demo s
  have hload := run_load_saved (w := { demoWorkspace with session := s }) rfl (by simp [hrevision])
    hlevel.inStep.index_eq hlevel.tempered hfinite hreads hsave
  rw [if_neg hunbounded] at hload
  exact ⟨saved, open_demo, nodup_demo, List.forall_mem_singleton.2 trivial, hreads, hsave,
    hrevision, hload⟩

end Workspace

end Montage
