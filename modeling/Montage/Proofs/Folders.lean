import Mathlib.Data.String.Basic
import Montage.Storage.Machine

/-!
# Files that are written

What is written to a file is read from it, and from no other.
-/

namespace Montage

/-! ## Steps of paths -/

namespace Text.Path

open String (utf8Len)

theorem splitOnAux_slash (l m r : List Char) (done : List String) :
    String.splitOnAux (String.ofList (l ++ m ++ r)) "/" ⟨utf8Len l⟩ ⟨utf8Len l + utf8Len m⟩ 0 done =
      done.reverse ++ (r.splitOnPPrepend (· == '/') m.reverse).map String.ofList := by
  induction r generalizing l m done with
  | nil =>
      have hpart := String.extract_of_valid l m []
      unfold String.splitOnAux
      simpa [-String.ofList_append] using hpart
  | cons c r ih =>
      have hat : String.Pos.Raw.get (String.ofList (l ++ m ++ c :: r))
          ⟨utf8Len l + utf8Len m⟩ = c := by
        simpa [-String.ofList_append] using String.get_of_valid (l ++ m) (c :: r)
      have hnext : String.Pos.Raw.next (String.ofList (l ++ m ++ c :: r))
          ⟨utf8Len l + utf8Len m⟩ = ⟨utf8Len l + utf8Len m + c.utf8Size⟩ := by
        simpa [-String.ofList_append] using String.next_of_valid (l ++ m) c r
      have hmore : ¬ String.Pos.Raw.atEnd (String.ofList (l ++ m ++ c :: r))
          ⟨utf8Len l + utf8Len m⟩ := by
        have hsize := c.utf8Size_pos
        simp [-String.ofList_append]
        omega
      have hpart := String.extract_of_valid l m (c :: r)
      unfold String.splitOnAux
      rw [if_neg hmore, hat, hnext]
      by_cases hc : c = '/'
      · subst hc
        have hrest := ih (l ++ m ++ ['/']) [] (String.ofList m :: done)
        have hback : String.Pos.Raw.unoffsetBy ⟨utf8Len l + utf8Len m + '/'.utf8Size⟩
            (String.Pos.Raw.next "/" 0) = ⟨utf8Len l + utf8Len m⟩ := rfl
        rw [if_pos (by decide)]
        simp only [hback, hpart]
        rw [if_pos (by decide), List.splitOnPPrepend_cons_pos rfl]
        simpa [-String.ofList_append, Nat.add_assoc] using hrest
      · have hrest := ih l (m ++ [c]) done
        have hslash : String.Pos.Raw.get "/" 0 = '/' := rfl
        have hback : String.Pos.Raw.unoffsetBy ⟨utf8Len l + utf8Len m⟩ 0 =
            ⟨utf8Len l + utf8Len m⟩ := rfl
        rw [hslash, if_neg (by simpa using hc), hback, hnext,
          List.splitOnPPrepend_cons_neg (by simpa using hc)]
        simpa [-String.ofList_append, Nat.add_assoc] using hrest

/-- The parts of a text are those between its slashes. -/
theorem splitOn_slash (s : String) :
    s.splitOn "/" = (s.toList.splitOnP (· == '/')).map String.ofList := by
  have hall := splitOnAux_slash [] [] s.toList []
  simpa [String.splitOn] using hall

theorem splitOnP_name {name : String} (hname : '/' ∉ name.toList) :
    name.toList.splitOnP (· == '/') = [name.toList] :=
  List.splitOnP_eq_singleton fun c hc => by simpa using ne_of_mem_of_not_mem hc hname

theorem splitOn_slash_append (base : String) {name : String} (hname : '/' ∉ name.toList) :
    (base ++ "/" ++ name).splitOn "/" = base.splitOn "/" ++ [name] := by
  have htext : (base ++ "/" ++ name).toList = base.toList ++ '/' :: name.toList := by simp
  rw [splitOn_slash, splitOn_slash, htext, List.splitOnP_append_cons _ _ rfl, splitOnP_name hname]
  simp

theorem exists_of_endsWith_slash {base : String} (h : base.endsWith "/" = true) :
    ∃ folder, base = folder ++ "/" := by
  rw [String.endsWith_eq_endsWith_toSlice, String.Slice.endsWith_string_iff,
    String.copy_toSlice] at h
  obtain ⟨folder, hfolder⟩ := h
  refine ⟨String.ofList folder, String.toList_inj.1 ?_⟩
  rw [String.toList_append, String.toList_ofList, hfolder]

theorem isAbsolute_iff {path : String} : isAbsolute path = true ↔ ['/'] <+: path.toList := by
  unfold isAbsolute
  rw [String.startsWith_string_iff]
  rfl

theorem isAbsolute_eq_false {name : String} (hname : '/' ∉ name.toList) :
    isAbsolute name = false := by
  rw [← Bool.not_eq_true, isAbsolute_iff]
  exact fun hslash => hname (hslash.subset (List.mem_singleton_self _))

/-- Whether a path starts at the root is seen before its first slash has passed. -/
theorem isAbsolute_slash_append (base name : String) :
    isAbsolute (base ++ "/" ++ name) = isAbsolute (base ++ "/") := by
  have htext : (base ++ "/" ++ name).toList = (base ++ "/").toList ++ name.toList :=
    String.toList_append
  refine Bool.eq_iff_iff.2 ?_
  rw [isAbsolute_iff, isAbsolute_iff, htext]
  refine ⟨fun h => List.prefix_of_prefix_length_le h (List.prefix_append ..) (by simp), fun h =>
    h.trans (List.prefix_append ..)⟩

/-- The steps to a name under a path are those to the path, whatever the name. -/
theorem exists_steps_join (base : String) : ∃ steps absolute, ∀ name : String,
    '/' ∉ name.toList → (join base name).splitOn "/" = steps ++ [name] ∧
      isAbsolute (join base name) = absolute := by
  by_cases hbase : base = ""
  · refine ⟨[], false, fun name hname => ?_⟩
    have hjoin : join base name = name := by
      unfold join
      rw [if_pos (by simp [hbase])]
    rw [hjoin, splitOn_slash, splitOnP_name hname]
    exact ⟨by simp, isAbsolute_eq_false hname⟩
  · obtain ⟨folder, hfolder⟩ : ∃ folder, ∀ name : String, '/' ∉ name.toList →
        join base name = folder ++ "/" ++ name := by
      by_cases hslash : base.endsWith "/" = true
      · obtain ⟨folder, rfl⟩ := exists_of_endsWith_slash hslash
        refine ⟨folder, fun name hname => ?_⟩
        unfold join
        rw [if_neg (by simp [isAbsolute_eq_false hname]), if_pos hslash]
      · refine ⟨base, fun name hname => ?_⟩
        unfold join
        rw [if_neg (by simp [isAbsolute_eq_false hname, hbase]), if_neg hslash]
    refine ⟨folder.splitOn "/", isAbsolute (folder ++ "/"), fun name hname => ?_⟩
    rw [hfolder name hname]
    exact ⟨splitOn_slash_append folder hname, isAbsolute_slash_append folder name⟩

end Text.Path

/-- The last step of the path is the name, which is no dots. -/
structure EndsIn (path name : String) : Prop where
  splitOn_eq : ∃ steps, path.splitOn "/" = steps ++ [name]
  plain : name ∉ ["", ".", ".."]

theorem endsIn_join (base : String) {name : String} (hname : '/' ∉ name.toList)
    (hplain : name ∉ ["", ".", ".."]) : EndsIn (Text.Path.join base name) name := by
  obtain ⟨steps, _, hsteps⟩ := Text.Path.exists_steps_join base
  exact ⟨⟨steps, (hsteps name hname).1⟩, hplain⟩

theorem exists_of_bind_eq_ok {ε β γ : Type} {first : Except ε β} {rest : β → Except ε γ}
    {result : γ} (h : (first >>= rest) = .ok result) :
    ∃ value, first = .ok value ∧ rest value = .ok result := by
  cases first with
  | error fault => cases h
  | ok value => exact ⟨value, rfl, h⟩

namespace FileTree

variable {tree next : FileTree} {names others folder : List String} {path text : String}

/-! ## Entries -/

theorem lookup_cons_eq (key : List String) (entry : Entry) (rest : List (List String × Entry))
    (names : List String) : ((key, entry) :: rest).lookup names =
      if names = key then some entry else rest.lookup names := by
  by_cases h : names = key
  · rw [List.lookup_cons, if_pos h, beq_iff_eq.2 h]
  · rw [List.lookup_cons, if_neg h, beq_false_of_ne h]

theorem lookup_put (hnames : names ≠ []) (entry : Entry) (others : List String) :
    FileTree.entry? (tree.put names entry) others =
      if others = names then some entry else tree.entry? others := by
  have hlookup (entries : List (List String × Entry)) :
      (put.place names entry entries).lookup others =
        if others = names then some entry else entries.lookup others := by
    induction entries with
    | nil => exact lookup_cons_eq names entry [] others
    | cons held rest ih =>
        obtain ⟨key, held⟩ := held
        unfold put.place
        split
        · rename_i hkey
          have hkey : key = names := hkey
          rw [lookup_cons_eq, lookup_cons_eq, hkey]
          split <;> rfl
        · rename_i hkey
          rw [lookup_cons_eq, lookup_cons_eq, ih]
          split
          · rename_i hothers
            rw [if_neg fun heq => hkey (hothers.symm.trans heq)]
          · rfl
  unfold entry?
  by_cases h : others = []
  · simp [h, hnames.symm]
  · simpa [h, put] using hlookup tree.entries

theorem expectFolder_eq_ok_iff :
    tree.expectFolder names = .ok () ↔ tree.entry? names = some .folder := by
  unfold expectFolder
  split <;> simp_all

/-- What is a folder in the one tree is a folder in the other. -/
structure Grows (tree next : FileTree) : Prop where
  here_eq : next.here = tree.here
  folder : ∀ names, tree.entry? names = some .folder → next.entry? names = some .folder

theorem grows_put (hnames : tree.entry? names ≠ some .folder) (entry : Entry) :
    tree.Grows (tree.put names entry) where
  here_eq := rfl
  folder others hothers := by
    have hne : others ≠ names := fun heq => hnames (heq ▸ hothers)
    have hnil : names ≠ [] := fun hnil => hnames (by simp [hnil, entry?])
    rw [lookup_put hnil, if_neg hne, hothers]

/-! ## Following paths -/

theorem folder_of_step {step : String} (h : tree.step names step = .ok others) :
    tree.entry? names = some .folder := by
  obtain ⟨_, hfolder, _⟩ := exists_of_bind_eq_ok h
  exact expectFolder_eq_ok_iff.1 hfolder

theorem step_blank (h : tree.entry? names = some .folder) : tree.step names "" = .ok names := by
  unfold FileTree.step
  rw [expectFolder_eq_ok_iff.2 h]
  rfl

/-- A step into a folder adds its name, unless it is a dot or two. -/
theorem step_eq_append {step : String} (hplain : step ∉ ["", ".", ".."])
    (h : tree.step names step = .ok others) : others = names ++ [step] := by
  simp only [List.mem_cons, List.not_mem_nil, or_false, not_or] at hplain
  obtain ⟨_, _, h⟩ := exists_of_bind_eq_ok h
  simp only [hplain, decide_false, Bool.or_self, Bool.false_eq_true, if_false] at h
  split at h
  · cases h
  · cases h
    rfl

theorem folder_of_steps {steps : List String} (h : steps.foldlM tree.step names = .ok folder)
    (hfolder : tree.entry? folder = some .folder) : tree.entry? names = some .folder := by
  cases steps with
  | nil =>
      cases h
      exact hfolder
  | cons step steps =>
      rw [List.foldlM_cons] at h
      obtain ⟨_, hstep, _⟩ := exists_of_bind_eq_ok h
      exact folder_of_step hstep

theorem Grows.step (hgrows : tree.Grows next) {step : String}
    (h : tree.step names step = .ok others) : next.step names step = .ok others := by
  have hfolder := hgrows.folder names (folder_of_step h)
  obtain ⟨_, _, hrest⟩ := exists_of_bind_eq_ok h
  unfold FileTree.step
  rw [expectFolder_eq_ok_iff.2 hfolder]
  exact hrest

theorem Grows.steps (hgrows : tree.Grows next) {steps : List String}
    (h : steps.foldlM tree.step names = .ok others) :
    steps.foldlM next.step names = .ok others := by
  induction steps generalizing names with
  | nil => exact h
  | cons step steps ih =>
      rw [List.foldlM_cons] at h ⊢
      obtain ⟨mid, hstep, hrest⟩ := exists_of_bind_eq_ok h
      rw [hgrows.step hstep]
      exact ih hrest

theorem Grows.locate (hgrows : tree.Grows next) (h : tree.locate path = .ok names) :
    next.locate path = .ok names := by
  obtain ⟨_, hcheck, hsteps⟩ := exists_of_bind_eq_ok h
  unfold follow at hsteps
  unfold FileTree.locate follow
  rw [hcheck, hgrows.here_eq]
  exact hgrows.steps hsteps

/-- Empty steps lead nowhere else. -/
theorem steps_of_filter {steps : List String}
    (h : (steps.filter (· ≠ "")).foldlM tree.step names = .ok folder)
    (hfolder : tree.entry? folder = some .folder) : steps.foldlM tree.step names = .ok folder := by
  induction steps generalizing names with
  | nil => exact h
  | cons step steps ih =>
      by_cases hblank : step = ""
      · subst hblank
        rw [List.filter_cons_of_neg (by simp)] at h
        rw [List.foldlM_cons, step_blank (folder_of_steps h hfolder)]
        exact ih h
      · rw [List.filter_cons_of_pos (by simpa using hblank), List.foldlM_cons] at h
        rw [List.foldlM_cons]
        obtain ⟨mid, hstep, hrest⟩ := exists_of_bind_eq_ok h
        rw [hstep]
        exact ih hrest

theorem steps_filter {steps : List String} (h : steps.foldlM tree.step names = .ok folder) :
    (steps.filter (· ≠ "")).foldlM tree.step names = .ok folder := by
  induction steps generalizing names with
  | nil => exact h
  | cons step steps ih =>
      rw [List.foldlM_cons] at h
      obtain ⟨mid, hstep, hrest⟩ := exists_of_bind_eq_ok h
      by_cases hblank : step = ""
      · subst hblank
        rw [step_blank (folder_of_step hstep)] at hstep
        cases hstep
        rw [List.filter_cons_of_neg (by simp)]
        exact ih hrest
      · rw [List.filter_cons_of_pos (by simpa using hblank), List.foldlM_cons, hstep]
        exact ih hrest

/-! ## Writing and reading -/

theorem locate_eq_append {name : String} (hpath : EndsIn path name)
    (h : tree.locate path = .ok names) : ∃ folder, names = folder ++ [name] := by
  obtain ⟨steps, hsteps⟩ := hpath.splitOn_eq
  obtain ⟨_, _, h⟩ := exists_of_bind_eq_ok h
  unfold follow at h
  rw [hsteps, List.foldlM_append] at h
  obtain ⟨folder, _, hlast⟩ := exists_of_bind_eq_ok h
  obtain ⟨last, hlast, hend⟩ := exists_of_bind_eq_ok hlast
  cases hend
  exact ⟨folder, step_eq_append hpath.plain hlast⟩

theorem endsWith_slash_eq_false {name : String} (hpath : EndsIn path name) :
    path.endsWith "/" = false := by
  by_contra hslash
  obtain ⟨base, hbase⟩ := Text.Path.exists_of_endsWith_slash (by simpa using hslash)
  have hblank : path.splitOn "/" = base.splitOn "/" ++ [""] := by
    have happend : (base ++ "/" ++ "").splitOn "/" = base.splitOn "/" ++ [""] :=
      Text.Path.splitOn_slash_append base (by simp)
    rwa [String.append_empty, ← hbase] at happend
  obtain ⟨steps, hsteps⟩ := hpath.splitOn_eq
  rw [hsteps] at hblank
  have hname := List.append_inj_right' hblank rfl
  have hplain := hpath.plain
  simp_all

/-- Of the checks of a claim, the path's last step has passed those that are about it. -/
theorem claim_eq {name : String} {steps : List String} (hpath : EndsIn path name)
    (hsteps : path.splitOn "/" = steps ++ [name]) : tree.claim path false .isFolder = (do
      checkPath path
      let folder ← tree.follow path (steps.filter (· ≠ ""))
      tree.expectFolder folder
      tree.step folder name) := by
  have hplain := hpath.plain
  simp only [List.mem_cons, List.not_mem_nil, or_false, not_or] at hplain
  have hfilter : (path.splitOn "/").filter (· ≠ "") = steps.filter (· ≠ "") ++ [name] := by
    rw [hsteps, List.filter_append]
    simp [hplain.1]
  unfold FileTree.claim
  simp only [hfilter, List.dropLast_concat, List.getLast?_concat]
  refine bind_congr fun _ => bind_congr fun folder => bind_congr fun _ => ?_
  split
  · rename_i h
    cases h
  · rename_i h
    cases h
    exact absurd rfl hplain.2.1
  · rename_i h
    cases h
    exact absurd rfl hplain.2.2
  · rename_i h
    cases h
    rw [endsWith_slash_eq_false hpath]
    rfl

/-- Writing to a path fills what the path leads to, unless that is a folder. -/
theorem target_eq_ok_iff {name : String} (hpath : EndsIn path name) :
    tree.target path = .ok names ↔
      tree.locate path = .ok names ∧ tree.entry? names ≠ some .folder := by
  obtain ⟨steps, hsteps⟩ := hpath.splitOn_eq
  constructor
  · intro h
    obtain ⟨found, hclaim, htarget⟩ := exists_of_bind_eq_ok h
    have hfound : found = names ∧ tree.entry? found ≠ some .folder := by
      simp only at htarget
      split at htarget
      · cases htarget
      · cases htarget
        exact ⟨rfl, ‹_›⟩
    obtain ⟨rfl, hfile⟩ := hfound
    rw [claim_eq hpath hsteps] at hclaim
    obtain ⟨_, hcheck, hclaim⟩ := exists_of_bind_eq_ok hclaim
    obtain ⟨folder, hfollow, hclaim⟩ := exists_of_bind_eq_ok hclaim
    obtain ⟨_, hfolder, hstep⟩ := exists_of_bind_eq_ok hclaim
    refine ⟨?_, hfile⟩
    have hsteps' := steps_of_filter hfollow (expectFolder_eq_ok_iff.1 hfolder)
    unfold FileTree.locate follow
    rw [hcheck, hsteps]
    change List.foldlM tree.step _ (steps ++ [name]) = _
    rw [List.foldlM_append, hsteps']
    change List.foldlM tree.step folder [name] = _
    rw [List.foldlM_cons, hstep]
    rfl
  · rintro ⟨hlocate, hfile⟩
    obtain ⟨_, hcheck, hfollow⟩ := exists_of_bind_eq_ok hlocate
    unfold follow at hfollow
    rw [hsteps, List.foldlM_append] at hfollow
    obtain ⟨folder, hfolder, hlast⟩ := exists_of_bind_eq_ok hfollow
    obtain ⟨last, hstep, hend⟩ := exists_of_bind_eq_ok hlast
    cases hend
    have hfollow' : tree.follow path (steps.filter (· ≠ "")) = .ok folder := steps_filter hfolder
    unfold FileTree.target
    rw [claim_eq hpath hsteps, hcheck, hfollow']
    simp only [bind, Except.bind, expectFolder_eq_ok_iff.2 (folder_of_step hstep), hstep,
      if_neg hfile]
    rfl

theorem file_of_read (h : tree.read path = .ok text) :
    ∃ names, tree.locate path = .ok names ∧ tree.entry? names = some (.file text) := by
  obtain ⟨names, hlocate, h⟩ := exists_of_bind_eq_ok h
  refine ⟨names, hlocate, ?_⟩
  split at h
  · cases h
  · cases h
  · rename_i hentry
    cases h
    exact hentry

theorem read_of_file (hlocate : tree.locate path = .ok names)
    (hentry : tree.entry? names = some (.file text)) :
    tree.read path = .ok text ∧ tree.at? path = some (.file text) := by
  constructor
  · unfold FileTree.read
    simp only [hlocate, bind, Except.bind, hentry]
    rfl
  · unfold FileTree.at?
    rw [hlocate]
    exact hentry

/-- A file that is there can be filled again. -/
theorem exists_write {name old : String} (hpath : EndsIn path name)
    (hread : tree.read path = .ok old) (text : String) :
    ∃ next, tree.write path text = .ok next := by
  obtain ⟨names, hlocate, hentry⟩ := file_of_read hread
  have htarget := (target_eq_ok_iff hpath).2 ⟨hlocate, by simp [hentry]⟩
  exact ⟨tree.put names (.file text), by rw [FileTree.write, htarget]; rfl⟩

/-- What is written is read. -/
theorem read_write {name : String} (hpath : EndsIn path name)
    (hwrite : tree.write path text = .ok next) :
    next.read path = .ok text ∧ next.at? path = some (.file text) := by
  obtain ⟨names, htarget, hput⟩ := exists_of_bind_eq_ok hwrite
  cases hput
  obtain ⟨hlocate, hfile⟩ := (target_eq_ok_iff hpath).1 htarget
  obtain ⟨folder, rfl⟩ := locate_eq_append hpath hlocate
  refine read_of_file ((grows_put hfile _).locate hlocate) ?_
  rw [lookup_put (by simp), if_pos rfl]

/-- Writing leaves the files of other names. -/
theorem read_write_other {name other otherText : String} {otherPath : String}
    (hpath : EndsIn path name) (hother : EndsIn otherPath other) (hne : other ≠ name)
    (hwrite : tree.write path text = .ok next) (hread : tree.read otherPath = .ok otherText) :
    next.read otherPath = .ok otherText ∧ next.at? otherPath = some (.file otherText) := by
  obtain ⟨names, htarget, hput⟩ := exists_of_bind_eq_ok hwrite
  cases hput
  obtain ⟨hlocate, hfile⟩ := (target_eq_ok_iff hpath).1 htarget
  obtain ⟨folder, rfl⟩ := locate_eq_append hpath hlocate
  obtain ⟨others, hothers, hentry⟩ := file_of_read hread
  obtain ⟨folder', rfl⟩ := locate_eq_append hother hothers
  refine read_of_file ((grows_put hfile _).locate hothers) ?_
  rw [lookup_put (by simp), if_neg fun heq => hne (by simpa using (List.append_inj' heq rfl).2)]
  exact hentry

/-! ## Files in one folder -/

section Beside

variable {base name other : String}

/-- A file that was found leads to the folder in which others are looked for. -/
theorem locate_join_eq (hname : '/' ∉ name.toList) (hother : '/' ∉ other.toList)
    (hlocate : tree.locate (Text.Path.join base name) = .ok names) (hgrows : tree.Grows next) :
    next.locate (Text.Path.join base other) = tree.locate (Text.Path.join base other) := by
  obtain ⟨steps, absolute, hsteps⟩ := Text.Path.exists_steps_join base
  obtain ⟨hnameSteps, hnameRoot⟩ := hsteps name hname
  obtain ⟨hotherSteps, hotherRoot⟩ := hsteps other hother
  obtain ⟨_, _, hfollow⟩ := exists_of_bind_eq_ok hlocate
  unfold follow at hfollow
  rw [hnameSteps, hnameRoot, List.foldlM_append] at hfollow
  obtain ⟨folder, hfolder, hlast⟩ := exists_of_bind_eq_ok hfollow
  obtain ⟨_, hstep, _⟩ := exists_of_bind_eq_ok hlast
  have hthere := folder_of_step hstep
  -- Both paths have their steps up to the folder in common, and it still is a folder.
  have hsame : next.step folder other = tree.step folder other := by
    unfold FileTree.step
    rw [expectFolder_eq_ok_iff.2 hthere, expectFolder_eq_ok_iff.2 (hgrows.folder folder hthere)]
  unfold locate follow
  refine bind_congr fun _ => ?_
  rw [hotherSteps, hotherRoot, hgrows.here_eq, List.foldlM_append, List.foldlM_append, hfolder,
    hgrows.steps hfolder]
  change [other].foldlM next.step folder = [other].foldlM tree.step folder
  rw [List.foldlM_cons, List.foldlM_cons, hsame]
  rfl

/-- Writing to a file leaves all that stands, or does not stand, beside it. -/
theorem read_write_join (hname : '/' ∉ name.toList) (hplain : name ∉ ["", ".", ".."])
    (hother : '/' ∉ other.toList) (hotherPlain : other ∉ ["", ".", ".."]) (hne : other ≠ name)
    (hwrite : tree.write (Text.Path.join base name) text = .ok next) :
    next.read (Text.Path.join base other) = tree.read (Text.Path.join base other) ∧
      next.at? (Text.Path.join base other) = tree.at? (Text.Path.join base other) := by
  obtain ⟨names, htarget, hput⟩ := exists_of_bind_eq_ok hwrite
  cases hput
  have hpath := endsIn_join base hname hplain
  obtain ⟨hlocate, hfile⟩ := (target_eq_ok_iff hpath).1 htarget
  obtain ⟨folder, rfl⟩ := locate_eq_append hpath hlocate
  have hsame := locate_join_eq hname hother hlocate (grows_put hfile (.file text))
  unfold read at?
  rw [hsame]
  cases hothers : tree.locate (Text.Path.join base other) with
  | error fault => exact ⟨rfl, rfl⟩
  | ok others =>
      obtain ⟨folder', rfl⟩ := locate_eq_append (endsIn_join base hother hotherPlain) hothers
      have hentry : FileTree.entry? (tree.put (folder ++ [name]) (.file text)) (folder' ++ [other]) =
          tree.entry? (folder' ++ [other]) := by
        rw [lookup_put (by simp),
          if_neg fun heq => hne (by simpa using (List.append_inj' heq rfl).2)]
      simp only [bind, Except.bind, hentry]
      exact ⟨trivial, trivial⟩

end Beside

end FileTree

end Montage
