import Montage.Editing.Links
import Montage.Proofs.Index

/-!
# Link closures are closed

Following links ends before its steps run out: each step takes an id off the list, and puts one on
only when a clip is met for the first time. What it returns is therefore closed under links.
-/

namespace Montage.Timeline

variable {α : Type}

/-- Looking an id up finds a clip with that id. -/
def FindsById (t : Timeline α) : Prop :=
  ∀ id clip, t.clip? id = some clip → clip.id = id

/-- Every id of the set is a clip's, and the set holds what the clip links to. -/
def LinkClosed (t : Timeline α) (ids : ClipSet) : Prop :=
  ∀ id ∈ ids, ∃ clip, t.clip? id = some clip ∧ ∀ link, clip.link = some link → link ∈ ids

theorem LinkClosed.isSome {t : Timeline α} {ids : ClipSet} (h : t.LinkClosed ids) {id : ClipId}
    (hid : id ∈ ids) : (t.clip? id).isSome := by
  obtain ⟨clip, hclip, _⟩ := h id hid
  rw [hclip]
  rfl

theorem InStep.findsById {t : Timeline α} (h : t.InStep) : t.FindsById :=
  fun _ _ hclip => (h.clip?_eq_some_iff.1 hclip).2

theorem mem_index_of_clip? {t : Timeline α} {id : ClipId} {clip : Clip α}
    (h : t.clip? id = some clip) : id ∈ t.index := by
  rw [Std.ExtTreeMap.mem_iff_isSome_getElem?]
  cases hplace : t.index[id]? with
  | none => simp [clip?, locate?, hplace] at h
  | some place => rfl

theorem size_le_clipCount {t : Timeline α} {ids : ClipSet}
    (h : ∀ id ∈ ids, (t.clip? id).isSome) : ids.size ≤ t.clipCount := by
  have hnodup : ids.toList.Nodup :=
    ids.distinct_toList.imp fun hne heq => hne (by simp [heq])
  have hsubset : ids.toList ⊆ t.index.keys := by
    intro id hid
    obtain ⟨clip, hclip⟩ := Option.isSome_iff_exists.1 (h id (Std.ExtTreeSet.mem_toList.1 hid))
    exact Std.ExtTreeMap.mem_keys.2 (mem_index_of_clip? hclip)
  have hle := hnodup.length_le_of_subset hsubset
  rwa [Std.ExtTreeSet.length_toList, Std.ExtTreeMap.length_keys] at hle

theorem size_insert_of_new {ids : ClipSet} {id : ClipId} (h : ¬ ids.contains id = true) :
    (ids.insert id).size = ids.size + 1 := by
  simp [Std.ExtTreeSet.size_insert, h]

/-! ## Walks -/

/--
Links are followed from the ids that wait to a result, with no bound on the steps: each takes one id
off the list, and puts the link of a clip that it meets in front if that was not met yet.
-/
inductive Walk (t : Timeline α) :
    Nat → List ClipId → ClipSet → Except (Refusal α) ClipSet → Prop
  | done {closed} : Walk t 0 [] closed (.ok closed)
  | skip {steps id waiting closed result} :
      (∀ clip, t.clip? id = some clip → clip.id ∈ closed) → Walk t steps waiting closed result →
        Walk t (steps + 1) (id :: waiting) closed result
  | meet {steps id clip waiting closed result} : t.clip? id = some clip → clip.id ∉ closed →
      (∀ link, clip.link = some link → (t.clip? link).isSome) →
      Walk t steps (clip.link.toList.filter (!(closed.insert clip.id).contains ·) ++ waiting)
        (closed.insert clip.id) result →
        Walk t (steps + 1) (id :: waiting) closed result
  | dangle {id clip link waiting closed} : t.clip? id = some clip → clip.id ∉ closed →
      clip.link = some link → t.clip? link = none →
        Walk t 1 (id :: waiting) closed (.error (.inconsistent (.danglingLink clip.id link)))

/-- The walk is over before the steps run out: a clip is met once, and puts one id on the list. -/
theorem exists_walk {t : Timeline α} (hown : t.FindsById) {steps : Nat} {waiting : List ClipId}
    {closed : ClipSet} (hclosed : ∀ id ∈ closed, (t.clip? id).isSome)
    (hsteps : waiting.length + t.clipCount ≤ steps + closed.size) :
    ∃ taken ≤ steps, t.Walk taken waiting closed (t.followLinks steps waiting closed) := by
  have hmeet {closed : ClipSet} {clip : Clip α} {id : ClipId} (hclip : t.clip? id = some clip)
      (hclosed : ∀ id ∈ closed, (t.clip? id).isSome) :
      ∀ met ∈ closed.insert clip.id, (t.clip? met).isSome := by
    intro met hmet
    rcases Std.ExtTreeSet.mem_insert.1 hmet with heq | hmet
    · have heq : clip.id = met := by simpa using heq
      rw [← heq, hown id clip hclip, hclip]
      rfl
    · exact hclosed met hmet
  fun_induction followLinks t steps waiting closed with
  | case1 waiting closed =>
      have hsize := size_le_clipCount hclosed
      have hnil : waiting = [] := List.eq_nil_of_length_eq_zero (by omega)
      subst hnil
      exact ⟨0, Nat.le_refl _, .done⟩
  | case2 steps closed => exact ⟨0, Nat.zero_le _, .done⟩
  | case3 steps id waiting closed hnone ih =>
      rw [List.length_cons] at hsteps
      obtain ⟨taken, hle, hwalk⟩ := ih hclosed (by omega)
      exact ⟨taken + 1, by omega, .skip (by simp [hnone]) hwalk⟩
  | case4 steps id waiting closed clip hclip hmember ih =>
      rw [List.length_cons] at hsteps
      obtain ⟨taken, hle, hwalk⟩ := ih hclosed (by omega)
      refine ⟨taken + 1, by omega, .skip (fun found hfound => ?_) hwalk⟩
      rw [hclip] at hfound
      cases hfound
      exact Std.ExtTreeSet.mem_iff_contains.2 hmember
  | case5 steps id waiting closed clip hclip hmember closed' hlink ih =>
      rw [List.length_cons] at hsteps
      have hsize := size_insert_of_new hmember
      obtain ⟨taken, hle, hwalk⟩ := ih (hmeet hclip hclosed) (by simp only [closed']; omega)
      refine ⟨taken + 1, by omega, .meet hclip ?_ (by simp [hlink]) ?_⟩
      · rwa [Std.ExtTreeSet.mem_iff_contains]
      · simpa [hlink] using hwalk
  | case6 steps id waiting closed clip hclip hmember link hlink hdangling =>
      refine ⟨1, by omega, .dangle hclip ?_ hlink hdangling⟩
      rwa [Std.ExtTreeSet.mem_iff_contains]
  | case7 steps id waiting closed clip hclip hmember closed' link hlink partner hpartner hknown
      ih =>
      rw [List.length_cons] at hsteps
      have hsize := size_insert_of_new hmember
      obtain ⟨taken, hle, hwalk⟩ := ih (hmeet hclip hclosed) (by simp only [closed']; omega)
      refine ⟨taken + 1, by omega, .meet hclip ?_ (by simp [hlink, hpartner]) ?_⟩
      · rwa [Std.ExtTreeSet.mem_iff_contains]
      · rw [hlink, Option.toList_some, List.filter_cons_of_neg]
        · exact hwalk
        · rw [show (closed.insert clip.id).contains link = true from hknown]
          exact Bool.false_ne_true
  | case8 steps id waiting closed clip hclip hmember closed' link hlink partner hpartner hknown
      ih =>
      rw [List.length_cons] at hsteps
      have hsize := size_insert_of_new hmember
      obtain ⟨taken, hle, hwalk⟩ := ih (hmeet hclip hclosed)
        (by rw [List.length_cons]; simp only [closed']; omega)
      refine ⟨taken + 1, by omega, .meet hclip ?_ (by simp [hlink, hpartner]) ?_⟩
      · rwa [Std.ExtTreeSet.mem_iff_contains]
      · rw [hlink, Option.toList_some, List.filter_cons_of_pos]
        · exact hwalk
        · rw [show (closed.insert clip.id).contains link = false from Bool.eq_false_iff.2 hknown]
          rfl

/-- A closure is the result of a walk of no more steps than there are seeds and clips. -/
theorem linkClosure_walk {t : Timeline α} (hown : t.FindsById) (seeds : List ClipId) :
    ∃ taken ≤ seeds.length + t.clipCount, t.Walk taken seeds.reverse ∅ (t.linkClosure seeds) :=
  exists_walk hown (by simp) (by simp)

/-! ## What a walk collects -/

/--
A closure under way: a clip that was met links to nothing, to a clip that was met, or to one that
waits.
-/
def Following (t : Timeline α) (waiting : List ClipId) (closed : ClipSet) : Prop :=
  ∀ id ∈ closed, ∃ clip, t.clip? id = some clip ∧ ∀ link, clip.link = some link →
    link ∈ closed ∨ (link ∈ waiting ∧ (t.clip? link).isSome)

/-- A set that is closed under links, and holds all that was met and every clip that waited. -/
structure Collected (t : Timeline α) (waiting : List ClipId) (closed result : ClipSet) : Prop where
  linkClosed : t.LinkClosed result
  met : ∀ id ∈ closed, id ∈ result
  waited : ∀ id ∈ waiting, (t.clip? id).isSome → id ∈ result

namespace Following

variable {t : Timeline α} {waiting : List ClipId} {closed : ClipSet} {id : ClipId}

theorem linkClosed (h : t.Following [] closed) : t.LinkClosed closed := by
  intro id hid
  obtain ⟨clip, hclip, hlinks⟩ := h id hid
  refine ⟨clip, hclip, fun link hlink => ?_⟩
  rcases hlinks link hlink with hmet | ⟨hwaits, _⟩
  · exact hmet
  · cases hwaits

theorem skip (h : t.Following (id :: waiting) closed)
    (hid : (t.clip? id).isSome → id ∈ closed) : t.Following waiting closed := by
  intro met hmet
  obtain ⟨clip, hclip, hlinks⟩ := h met hmet
  refine ⟨clip, hclip, fun link hlink => ?_⟩
  rcases hlinks link hlink with hclosed | ⟨hwaits, hsome⟩
  · exact .inl hclosed
  · rcases List.mem_cons.1 hwaits with rfl | hwaits
    · exact .inl (hid hsome)
    · exact .inr ⟨hwaits, hsome⟩

/-- A clip is met; what it links to was met, or is put on the list. -/
theorem meet (h : t.Following (id :: waiting) closed) {clip : Clip α} {more : List ClipId}
    (hclip : t.clip? id = some clip)
    (hlink : ∀ link, clip.link = some link →
      link ∈ closed.insert id ∨ (link ∈ more ∧ (t.clip? link).isSome)) :
    t.Following (more ++ waiting) (closed.insert id) := by
  intro met hmet
  rcases Std.ExtTreeSet.mem_insert.1 hmet with heq | hmet
  · have heq : id = met := by simpa using heq
    subst heq
    refine ⟨clip, hclip, fun link hlinked => ?_⟩
    rcases hlink link hlinked with hclosed | ⟨hmore, hsome⟩
    · exact .inl hclosed
    · exact .inr ⟨List.mem_append_left _ hmore, hsome⟩
  · obtain ⟨old, hold, hlinks⟩ := h met hmet
    refine ⟨old, hold, fun link hlinked => ?_⟩
    rcases hlinks link hlinked with hclosed | ⟨hwaits, hsome⟩
    · exact .inl (Std.ExtTreeSet.mem_insert.2 (.inr hclosed))
    · rcases List.mem_cons.1 hwaits with rfl | hwaits
      · exact .inl Std.ExtTreeSet.mem_insert_self
      · exact .inr ⟨List.mem_append_right _ hwaits, hsome⟩

end Following

namespace Collected

variable {t : Timeline α} {waiting : List ClipId} {closed result : ClipSet} {id : ClipId}

theorem of_skip (h : t.Collected waiting closed result)
    (hid : (t.clip? id).isSome → id ∈ closed) : t.Collected (id :: waiting) closed result where
  linkClosed := h.linkClosed
  met := h.met
  waited other hother hsome := by
    rcases List.mem_cons.1 hother with rfl | hother
    · exact h.met _ (hid hsome)
    · exact h.waited other hother hsome

theorem of_meet {more : List ClipId}
    (h : t.Collected (more ++ waiting) (closed.insert id) result) :
    t.Collected (id :: waiting) closed result where
  linkClosed := h.linkClosed
  met other hother := h.met other (Std.ExtTreeSet.mem_insert.2 (.inr hother))
  waited other hother hsome := by
    rcases List.mem_cons.1 hother with rfl | hother
    · exact h.met _ Std.ExtTreeSet.mem_insert_self
    · exact h.waited other (List.mem_append_right _ hother) hsome

end Collected

/-- A walk that succeeds collects what was met and what waited. -/
theorem Walk.collected {t : Timeline α} (hown : t.FindsById) {steps : Nat} {waiting : List ClipId}
    {closed result : ClipSet} (hwalk : t.Walk steps waiting closed (.ok result))
    (h : t.Following waiting closed) : t.Collected waiting closed result := by
  generalize hok : Except.ok result = outcome at hwalk
  induction hwalk with
  | done =>
      cases hok
      exact ⟨h.linkClosed, fun _ hid => hid, by simp⟩
  | @skip _ id _ closed _ hmet _ ih =>
      have hid (hsome : (t.clip? id).isSome) : id ∈ closed := by
        obtain ⟨clip, hclip⟩ := Option.isSome_iff_exists.1 hsome
        exact hown id clip hclip ▸ hmet clip hclip
      exact (ih (h.skip hid) hok).of_skip hid
  | @meet _ _ clip _ closed _ hclip hnew hlinks _ ih =>
      obtain rfl := hown _ clip hclip
      refine (ih (h.meet hclip fun link hlink => ?_) hok).of_meet
      by_cases hmember : link ∈ closed.insert clip.id
      · exact .inl hmember
      · refine .inr ⟨List.mem_filter.2 ⟨by simp [hlink], ?_⟩, hlinks link hlink⟩
        rwa [Bool.not_eq_true', ← Bool.not_eq_true, ← Std.ExtTreeSet.mem_iff_contains]
  | dangle => cases hok

/-- A closure that succeeds is closed under links, and holds every seed that finds a clip. -/
theorem linkClosure_collected {t : Timeline α} (hown : t.FindsById) {seeds : List ClipId}
    {closed : ClipSet} (hclosure : t.linkClosure seeds = .ok closed) :
    t.LinkClosed closed ∧ ∀ id ∈ seeds, (t.clip? id).isSome → id ∈ closed := by
  have hempty : t.Following seeds.reverse ∅ := by
    intro id hid
    simp at hid
  obtain ⟨_, _, hwalk⟩ := linkClosure_walk hown seeds
  rw [hclosure] at hwalk
  have h := hwalk.collected hown hempty
  exact ⟨h.linkClosed, fun id hid => h.waited id (List.mem_reverse.2 hid)⟩

/-! ## What is collected, and when -/

/-- From ids of this kind, links lead to clips with ids of this kind. -/
def LinksStay (t : Timeline α) (kind : ClipId → Prop) : Prop :=
  ∀ id clip, kind id → t.clip? id = some clip → ∀ link, clip.link = some link →
    kind link ∧ (t.clip? link).isSome

theorem LinksStay.followLinks_ok {t : Timeline α} {kind : ClipId → Prop} (h : t.LinksStay kind)
    {steps : Nat} {waiting : List ClipId} (hwaiting : ∀ id ∈ waiting, kind id) (closed : ClipSet) :
    ∃ result, t.followLinks steps waiting closed = .ok result := by
  fun_induction followLinks t steps waiting closed with
  | case1 waiting closed => exact ⟨closed, rfl⟩
  | case2 steps closed => exact ⟨closed, rfl⟩
  | case3 steps id waiting closed hnone ih => exact ih (List.forall_mem_cons.1 hwaiting).2
  | case4 steps id waiting closed clip hclip hmet ih =>
      exact ih (List.forall_mem_cons.1 hwaiting).2
  | case5 steps id waiting closed clip hclip hmet closed' hlink ih =>
      exact ih (List.forall_mem_cons.1 hwaiting).2
  | case6 steps id waiting closed clip hclip hmet link hlink hdangling =>
      obtain ⟨hid, _⟩ := List.forall_mem_cons.1 hwaiting
      obtain ⟨_, hsome⟩ := h id clip hid hclip link hlink
      rw [hdangling] at hsome
      cases hsome
  | case7 steps id waiting closed clip hclip hmet closed' link hlink partner hpartner hknown ih =>
      exact ih (List.forall_mem_cons.1 hwaiting).2
  | case8 steps id waiting closed clip hclip hmet closed' link hlink partner hpartner hknown ih =>
      obtain ⟨hid, hrest⟩ := List.forall_mem_cons.1 hwaiting
      exact ih (List.forall_mem_cons.2 ⟨(h id clip hid hclip link hlink).1, hrest⟩)

theorem LinksStay.linkClosure_ok {t : Timeline α} {kind : ClipId → Prop} (h : t.LinksStay kind)
    {seeds : List ClipId} (hseeds : ∀ id ∈ seeds, kind id) :
    ∃ closed, t.linkClosure seeds = .ok closed :=
  h.followLinks_ok (fun id hid => hseeds id (List.mem_reverse.1 hid)) ∅

theorem LinkClosed.linksStay {t : Timeline α} {ids : ClipSet} (h : t.LinkClosed ids) :
    t.LinksStay (· ∈ ids) := by
  intro id clip hid hclip link hlink
  obtain ⟨found, hfound, hall⟩ := h id hid
  rw [hclip] at hfound
  cases hfound
  exact ⟨hall link hlink, h.isSome (hall link hlink)⟩

theorem reachable_of_mem {t : Timeline α} (hown : t.FindsById) {seeds : List ClipId} {id : ClipId}
    (hid : id ∈ seeds) (hsome : (t.clip? id).isSome) : t.Reachable seeds id := by
  obtain ⟨clip, hclip⟩ := Option.isSome_iff_exists.1 hsome
  exact hown id clip hclip ▸ .seed hid hclip

/-- Links lead from the seeds to a clip, and its link leads nowhere. -/
def Dangles (t : Timeline α) (seeds : List ClipId) (id link : ClipId) : Prop :=
  t.Reachable seeds id ∧ ∃ clip, t.clip? id = some clip ∧ clip.link = some link ∧
    t.clip? link = none

/-- What a closure of the seeds may come to. -/
def MayAnswer (t : Timeline α) (seeds : List ClipId) : Except (Refusal α) ClipSet → Prop
  | .ok closed => ∀ id ∈ closed, t.Reachable seeds id
  | .error refusal => ∃ id link, t.Dangles seeds id link ∧
      refusal = .inconsistent (.danglingLink id link)

/-- A walk meets nothing but what links lead to from the seeds. -/
theorem Walk.mayAnswer {t : Timeline α} (hown : t.FindsById) {seeds : List ClipId} {steps : Nat}
    {waiting : List ClipId} {closed : ClipSet} {result : Except (Refusal α) ClipSet}
    (hwalk : t.Walk steps waiting closed result)
    (hwaiting : ∀ id ∈ waiting, ∀ clip, t.clip? id = some clip → t.Reachable seeds id)
    (hclosed : ∀ id ∈ closed, t.Reachable seeds id) : t.MayAnswer seeds result := by
  induction hwalk with
  | done => exact hclosed
  | skip _ _ ih => exact ih (List.forall_mem_cons.1 hwaiting).2 hclosed
  | @meet _ _ clip _ closed _ hclip _ _ _ ih =>
      obtain ⟨hid, hrest⟩ := List.forall_mem_cons.1 hwaiting
      obtain rfl := hown _ clip hclip
      refine ih (fun next hnext found hfound => ?_) fun met hmet => ?_
      · rcases List.mem_append.1 hnext with hlink | hnext
        · have hlink := Option.mem_toList.1 (List.mem_filter.1 hlink).1
          have hlead := Reachable.link (hid clip hclip) hclip hlink hfound
          rwa [hown next found hfound] at hlead
        · exact hrest next hnext found hfound
      · rcases Std.ExtTreeSet.mem_insert.1 hmet with heq | hmet
        · have heq : clip.id = met := by simpa using heq
          exact heq ▸ hid clip hclip
        · exact hclosed met hmet
  | @dangle _ clip _ _ _ hclip _ hlink hnone =>
      obtain rfl := hown _ clip hclip
      have hid := (List.forall_mem_cons.1 hwaiting).1 clip hclip
      exact ⟨_, _, ⟨hid, clip, hclip, hlink, hnone⟩, rfl⟩

theorem linkClosure_mayAnswer {t : Timeline α} (hown : t.FindsById) (seeds : List ClipId) :
    t.MayAnswer seeds (t.linkClosure seeds) := by
  obtain ⟨_, _, hwalk⟩ := linkClosure_walk hown seeds
  refine hwalk.mayAnswer hown (fun id hid clip hclip => ?_) (by simp)
  exact reachable_of_mem hown (List.mem_reverse.1 hid) (by simp [hclip])

/-- A closure that succeeds holds what links lead to from the seeds, and nothing else. -/
theorem mem_linkClosure_iff {t : Timeline α} (hown : t.FindsById) {seeds : List ClipId}
    {closed : ClipSet} (hclosure : t.linkClosure seeds = .ok closed) (id : ClipId) :
    id ∈ closed ↔ t.Reachable seeds id := by
  constructor
  · have hanswer := linkClosure_mayAnswer hown seeds
    rw [hclosure] at hanswer
    exact hanswer id
  · obtain ⟨hclosed, hseeds⟩ := linkClosure_collected hown hclosure
    intro hreach
    induction hreach with
    | seed hid hclip =>
        rw [hown _ _ hclip]
        exact hseeds _ hid (by simp [hclip])
    | link _ hclip hlink hpartner ih =>
        obtain ⟨found, hfound, hlinks⟩ := hclosed _ ih
        rw [hclip] at hfound
        cases hfound
        rw [hown _ _ hpartner]
        exact hlinks _ hlink

theorem Reachable.congr {t t' : Timeline α} {kind : ClipId → Prop} (hown : t.FindsById)
    (hlinks : t.LinksStay kind) (hsame : ∀ id, kind id → t'.clip? id = t.clip? id)
    {seeds : List ClipId} (hseeds : ∀ id ∈ seeds, kind id) {id : ClipId}
    (h : t.Reachable seeds id) : kind id ∧ t'.Reachable seeds id := by
  induction h with
  | seed hid hclip =>
      have hkind := hseeds _ hid
      exact ⟨by rwa [hown _ _ hclip], .seed hid (by rwa [hsame _ hkind])⟩
  | link _ hclip hlink hpartner ih =>
      obtain ⟨hkind, hreach⟩ := ih
      obtain ⟨hnext, _⟩ := hlinks _ _ hkind hclip _ hlink
      refine ⟨by rwa [hown _ _ hpartner], .link hreach (by rwa [hsame _ hkind]) hlink ?_⟩
      rwa [hsame _ hnext]

/-- A closed set is the closure of seeds in it from which links lead to all of it. -/
theorem LinkClosed.linkClosure_eq {t : Timeline α} {ids : ClipSet} (h : t.LinkClosed ids)
    (hown : t.FindsById) {seeds : List ClipId} (hseeds : ∀ id ∈ seeds, id ∈ ids)
    (hreach : ∀ id ∈ ids, t.Reachable seeds id) : t.linkClosure seeds = .ok ids := by
  obtain ⟨closed, hclosure⟩ := h.linksStay.linkClosure_ok hseeds
  have heq : closed = ids := by
    refine Std.ExtTreeSet.ext_mem fun id => ?_
    rw [mem_linkClosure_iff hown hclosure]
    exact ⟨fun hid => (hid.congr hown h.linksStay (fun _ _ => rfl) hseeds).1, hreach id⟩
  rw [hclosure, heq]

/-- Where links stay, and the clips are the same, a closure is the same. -/
theorem LinksStay.linkClosure_congr {t t' : Timeline α} {kind : ClipId → Prop}
    (hlinks : t.LinksStay kind) (hown : t.FindsById) (hown' : t'.FindsById)
    (hsame : ∀ id, kind id → t'.clip? id = t.clip? id) {seeds : List ClipId}
    (hseeds : ∀ id ∈ seeds, kind id) {closed : ClipSet} (h : t.linkClosure seeds = .ok closed) :
    t'.linkClosure seeds = .ok closed := by
  have hlinks' : t'.LinksStay kind := by
    intro id clip hkind hclip link hlink
    rw [hsame id hkind] at hclip
    obtain ⟨hnext, hsome⟩ := hlinks id clip hkind hclip link hlink
    exact ⟨hnext, by rwa [hsame link hnext]⟩
  obtain ⟨closed', h'⟩ := hlinks'.linkClosure_ok hseeds
  have heq : closed' = closed := by
    refine Std.ExtTreeSet.ext_mem fun id => ?_
    rw [mem_linkClosure_iff hown' h', mem_linkClosure_iff hown h]
    exact ⟨fun hreach => (hreach.congr hown' hlinks' (fun id hid => (hsame id hid).symm) hseeds).2,
      fun hreach => (hreach.congr hown hlinks hsame hseeds).2⟩
  rw [h', heq]

end Montage.Timeline
