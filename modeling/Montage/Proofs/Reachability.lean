import Montage.Proofs.Selections

/-!
# Link closures are reachability

Following links ends after no more steps than there are seeds and clips, on any graph of links. It is
refused exactly when it comes to a clip of which the link leads nowhere, and otherwise collects what
links lead to from the seeds, in whatever order and however often these are given.
-/

namespace Montage.Timeline

variable {α : Type} {t : Timeline α} {seeds others : List ClipId}

/-! ## Seeds -/

/-- Only the seeds that find a clip count. -/
theorem Reachable.of_seeds (hseeds : ∀ id ∈ seeds, (t.clip? id).isSome → id ∈ others)
    {id : ClipId} (h : t.Reachable seeds id) : t.Reachable others id := by
  induction h with
  | seed hid hclip => exact .seed (hseeds _ hid (by simp [hclip])) hclip
  | link _ hclip hlink hpartner ih => exact .link ih hclip hlink hpartner

/-- What links lead to from what they lead to is not new. -/
theorem Reachable.of_reachable (hown : t.FindsById)
    (hseeds : ∀ id ∈ seeds, (t.clip? id).isSome → t.Reachable others id) {id : ClipId}
    (h : t.Reachable seeds id) : t.Reachable others id := by
  induction h with
  | seed hid hclip =>
      rw [hown _ _ hclip]
      exact hseeds _ hid (by simp [hclip])
  | link _ hclip hlink hpartner ih => exact .link ih hclip hlink hpartner

theorem Dangles.of_seeds (hseeds : ∀ id ∈ seeds, (t.clip? id).isSome → id ∈ others)
    {id link : ClipId} (h : t.Dangles seeds id link) : t.Dangles others id link :=
  ⟨h.1.of_seeds hseeds, h.2⟩

/-! ## Refusals and results -/

/-- A closed set that holds the seeds leads nowhere else. -/
theorem LinkClosed.not_dangles (hown : t.FindsById) {closed : ClipSet} (h : t.LinkClosed closed)
    (hseeds : ∀ id ∈ seeds, (t.clip? id).isSome → id ∈ closed) (id link : ClipId) :
    ¬ t.Dangles seeds id link := by
  rintro ⟨hreach, clip, hclip, hlink, hnone⟩
  have hreach : t.Reachable closed.toList id :=
    hreach.of_seeds fun id hid hsome => Std.ExtTreeSet.mem_toList.2 (hseeds id hid hsome)
  have hid := (hreach.congr hown h.linksStay (fun _ _ => rfl) fun _ hmem =>
    Std.ExtTreeSet.mem_toList.1 hmem).1
  obtain ⟨_, hsome⟩ := h.linksStay id clip hid hclip link hlink
  rw [hnone] at hsome
  cases hsome

theorem linkClosure_error_iff (hown : t.FindsById) :
    (∃ refusal, t.linkClosure seeds = .error refusal) ↔ ∃ id link, t.Dangles seeds id link := by
  constructor
  · rintro ⟨refusal, hrefused⟩
    have hanswer := linkClosure_mayAnswer hown seeds
    rw [hrefused] at hanswer
    obtain ⟨id, link, hdangles, _⟩ := hanswer
    exact ⟨id, link, hdangles⟩
  · rintro ⟨id, link, hdangles⟩
    cases hclosure : t.linkClosure seeds with
    | error refusal => exact ⟨refusal, rfl⟩
    | ok closed =>
        obtain ⟨hclosed, hseeds⟩ := linkClosure_collected hown hclosure
        exact absurd hdangles (hclosed.not_dangles hown hseeds id link)

/-- Closing a closure again changes nothing. -/
theorem LinkClosed.linkClosure_toList (hown : t.FindsById) {closed : ClipSet}
    (h : t.LinkClosed closed) : t.linkClosure closed.toList = .ok closed := by
  refine h.linkClosure_eq hown (fun _ hid => Std.ExtTreeSet.mem_toList.1 hid) fun id hid => ?_
  exact reachable_of_mem hown (Std.ExtTreeSet.mem_toList.2 hid) (h.isSome hid)

theorem linkClosure_toOption_congr (hown : t.FindsById)
    (hsame : ∀ id, (t.clip? id).isSome → (id ∈ others ↔ id ∈ seeds)) :
    (t.linkClosure others).toOption = (t.linkClosure seeds).toOption := by
  have hto : ∀ id ∈ others, (t.clip? id).isSome → id ∈ seeds :=
    fun id hid hsome => (hsame id hsome).1 hid
  have hfrom : ∀ id ∈ seeds, (t.clip? id).isSome → id ∈ others :=
    fun id hid hsome => (hsame id hsome).2 hid
  have hrefused : (∃ refusal, t.linkClosure others = .error refusal) ↔
      ∃ refusal, t.linkClosure seeds = .error refusal := by
    rw [linkClosure_error_iff hown, linkClosure_error_iff hown]
    exact ⟨fun ⟨id, link, h⟩ => ⟨id, link, h.of_seeds hto⟩,
      fun ⟨id, link, h⟩ => ⟨id, link, h.of_seeds hfrom⟩⟩
  cases hothers : t.linkClosure others with
  | error refusal =>
      obtain ⟨other, hseeds⟩ := hrefused.1 ⟨refusal, hothers⟩
      rw [hseeds]
      rfl
  | ok closed =>
      cases hseeds : t.linkClosure seeds with
      | error refusal =>
          obtain ⟨other, hother⟩ := hrefused.2 ⟨refusal, hseeds⟩
          rw [hothers] at hother
          cases hother
      | ok result =>
          have heq : closed = result := by
            refine Std.ExtTreeSet.ext_mem fun id => ?_
            rw [mem_linkClosure_iff hown hothers, mem_linkClosure_iff hown hseeds]
            exact ⟨fun h => h.of_seeds hto, fun h => h.of_seeds hfrom⟩
          rw [heq]

/--
On any timeline, and from any ids: the walk along the links is over after no more steps than there
are ids and clips. It is refused exactly when the link of a clip that it leads to leads nowhere, and
otherwise comes to all clips that links lead to. These are closed, and their closure is themselves.
Ids that find the same clips have the same closure, or none.
-/
theorem linkClosure_reachable [Scalar α] (t : Timeline α) (hmade : t.Made) (seeds : List ClipId) :
    (∃ steps ≤ seeds.length + t.clipCount,
        t.Walk steps seeds.reverse ∅ (t.linkClosure seeds)) ∧
      ((∃ refusal, t.linkClosure seeds = .error refusal) ↔
        ∃ id link, t.Dangles seeds id link) ∧
      (∀ refusal, t.linkClosure seeds = .error refusal →
        ∃ id link, t.Dangles seeds id link ∧ refusal = .inconsistent (.danglingLink id link)) ∧
      (∀ closed, t.linkClosure seeds = .ok closed →
        (∀ id, id ∈ closed ↔ t.Reachable seeds id) ∧ t.LinkClosed closed ∧
          t.linkClosure closed.toList = .ok closed) ∧
      ∀ others : List ClipId, (∀ id, (t.clip? id).isSome → (id ∈ others ↔ id ∈ seeds)) →
        (t.linkClosure others).toOption = (t.linkClosure seeds).toOption := by
  have hown := hmade.truthful.findsById
  refine ⟨linkClosure_walk hown seeds, linkClosure_error_iff hown, fun refusal hrefused => ?_,
    fun closed hclosure => ?_, fun others hsame => linkClosure_toOption_congr hown hsame⟩
  · have hanswer := linkClosure_mayAnswer hown seeds
    rwa [hrefused] at hanswer
  · have hclosed := (linkClosure_collected hown hclosure).1
    exact ⟨mem_linkClosure_iff hown hclosure, hclosed, hclosed.linkClosure_toList hown⟩

/-- The chain leads into the circle; the broken clip is led to from itself alone. -/
theorem linkClosure_reachable_chained :
    let t := ofTracks "p" [Session.chainedTrack]
    let seeds := ["c", "nobody", "a", "a"]
    t.Made ∧ (∃ steps ≤ 8, t.Walk steps seeds.reverse ∅ (t.linkClosure seeds)) ∧
      (∃ closed, t.linkClosure seeds = .ok closed ∧ closed.toList = ["a", "b", "c"] ∧
        (∀ id, id ∈ closed ↔ t.Reachable seeds id) ∧ t.LinkClosed closed ∧
        t.linkClosure closed.toList = .ok closed) ∧
      (t.linkClosure ["a", "c"]).toOption = (t.linkClosure seeds).toOption ∧
      (¬ ∃ id link, t.Dangles seeds id link) ∧
      ∃ id link, t.Dangles ["a", "d"] id link := by
  intro t seeds
  have hmade : t.Made := made_of_index_eq rfl
  obtain ⟨hwalk, herror, _, hok, hothers⟩ := linkClosure_reachable t hmade seeds
  have hcount : seeds.length + t.clipCount = 8 := by decide +kernel
  have hlist : (t.linkClosure seeds).toOption.map Std.ExtTreeSet.toList =
      some ["a", "b", "c"] := by decide +kernel
  have hfails : (t.linkClosure ["a", "d"]).toOption = none := by decide +kernel
  have hsame : ∀ id, (t.clip? id).isSome → (id ∈ ["a", "c"] ↔ id ∈ seeds) := by
    intro id hsome
    by_cases hid : id = "nobody"
    · subst hid
      exact absurd hsome (by decide +kernel)
    · simp [seeds, hid, or_comm]
  cases hclosure : t.linkClosure seeds with
  | error refusal =>
      rw [hclosure] at hlist
      cases hlist
  | ok closed =>
      rw [hclosure] at hlist hwalk herror hothers
      have hnot : ¬ ∃ id link, t.Dangles seeds id link := by
        rw [← herror]
        rintro ⟨_, h⟩
        cases h
      refine ⟨hmade, hcount ▸ hwalk, ⟨closed, rfl, Option.some.inj hlist, hok closed hclosure⟩,
        hothers _ hsame, hnot, ?_⟩
      refine (linkClosure_reachable t hmade ["a", "d"]).2.1.1 ?_
      cases hd : t.linkClosure ["a", "d"] with
      | error refusal => exact ⟨refusal, rfl⟩
      | ok result =>
          rw [hd] at hfails
          cases hfails

end Montage.Timeline
