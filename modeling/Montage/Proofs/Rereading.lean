import Montage.Proofs.Tokens

/-!
# Documents that are read again

Every document that is written can be read. What is read differs from it only in the spelling of
numbers, and where a string names no text.
-/

namespace Montage.Json

/-! ## From tokens to documents -/

mutual

theorem tokens_complete (stack : List Open) (mayClose : Bool) : ∀ j : Json,
    j.tokens.foldlM Reading.step? (.value stack mayClose) = some (.complete stack j)
  | .null => rfl
  | .bool _ => rfl
  | .number _ => rfl
  | .string _ => rfl
  | .array [] => rfl
  | .object [] => rfl
  | .array (item :: rest) => by
      have hitems := tokensOfItems_complete stack [] true (item :: rest) (by simp)
      simpa [tokens, Reading.step?] using hitems
  | .object (member :: rest) => by
      have hmembers := tokensOfMembers_complete stack [] true (member :: rest) (by simp)
      simpa [tokens, Reading.step?] using hmembers

theorem tokensOfItems_complete (stack : List Open) (before : List Json) (mayClose : Bool) :
    ∀ items : List Json, items ≠ [] →
    (tokensOfItems items ++ [Token.closeArray]).foldlM Reading.step?
        (.value (.array before :: stack) mayClose) =
      some (.complete stack (.array (before.reverse ++ items)))
  | [], hne => absurd rfl hne
  | [item], _ => by
      simp [tokensOfItems, tokens_complete _ _ item, Reading.step?]
  | item :: next :: rest, _ => by
      have hrest := tokensOfItems_complete stack (item :: before) false (next :: rest) (by simp)
      simpa [tokensOfItems, tokens_complete _ _ item, Reading.step?] using hrest

theorem tokensOfMembers_complete (stack : List Open) (before : List (Literal × Json))
    (mayClose : Bool) : ∀ members : List (Literal × Json), members ≠ [] →
    (tokensOfMembers members ++ [Token.closeObject]).foldlM Reading.step?
        (.member stack before mayClose) =
      some (.complete stack (.object (before.reverse ++ members)))
  | [], hne => absurd rfl hne
  | [(name, value)], _ => by
      simp [tokensOfMembers, tokens_complete _ _ value, Reading.step?]
  | (name, value) :: next :: rest, _ => by
      have hrest := tokensOfMembers_complete stack ((name, value) :: before) false (next :: rest)
        (by simp)
      simpa [tokensOfMembers, tokens_complete _ _ value, Reading.step?] using hrest

end

theorem ofTokens?_tokens (j : Json) : ofTokens? j.tokens = some j := by
  simp [ofTokens?, tokens_complete, Reading.result?]

/-- Every document that is written can be read. -/
theorem parse?_pretty (j : Json) : parse? j.pretty = some j.respelt := by
  simp [parse?, tokens?_pretty, ofTokens?_tokens]

theorem parse?_compact (j : Json) : parse? j.compact = some j.respelt := by
  simp [parse?, tokens?_compact, ofTokens?_tokens]

/-! ## Values in documents -/

theorem respeltItems_eq_map (items : List Json) : respeltItems items = items.map respelt := by
  induction items with
  | nil => rfl
  | cons item rest ih => rw [respeltItems, ih, List.map_cons]

@[simp]
theorem respelt_array (items : List Json) :
    respelt (.array items) = .array (items.map respelt) := by
  rw [respelt, respeltItems_eq_map]

@[simp]
theorem respelt_record (members : List (String × Json)) : respelt (.record members) =
    .record (members.map fun member => (member.1, member.2.respelt)) := by
  have hmembers : respeltMembers (members.map fun member => (some member.1, member.2)) =
      (members.map fun member => (member.1, member.2.respelt)).map
        fun member => (some member.1, member.2) := by
    induction members with
    | nil => rfl
    | cons member rest ih => simp [respeltMembers, ih]
  exact congrArg Json.object hmembers

@[simp]
theorem respelt_int (n : Int) : respelt (int n) = int n := rfl

theorem intIn?_int {least greatest n : Int} (hleast : least ≤ n) (hgreatest : n ≤ greatest) :
    (int n).intIn? least greatest = some n := by
  have hread : (Decimal.Numeral.ofInt n).toInt? = some n := by
    unfold Decimal.Numeral.ofInt Decimal.Numeral.toInt?
    by_cases hneg : n < 0
    · have hne : n.natAbs ≠ 0 := by omega
      simp only [hneg, decide_true, hne, if_false, Option.some.injEq]
      omega
    · simp only [hneg, decide_false, Option.some.injEq]
      omega
  simp [intIn?, int, numeral?, hread, hleast, hgreatest]

@[simp]
theorem signed32?_int (n : Int32) : (int n.toInt).signed32? = some n := by
  have hleast := n.le_toInt
  have hgreatest := n.toInt_lt
  rw [signed32?, intIn?_int (by simpa using hleast) (by omega)]
  simp

@[simp]
theorem word32?_int (n : UInt32) : (int n.toNat).word32? = some n := by
  have hgreatest := n.toNat_lt
  rw [word32?, intIn?_int (by omega) (by omega)]
  simp

@[simp]
theorem word64?_int (n : UInt64) : (int n.toNat).word64? = some n := by
  have hgreatest := n.toNat_lt
  rw [word64?, intIn?_int (by omega) (by omega)]
  simp

/-- An array can be read again if its items can. -/
theorem list?_array {β : Type} {toJson : β → Json} {read? : Json → Option β} {p : β → Prop}
    [DecidablePred p] {items : List β}
    (h : ∀ item ∈ items, read? (toJson item).respelt = if p item then some item else none) :
    (respelt (.array (items.map toJson))).list? read? =
      if ∀ item ∈ items, p item then some items else none := by
  rw [respelt_array, list?]
  induction items with
  | nil => rfl
  | cons item rest ih =>
      obtain ⟨hitem, hrest⟩ := List.forall_mem_cons.1 h
      rw [List.map_cons, List.map_cons, List.mapM_cons, hitem, ih hrest]
      by_cases hfirst : p item
      · by_cases hothers : ∀ item ∈ rest, p item
        · rw [if_pos hfirst, if_pos hothers, if_pos (List.forall_mem_cons.2 ⟨hfirst, hothers⟩)]
          rfl
        · rw [if_pos hfirst, if_neg hothers,
            if_neg fun hall => hothers (List.forall_mem_cons.1 hall).2]
          rfl
      · rw [if_neg hfirst, if_neg fun hall => hfirst (List.forall_mem_cons.1 hall).1]
        rfl

theorem list?_eq_some {β : Type} {toJson : β → Json} {read? : Json → Option β} {items : List β}
    (h : ∀ item ∈ items, read? (toJson item).respelt = some item) :
    (respelt (.array (items.map toJson))).list? read? = some items := by
  have hall := list?_array (p := fun _ => True) fun item hitem =>
    (h item hitem).trans (if_pos trivial).symm
  rwa [if_pos fun _ _ => trivial] at hall

theorem exists_of_mem_list? {β : Type} {read? : Json → Option β} {j : Json} {results : List β}
    (h : j.list? read? = some results) : ∀ result ∈ results, ∃ item, read? item = some result := by
  unfold list? at h
  split at h
  · rename_i items
    induction items generalizing results with
    | nil =>
        cases h
        simp
    | cons item rest ih =>
        simp only [List.mapM_cons, Option.bind_eq_bind, Option.bind_eq_some_iff, Option.pure_def,
          Option.some.injEq] at h
        obtain ⟨first, hfirst, others, hothers, rfl⟩ := h
        exact List.forall_mem_cons.2 ⟨⟨item, hfirst⟩, ih hothers⟩
  · cases h

theorem exists_of_mem_orElse {β : Type} {read? : Json → Option β} {fields : Fields} {name : String}
    {results : List β} (h : fields.orElse name [] (list? read?) = some results) :
    ∀ result ∈ results, ∃ item, read? item = some result := by
  unfold Fields.orElse at h
  split at h
  · cases h
    simp
  · exact exists_of_mem_list? h

/-- A record with all known fields once, in any order, is read as it stands. -/
theorem fields?_record {names : List String} {members : List (String × Json)}
    (hknown : ∀ member ∈ members, member.1 ∈ names) (hnodup : (members.map Prod.fst).Nodup) :
    (record members).fields? names = some members := by
  have hnamed : (members.map fun member => ((some member.1 : Literal), member.2)).mapM
      (fun member => member.1.map (·, member.2)) = some members := by
    clear hknown hnodup
    induction members with
    | nil => rfl
    | cons member rest ih => simp [List.mapM_cons, ih]
  have hfilter : members.filter (fun member => names.contains member.1) = members :=
    List.filter_eq_self.2 fun member hmember => by simpa using hknown member hmember
  simp only [record, fields?, hnamed, Option.bind_eq_bind, Option.bind_some, hfilter, hnodup,
    if_true]

end Montage.Json
