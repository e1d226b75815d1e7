import Montage.Json.Reader
import Montage.Proofs.Spellings

/-!
# Tokens of written documents

The text of a document is read as its tokens, character by character. What a number or a word ends
with is only known from the character that follows it, so the lexer is followed to the end of a
value, and from there on by a comma or a new line.
-/

namespace Montage

open Decimal (Numeral takeDigits? takeDigits?_eq_some)
open Json (Token Lexing)

/-! ## Characters of numbers -/

namespace Decimal.Numeral

theorem isNumberPart_of_isDigit {c : Char} (h : c.isDigit = true) :
    Lexing.isNumberPart c = true := by
  simp [Lexing.isNumberPart, h]

theorem isNumberPart_of_takeDigits? {cs run rest : List Char}
    (h : takeDigits? cs = some (run, rest))
    (hrest : ∀ c ∈ rest, Lexing.isNumberPart c = true) :
    ∀ c ∈ cs, Lexing.isNumberPart c = true := by
  obtain ⟨rfl, _, hrun⟩ := takeDigits?_eq_some h
  intro c hc
  rcases List.mem_append.1 hc with hdigit | hother
  · exact isNumberPart_of_isDigit (hrun c hdigit)
  · exact hrest c hother

theorem isNumberPart_of_exponent? {cs : List Char} {e : Int} (h : exponent? cs = some e) :
    ∀ c ∈ cs, Lexing.isNumberPart c = true := by
  have hmagnitude {cs : List Char} {e : Int} (h : exponent?.magnitude cs = some e) :
      ∀ c ∈ cs, Lexing.isNumberPart c = true := by
    unfold exponent?.magnitude at h
    split at h
    · exact isNumberPart_of_takeDigits? ‹_› (by simp)
    · cases h
  unfold exponent? at h
  split at h
  · obtain ⟨e, hrest, _⟩ := Option.map_eq_some_iff.1 h
    exact List.forall_mem_cons.2 ⟨rfl, hmagnitude hrest⟩
  · exact List.forall_mem_cons.2 ⟨rfl, hmagnitude h⟩
  · exact hmagnitude h

theorem isNumberPart_of_scaled? {negative point : Bool} {before after rest : List Char}
    {n : Numeral} (h : scaled? negative before after point rest = some n) :
    ∀ c ∈ rest, Lexing.isNumberPart c = true := by
  unfold scaled? at h
  split at h
  · simp
  · split at h
    · rename_i hmark
      obtain ⟨e, htail, _⟩ := Option.map_eq_some_iff.1 h
      refine List.forall_mem_cons.2 ⟨?_, isNumberPart_of_exponent? htail⟩
      simp only [Bool.or_eq_true, decide_eq_true_eq] at hmark
      rcases hmark with rfl | rfl <;> rfl
    · cases h

theorem isNumberPart_of_unsigned? {negative : Bool} {cs : List Char} {n : Numeral}
    (h : unsigned? negative cs = some n) : ∀ c ∈ cs, Lexing.isNumberPart c = true := by
  unfold unsigned? at h
  obtain ⟨⟨before, rest⟩, hbefore, h⟩ := Option.bind_eq_some_iff.1 h
  refine isNumberPart_of_takeDigits? hbefore ?_
  simp only at h
  split at h
  · cases h
  split at h
  · obtain ⟨⟨after, rest⟩, hafter, h⟩ := Option.bind_eq_some_iff.1 h
    exact List.forall_mem_cons.2
      ⟨rfl, isNumberPart_of_takeDigits? hafter (isNumberPart_of_scaled? h)⟩
  · exact isNumberPart_of_scaled? h

/-- A number literal is made of a digit or a minus and of parts of numbers. -/
theorem exists_cons_of_parse? {cs : List Char} {n : Numeral} (h : parse? cs = some n) :
    ∃ c rest, cs = c :: rest ∧ (c.isDigit = true ∨ c = '-') ∧
      ∀ d ∈ rest, Lexing.isNumberPart d = true := by
  unfold parse? at h
  split at h
  · exact ⟨'-', _, rfl, .inr rfl, isNumberPart_of_unsigned? h⟩
  · have hall := isNumberPart_of_unsigned? h
    have hhead := head?_of_unsigned? h
    cases cs with
    | nil => cases h
    | cons c rest => exact ⟨c, rest, rfl, .inl (hhead c rfl), fun d hd => hall d (by simp [hd])⟩

end Decimal.Numeral

namespace Json

/-! ## Following the lexer -/

/-- The lexer, standing between tokens, is led by the characters to the given place and tokens. -/
def Leads (cs : List Char) (at_ : Lexing) (ts : List Token) : Prop :=
  ∀ done, cs.foldlM tokens?.feed (Lexing.between, done) = some (at_, ts.reverse ++ done)

/-- What a value may be followed by. -/
def Follows (c : Char) : Prop :=
  c = ',' ∨ c = '\n' ∨ c = ']' ∨ c = '\x7d'

/-- The lexer stands behind a value, whose last tokens are complete once it is known to end. -/
structure Lexing.Ends (at_ : Lexing) (last : List Token) : Prop where
  close?_eq : at_.close? = some last
  step?_eq : ∀ c, Follows c → at_.step? c = (start? c).map fun next => (next.1, last ++ next.2)

/-- The characters are read as the tokens, in front of whatever may follow a value. -/
def Scans (cs : List Char) (ts : List Token) : Prop :=
  ∃ at_ first last, ts = first ++ last ∧ Leads cs at_ first ∧ at_.Ends last

theorem Lexing.next_eq {at_ : Lexing} {last : List Token} (h : at_.close? = some last) (c : Char) :
    step?.next at_ c = (start? c).map fun next => (next.1, last ++ next.2) := by
  rw [step?.next, h]
  cases start? c <;> rfl

theorem Lexing.ends_between : Lexing.between.Ends [] where
  close?_eq := rfl
  step?_eq c _ := by
    change start? c = _
    simp

theorem Leads.scans {cs : List Char} {ts : List Token} (h : Leads cs .between ts) : Scans cs ts :=
  ⟨.between, ts, [], by simp, h, Lexing.ends_between⟩

theorem Leads.append {cs cs' : List Char} {ts ts' : List Token} {at_ : Lexing}
    (h : Leads cs .between ts) (h' : Leads cs' at_ ts') : Leads (cs ++ cs') at_ (ts ++ ts') := by
  intro done
  rw [List.foldlM_append, h done]
  simpa using h' (ts.reverse ++ done)

theorem Leads.scans_append {cs cs' : List Char} {ts ts' : List Token} (h : Leads cs .between ts)
    (h' : Scans cs' ts') : Scans (cs ++ cs') (ts ++ ts') := by
  obtain ⟨at_, first, last, rfl, hleads, hends⟩ := h'
  exact ⟨at_, ts ++ first, last, by simp, h.append hleads, hends⟩

/-- A value and what follows it are read one after the other. -/
theorem Scans.append {cs rest : List Char} {c : Char} {ts ts' : List Token} (h : Scans cs ts)
    (hc : Follows c) (h' : Scans (c :: rest) ts') : Scans (cs ++ c :: rest) (ts ++ ts') := by
  obtain ⟨before, first, last, rfl, hbefore, hends⟩ := h
  obtain ⟨at_, first', last', rfl, hleads, hends'⟩ := h'
  refine ⟨at_, first ++ last ++ first', last', by simp, fun done => ?_, hends'⟩
  have hstep := hleads (last.reverse ++ first.reverse ++ done)
  rw [List.foldlM_append, hbefore done]
  simp only [List.foldlM_cons, Option.bind_eq_bind, Option.bind_some, tokens?.feed,
    hends.step?_eq c hc] at hstep ⊢
  cases hstart : Lexing.start? c with
  | none =>
    simp [Lexing.step?, hstart] at hstep
  | some next =>
    simpa [Lexing.step?, hstart] using hstep

theorem Scans.tokens?_eq {cs : List Char} {ts : List Token} (h : Scans cs ts) :
    tokens? cs = some ts := by
  obtain ⟨at_, first, last, rfl, hleads, hends⟩ := h
  simp [tokens?, hleads [], hends.close?_eq]

/-! ## Strings -/

/-- From one place in a string literal to a later one nothing is complete. -/
def Lexing.Passes (at_ : Lexing) (cs : List Char) (next : Lexing) : Prop :=
  ∀ done, cs.foldlM tokens?.feed (at_, done) = some (next, done)

theorem Lexing.Passes.append {at_ mid next : Lexing} {cs cs' : List Char}
    (h : at_.Passes cs mid) (h' : mid.Passes cs' next) : at_.Passes (cs ++ cs') next := by
  intro done
  rw [List.foldlM_append, h done]
  exact h' done

theorem hexDigit?_digitChar {n : Nat} (h : n < 16) : hexDigit? (Nat.digitChar n) = some n := by
  interval_cases n <;> rfl

/-- However a character is written in a string literal, it is read as itself. -/
theorem escape_passes (units : List Nat) (c : Char) :
    (Lexing.string units).Passes (escape c).toList (.string (c.toNat :: units)) := by
  intro done
  unfold escape
  split
  · rfl
  · rfl
  · rfl
  · rfl
  · rfl
  · rename_i hquote hslash _ _ _
    split
    · rename_i hunit
      rw [hunit]
      rfl
    split
    · rename_i hunit
      rw [hunit]
      rfl
    split
    · rename_i hcontrol
      -- A control character is written by its code, in four digits that begin with two zeros.
      have hfirst := hexDigit?_digitChar (n := c.toNat / 16) (by omega)
      have hsecond := hexDigit?_digitChar (n := c.toNat % 16) (by omega)
      have htext : ("\\u00" ++ hexPair c.toNat).toList =
          ['\\', 'u', '0', '0', Nat.digitChar (c.toNat / 16), Nat.digitChar (c.toNat % 16)] := by
        simp [hexPair]
      have hcode : 16 * (c.toNat / 16) + c.toNat % 16 = c.toNat := Nat.div_add_mod _ _
      have hzero : hexDigit? '0' = some 0 := rfl
      simp [htext, tokens?.feed, Lexing.step?, hzero, hfirst, hsecond, hcode]
    · rename_i hplain
      have hother : c ≠ '"' ∧ c ≠ '\\' := ⟨hquote, hslash⟩
      simp [tokens?.feed, Lexing.step?, hplain, hother, Char.toString_eq_singleton]

theorem toList_foldl_escape (cs : List Char) (done : String) :
    (cs.foldl (fun done c => done ++ escape c) done).toList =
      done.toList ++ cs.flatMap fun c => (escape c).toList := by
  induction cs generalizing done with
  | nil => simp
  | cons c cs ih => simp [ih]

theorem flatMap_escape_passes (units : List Nat) (cs : List Char) :
    (Lexing.string units).Passes (cs.flatMap fun c => (escape c).toList)
      (.string ((cs.map Char.toNat).reverse ++ units)) := by
  induction cs generalizing units with
  | nil => exact fun done => rfl
  | cons c cs ih => simpa using (escape_passes units c).append (ih (c.toNat :: units))

theorem charsOfUnits_toNat (first cs : List Char) :
    charsOfUnits first (cs.map Char.toNat) = some (first.reverse ++ cs) := by
  induction cs generalizing first with
  | nil => simp [charsOfUnits]
  | cons c cs ih =>
      -- No character is a surrogate.
      have hvalid : c.toNat < 0xD800 ∨ 0xDFFF < c.toNat ∧ c.toNat < 0x110000 := c.valid
      have hhigh : ¬ (0xD800 ≤ c.toNat ∧ c.toNat ≤ 0xDBFF) := by omega
      have hlow : ¬ (0xDC00 ≤ c.toNat ∧ c.toNat ≤ 0xDFFF) := by omega
      rw [List.map_cons, charsOfUnits.eq_def]
      simp [hhigh, hlow, ih]

theorem textOfUnits_toNat (s : String) : textOfUnits (s.toList.map Char.toNat) = some s := by
  simp [textOfUnits, charsOfUnits_toNat]

theorem quote_leads (s : String) : Leads (quote s).toList .between [.string (some s)] := by
  intro done
  have htext : (quote s).toList =
      '"' :: ((s.toList.flatMap fun c => (escape c).toList) ++ ['"']) := by
    simp [quote, toList_foldl_escape]
  have hinside := flatMap_escape_passes [] s.toList done
  rw [htext, List.foldlM_cons]
  simp only [tokens?.feed, Lexing.step?, Lexing.start?, Option.bind_eq_bind, Option.bind_some,
    Option.pure_def, List.reverse_nil, List.nil_append, List.foldlM_append, List.append_nil]
    at hinside ⊢
  rw [hinside]
  simp [tokens?.feed, Lexing.step?, textOfUnits_toNat]

/-! ## Numbers and words -/

theorem start?_number {c : Char} (h : c.isDigit = true ∨ c = '-') :
    Lexing.start? c = some (.number [c], []) := by
  rcases h with h | rfl
  · unfold Lexing.start?
    split
    all_goals first | exact absurd h (by decide) | skip
    have hspace : Lexing.isSpace c = false := by
      simp only [Lexing.isSpace, Bool.or_eq_false_iff, decide_eq_false_iff_not]
      refine ⟨⟨⟨?_, ?_⟩, ?_⟩, ?_⟩ <;> rintro rfl <;> exact absurd h (by decide)
    simp [hspace, h]
  · rfl

theorem number_scans {cs : List Char} {n : Numeral} (h : Numeral.parse? cs = some n) :
    Scans cs [.number n] := by
  obtain ⟨first, rest, rfl, hfirst, hrest⟩ := Numeral.exists_cons_of_parse? h
  have hinside (literal rest : List Char) (hrest : ∀ d ∈ rest, Lexing.isNumberPart d = true) :
      (Lexing.number literal).Passes rest (.number (rest.reverse ++ literal)) := by
    induction rest generalizing literal with
    | nil => exact fun done => rfl
    | cons d rest ih =>
        intro done
        obtain ⟨hd, hrest⟩ := List.forall_mem_cons.1 hrest
        have hnext := ih (d :: literal) hrest done
        simpa [tokens?.feed, Lexing.step?, hd] using hnext
  refine ⟨.number (rest.reverse ++ [first]), [], [.number n], rfl, fun done => ?_, ?_, ?_⟩
  · have hpasses := hinside [first] rest hrest done
    simpa [tokens?.feed, Lexing.step?, start?_number hfirst] using hpasses
  · simp [Lexing.close?, h]
  · intro c hc
    have hpart : Lexing.isNumberPart c = false := by
      rcases hc with rfl | rfl | rfl | rfl <;> rfl
    rw [Lexing.step?, if_neg (by simp [hpart])]
    exact Lexing.next_eq (by simp [Lexing.close?, h]) c

theorem word_scans {cs : List Char} {token : Token}
    (hword : Leads cs (.word cs.reverse) []) (htoken : Lexing.wordToken? cs = some token) :
    Scans cs [token] := by
  have hclose : (Lexing.word cs.reverse).close? = some [token] := by
    simp [Lexing.close?, htoken]
  refine ⟨.word cs.reverse, [], [token], rfl, hword, hclose, fun c hc => ?_⟩
  have halpha : c.isAlpha = false := by
    rcases hc with rfl | rfl | rfl | rfl <;> rfl
  rw [Lexing.step?, if_neg (by simp [halpha])]
  exact Lexing.next_eq hclose c

theorem null_scans : Scans "null".toList [.null] :=
  word_scans (fun _ => rfl) rfl

theorem bool_scans (b : Bool) : Scans (if b then "true" else "false").toList [.bool b] := by
  cases b with
  | true => exact word_scans (fun _ => rfl) rfl
  | false => exact word_scans (fun _ => rfl) rfl

/-! ## Documents -/

mutual

/-- The document as its text is read. -/
def respelt : Json → Json
  | .null => .null
  | .bool b => .bool b
  | .number n => .number n.respelt
  | .string s => .string (some (s.getD ""))
  | .array items => .array (respeltItems items)
  | .object members => .object (respeltMembers members)

/-- The items as their text is read. -/
def respeltItems : List Json → List Json
  | [] => []
  | item :: rest => respelt item :: respeltItems rest

/-- The members as their text is read. -/
def respeltMembers : List (Literal × Json) → List (Literal × Json)
  | [] => []
  | (name, value) :: rest => (some (name.getD ""), respelt value) :: respeltMembers rest

end

mutual

/-- The tokens of a document. -/
def tokens : Json → List Token
  | .null => [.null]
  | .bool b => [.bool b]
  | .number n => [.number n]
  | .string s => [.string s]
  | .array items => .openArray :: tokensOfItems items ++ [.closeArray]
  | .object members => .openObject :: tokensOfMembers members ++ [.closeObject]

/-- The tokens of items with commas between them. -/
def tokensOfItems : List Json → List Token
  | [] => []
  | [item] => tokens item
  | item :: rest => tokens item ++ .comma :: tokensOfItems rest

/-- The tokens of members with commas between them. -/
def tokensOfMembers : List (Literal × Json) → List Token
  | [] => []
  | [(name, value)] => .string name :: .colon :: tokens value
  | (name, value) :: rest =>
      .string name :: .colon :: tokens value ++ .comma :: tokensOfMembers rest

end

theorem newLine_leads (depth : Nat) : Leads (newLine depth).toList .between [] := by
  have hspaces (n : Nat) : Leads (List.replicate n ' ') .between [] := by
    induction n with
    | zero => exact fun _ => rfl
    | succ n ih => exact fun done => ih done
  intro done
  have htext : (newLine depth).toList = '\n' :: List.replicate (2 * depth) ' ' := by
    simp [newLine]
  rw [htext]
  exact hspaces _ done

theorem closing_scans (depth : Nat) {bracket : Char} {token : Token}
    (h : Leads [bracket] .between [token]) {cs : List Char} {ts : List Token} (hcs : Scans cs ts) :
    Scans (cs ++ ((newLine depth).toList ++ [bracket])) (ts ++ [token]) := by
  have hclosing : Scans ((newLine depth).toList ++ [bracket]) [token] :=
    ((newLine_leads depth).append h).scans
  have htext : (newLine depth).toList = '\n' :: List.replicate (2 * depth) ' ' := by
    simp [newLine]
  rw [htext, List.cons_append] at hclosing ⊢
  exact hcs.append (.inr (.inl rfl)) hclosing

theorem member_scans (depth : Nat) (name : Literal) {cs : List Char} {ts : List Token}
    (h : Scans cs ts) :
    Scans ((newLine depth).toList ++ ((quoteLiteral name).toList ++ (": ".toList ++ cs)))
      (.string (some (name.getD "")) :: .colon :: ts) := by
  have hcolon : Leads ": ".toList .between [.colon] := fun _ => rfl
  exact (newLine_leads depth).scans_append
    ((quote_leads (name.getD "")).scans_append (hcolon.scans_append h))

mutual

/-- A document that is written is read as its tokens. -/
theorem prettyAt_scans (depth : Nat) : ∀ j : Json, Scans (prettyAt depth j).toList j.respelt.tokens
  | .null => null_scans
  | .bool b => bool_scans b
  | .number n => number_scans (Numeral.parse?_renderNumber n)
  | .string s => (quote_leads (s.getD "")).scans
  | .array [] => by
      have hleads : Leads "[]".toList .between [.openArray, .closeArray] := fun _ => rfl
      rw [prettyAt]
      exact hleads.scans
  | .object [] => by
      have hleads : Leads "\x7b\x7d".toList .between [.openObject, .closeObject] := fun _ => rfl
      rw [prettyAt]
      exact hleads.scans
  | .array (item :: rest) => by
      have hopen : Leads ['['] .between [.openArray] := fun _ => rfl
      have hclose : Leads [']'] .between [.closeArray] := fun _ => rfl
      have hall := hopen.scans_append
        (closing_scans depth hclose (prettyItems_scans depth (item :: rest) (by simp)))
      simpa [prettyAt, respelt, tokens] using hall
  | .object (member :: rest) => by
      have hopen : Leads ['\x7b'] .between [.openObject] := fun _ => rfl
      have hclose : Leads ['\x7d'] .between [.closeObject] := fun _ => rfl
      have hall := hopen.scans_append
        (closing_scans depth hclose (prettyMembers_scans depth (member :: rest) (by simp)))
      simpa [prettyAt, respelt, tokens] using hall

theorem prettyItems_scans (depth : Nat) : ∀ items : List Json, items ≠ [] →
    Scans (prettyItems depth items).toList (tokensOfItems (respeltItems items))
  | [], hne => absurd rfl hne
  | [item], _ => by
      have hitem := (newLine_leads (depth + 1)).scans_append (prettyAt_scans (depth + 1) item)
      simpa [prettyItems, respeltItems, tokensOfItems] using hitem
  | item :: next :: rest, _ => by
      have hitem := (newLine_leads (depth + 1)).scans_append (prettyAt_scans (depth + 1) item)
      have hcomma : Leads ",".toList .between [.comma] := fun _ => rfl
      have hall := hitem.append (.inl rfl)
        (hcomma.scans_append (prettyItems_scans depth (next :: rest) (by simp)))
      simpa [prettyItems, respeltItems, tokensOfItems] using hall

theorem prettyMembers_scans (depth : Nat) : ∀ members : List (Literal × Json), members ≠ [] →
    Scans (prettyMembers depth members).toList (tokensOfMembers (respeltMembers members))
  | [], hne => absurd rfl hne
  | [(name, value)], _ => by
      have hmember := member_scans (depth + 1) name (prettyAt_scans (depth + 1) value)
      simpa [prettyMembers, respeltMembers, tokensOfMembers] using hmember
  | (name, value) :: next :: rest, _ => by
      have hmember := member_scans (depth + 1) name (prettyAt_scans (depth + 1) value)
      have hcomma : Leads ",".toList .between [.comma] := fun _ => rfl
      have hall := hmember.append (.inl rfl)
        (hcomma.scans_append (prettyMembers_scans depth (next :: rest) (by simp)))
      simpa [prettyMembers, respeltMembers, tokensOfMembers] using hall

end

theorem tokens?_pretty (j : Json) : tokens? j.pretty.toList = some j.respelt.tokens :=
  (prettyAt_scans 0 j).tokens?_eq

mutual

/-- A document that is written without white space is read as the same tokens. -/
theorem compact_scans : ∀ j : Json, Scans (compact j).toList j.respelt.tokens
  | .null => null_scans
  | .bool b => bool_scans b
  | .number n => number_scans (Numeral.parse?_renderNumber n)
  | .string s => (quote_leads (s.getD "")).scans
  | .array [] => by
      have hleads : Leads "[]".toList .between [.openArray, .closeArray] := fun _ => rfl
      exact hleads.scans
  | .object [] => by
      have hleads : Leads "\x7b\x7d".toList .between [.openObject, .closeObject] := fun _ => rfl
      exact hleads.scans
  | .array (item :: rest) => by
      have hopen : Leads ['['] .between [.openArray] := fun _ => rfl
      have hclose : Leads [']'] .between [.closeArray] := fun _ => rfl
      have hall := hopen.scans_append ((compactItems_scans (item :: rest) (by simp)).append
        (.inr (.inr (.inl rfl))) hclose.scans)
      simpa [compact, respelt, tokens] using hall
  | .object (member :: rest) => by
      have hopen : Leads ['\x7b'] .between [.openObject] := fun _ => rfl
      have hclose : Leads ['\x7d'] .between [.closeObject] := fun _ => rfl
      have hall := hopen.scans_append ((compactMembers_scans (member :: rest) (by simp)).append
        (.inr (.inr (.inr rfl))) hclose.scans)
      simpa [compact, respelt, tokens] using hall

theorem compactItems_scans : ∀ items : List Json, items ≠ [] →
    Scans (compactItems items).toList (tokensOfItems (respeltItems items))
  | [], hne => absurd rfl hne
  | [item], _ => compact_scans item
  | item :: next :: rest, _ => by
      have hcomma : Leads ",".toList .between [.comma] := fun _ => rfl
      have hall := (compact_scans item).append (.inl rfl)
        (hcomma.scans_append (compactItems_scans (next :: rest) (by simp)))
      simpa [compactItems, respeltItems, tokensOfItems] using hall

theorem compactMembers_scans : ∀ members : List (Literal × Json), members ≠ [] →
    Scans (compactMembers members).toList (tokensOfMembers (respeltMembers members))
  | [], hne => absurd rfl hne
  | [(name, value)], _ => by
      have hcolon : Leads ":".toList .between [.colon] := fun _ => rfl
      have hmember := (quote_leads (name.getD "")).scans_append
        (hcolon.scans_append (compact_scans value))
      simpa [compactMembers, respeltMembers, tokensOfMembers, quoteLiteral] using hmember
  | (name, value) :: next :: rest, _ => by
      have hcolon : Leads ":".toList .between [.colon] := fun _ => rfl
      have hmember := (quote_leads (name.getD "")).scans_append
        (hcolon.scans_append (compact_scans value))
      have hcomma : Leads ",".toList .between [.comma] := fun _ => rfl
      have hall := hmember.append (.inl rfl)
        (hcomma.scans_append (compactMembers_scans (next :: rest) (by simp)))
      simpa [compactMembers, respeltMembers, tokensOfMembers, quoteLiteral] using hall

end

theorem tokens?_compact (j : Json) : tokens? j.compact.toList = some j.respelt.tokens :=
  (compact_scans j).tokens?_eq

end Json

end Montage
