import Montage.Json.Printer
import Mathlib.Data.List.TakeWhile
import Mathlib.Tactic.IntervalCases

/-!
# Spellings of numbers

A number literal that is written can be read, and names the number that was written. Only its
spelling may differ: zeros at the end of the digits go into the power of ten.
-/

namespace Montage.Decimal

/-! ## Runs of digits -/

theorem isDigit_of_mem_digitsOf {n : Nat} {c : Char} (h : c ∈ digitsOf n) : c.isDigit = true :=
  Nat.isDigit_of_mem_toDigits (by decide) (by decide) h

theorem digitsOf_ne_nil (n : Nat) : digitsOf n ≠ [] :=
  Nat.toDigits_ne_nil

theorem valueOfDigits_digitsOf (n : Nat) : valueOfDigits (digitsOf n) = n := by
  have hvalue := @Nat.ofDigitChars_ten_toDigits n
  rw [Nat.ofDigitChars_eq_foldl] at hvalue
  exact hvalue

theorem head?_digitsOf {n : Nat} (h : n ≠ 0) : (digitsOf n).head? ≠ some '0' := by
  unfold digitsOf
  induction n using Nat.strongRecOn with
  | ind n ih =>
      rw [Nat.toDigits_eq_if (by decide)]
      split
      · interval_cases n <;> first | exact absurd rfl h | decide
      · have hfirst := ih (n / 10) (by omega) (by omega)
        obtain ⟨c, rest, hdigits⟩ := List.exists_cons_of_ne_nil (@Nat.toDigits_ne_nil (n / 10) 10)
        rw [hdigits] at hfirst ⊢
        exact hfirst

theorem takeDigits?_append {run rest : List Char} (hrun : ∀ c ∈ run, c.isDigit = true)
    (hne : run ≠ []) (hrest : ∀ c ∈ rest.head?, c.isDigit = false) :
    takeDigits? (run ++ rest) = some (run, rest) := by
  have hstop : rest.takeWhile Char.isDigit = [] ∧ rest.dropWhile Char.isDigit = rest := by
    cases rest with
    | nil => exact ⟨rfl, rfl⟩
    | cons c rest => simp [hrest c rfl]
  unfold takeDigits?
  rw [List.takeWhile_append_of_pos hrun, List.dropWhile_append_of_pos hrun, hstop.1, hstop.2,
    List.append_nil]
  cases run with
  | nil => exact absurd rfl hne
  | cons c run => rfl

theorem takeDigits?_all {run : List Char} (hrun : ∀ c ∈ run, c.isDigit = true) (hne : run ≠ []) :
    takeDigits? run = some (run, []) := by
  have htake := takeDigits?_append hrun hne (fun c (hc : c ∈ ([] : List Char).head?) => nomatch hc)
  rwa [List.append_nil] at htake

theorem takeDigits?_eq_some {cs run rest : List Char} (h : takeDigits? cs = some (run, rest)) :
    cs = run ++ rest ∧ run ≠ [] ∧ ∀ c ∈ run, c.isDigit = true := by
  unfold takeDigits? at h
  split at h
  · cases h
  · rename_i hne
    cases h
    exact ⟨(List.takeWhile_append_dropWhile).symm, hne, fun c hc =>
      List.mem_takeWhile_imp hc⟩

namespace Numeral

/-! ## Zeros around the digits -/

theorem valueOfDigits_zeros_append (zeros : Nat) (digits : List Char) :
    valueOfDigits (List.replicate zeros '0' ++ digits) = valueOfDigits digits := by
  induction zeros with
  | zero => rfl
  | succ zeros ih => exact ih

theorem ofDigits_append_zeros (negative : Bool) (digits : List Char) (zeros : Nat)
    (exponent : Int) :
    ofDigits negative (digits ++ List.replicate zeros '0') (exponent - zeros) =
      ofDigits negative digits exponent := by
  have hdrop : (digits ++ List.replicate zeros '0').reverse.dropWhile (· = '0') =
      digits.reverse.dropWhile (· = '0') := by
    rw [List.reverse_append, List.reverse_replicate, List.dropWhile_append_of_pos]
    simp
  simp only [ofDigits, hdrop, List.length_append, List.length_replicate]
  split
  · rfl
  · congr 1
    omega

theorem ofDigits_zeros_append (negative : Bool) (zeros : Nat) {digits : List Char}
    (hdigits : ∃ c ∈ digits, c ≠ '0') (exponent : Int) :
    ofDigits negative (List.replicate zeros '0' ++ digits) exponent =
      ofDigits negative digits exponent := by
  have hkept : digits.reverse.dropWhile (· = '0') ≠ [] := by
    simpa [List.dropWhile_eq_nil_iff] using hdigits
  have hdrop : ((List.replicate zeros '0' ++ digits).reverse.dropWhile (· = '0')).reverse =
      List.replicate zeros '0' ++ (digits.reverse.dropWhile (· = '0')).reverse := by
    rw [List.reverse_append, List.dropWhile_append, if_neg (by simpa using hkept),
      List.reverse_append, List.reverse_reverse]
  simp only [ofDigits, hdrop, valueOfDigits_zeros_append, List.length_append,
    List.length_replicate]
  rw [if_neg (by simp [hkept]), if_neg (by simp [hkept])]
  congr 1
  omega

/-! ## Reading what is written -/

/-- The number as a text of it is read. It has no zeros at its end unless it is a whole number. -/
def respelt (n : Numeral) : Numeral :=
  if n.whole then { n with exponent := 0 }
  else ofDigits n.negative (digitsOf n.coefficient) n.exponent

theorem parse?_signed (negative : Bool) {cs : List Char} (h : ∀ c ∈ cs.head?, c.isDigit = true) :
    parse? ((if negative then "-" else "").toList ++ cs) = unsigned? negative cs := by
  cases negative with
  | true => rfl
  | false =>
      unfold parse?
      split
      · rename_i rest heq
        have hcs : cs = '-' :: rest := heq
        rw [hcs] at h
        exact absurd (h '-' rfl) (by decide)
      · rfl

section

variable {cs before after rest : List Char} (hbefore : takeDigits? cs = some (before, rest))
  (hzero : before.head? = some '0' → before.length = 1) (negative : Bool)
include hbefore hzero

theorem unsigned?_of_no_point (hrest : rest.head? ≠ some '.') :
    unsigned? negative cs = scaled? negative before [] false rest := by
  have hlead : ¬ (before.head? = some '0' ∧ before.length > 1) := fun h => by
    have := hzero h.1
    omega
  simp only [unsigned?, hbefore, Option.bind_eq_bind, Option.bind_some, decide_eq_true_eq,
    Bool.and_eq_true, hlead, if_false]
  split
  · exact absurd rfl hrest
  · rfl

theorem unsigned?_of_point {tail : List Char} (hrest : rest = '.' :: tail)
    {rest' : List Char} (hafter : takeDigits? tail = some (after, rest')) :
    unsigned? negative cs = scaled? negative before after true rest' := by
  have hlead : ¬ (before.head? = some '0' ∧ before.length > 1) := fun h => by
    have := hzero h.1
    omega
  subst hrest
  simp only [unsigned?, hbefore, Option.bind_eq_bind, Option.bind_some, decide_eq_true_eq,
    Bool.and_eq_true, hlead, if_false, hafter]

end

theorem scaled?_power (negative : Bool) (before after : List Char) (point : Bool) (place : Int) :
    scaled? negative before after point
        ('e' :: (if place < 0 then '-' else '+') :: digitsOf place.natAbs) =
      some (ofDigits negative (before ++ after) (place - after.length)) := by
  have htake : takeDigits? (digitsOf place.natAbs) = some (digitsOf place.natAbs, []) :=
    takeDigits?_all (fun c => isDigit_of_mem_digitsOf) (digitsOf_ne_nil _)
  have hpower : exponent? ((if place < 0 then '-' else '+') :: digitsOf place.natAbs) =
      some place := by
    by_cases hplace : place < 0
    · simp only [hplace, if_true, exponent?, exponent?.magnitude, htake, valueOfDigits_digitsOf,
        Option.map_some, Option.some.injEq]
      omega
    · simp only [hplace, if_false, exponent?, exponent?.magnitude, htake, valueOfDigits_digitsOf,
        Option.some.injEq]
      omega
  simp [scaled?, hpower]

theorem head?_of_unsigned? {negative : Bool} {cs : List Char} {n : Numeral}
    (h : unsigned? negative cs = some n) : ∀ c ∈ cs.head?, c.isDigit = true := by
  unfold unsigned? at h
  obtain ⟨⟨run, rest⟩, htake, _⟩ := Option.bind_eq_some_iff.1 h
  obtain ⟨rfl, hne, hrun⟩ := takeDigits?_eq_some htake
  obtain ⟨first, others, rfl⟩ := List.exists_cons_of_ne_nil hne
  simpa using hrun first (by simp)

/-! ### The two notations -/

section

variable {digits : List Char} (hdigits : ∀ c ∈ digits, c.isDigit = true)
  (hlead : ∃ c rest, digits = c :: rest ∧ c ≠ '0') (negative : Bool) (exponent : Int)
include hdigits hlead

theorem unsigned?_placed :
    unsigned? negative (Style.stored.placed digits (digits.length + exponent - 1)).toList =
      some (ofDigits negative digits exponent) := by
  obtain ⟨first, others, hcons, hfirst⟩ := hlead
  have hpositive : 0 < digits.length := by simp [hcons]
  unfold Style.placed
  split
  · rename_i hplace
    -- Below one: the digits stand behind the point, with zeros before them.
    let zeros := (-((digits.length : Int) + exponent - 1) - 1).toNat
    have hzeros : (zeros : Int) = -(digits.length + exponent) := by
      simp only [zeros]
      omega
    have htext : ("0." ++ String.ofList (List.replicate zeros '0' ++ digits)).toList =
        ['0'] ++ '.' :: (List.replicate zeros '0' ++ digits) := by
      simp
    have hrun (c : Char) (hc : c ∈ List.replicate zeros '0' ++ digits) : c.isDigit = true := by
      rcases List.mem_append.1 hc with hzero | hdigit
      · rw [List.eq_of_mem_replicate hzero]
        rfl
      · exact hdigits c hdigit
    have hafter : takeDigits? (List.replicate zeros '0' ++ digits) =
        some (List.replicate zeros '0' ++ digits, []) :=
      takeDigits?_all hrun (by simp [hcons])
    rw [htext, unsigned?_of_point (takeDigits?_append (by simp) (by simp) (by simp)) (by simp)
      negative rfl hafter, scaled?, if_pos rfl, ← List.append_assoc, List.singleton_append,
      ← List.replicate_succ,
      ofDigits_zeros_append negative _ ⟨first, by simp [hcons], hfirst⟩]
    congr 2
    simp only [List.length_append, List.length_replicate]
    omega
  · rename_i hplace
    simp only
    split
    · rename_i hlong
      -- A whole number: zeros fill the places up to the point.
      let zeros := ((digits.length : Int) + exponent - 1).toNat + 1 - digits.length
      have hzeros : (zeros : Int) = exponent := by
        simp only [zeros]
        omega
      have htext : (String.ofList (digits ++ List.replicate zeros '0') ++
          Style.stored.wholeMark).toList = digits ++ List.replicate zeros '0' ++ '.' :: ['0'] := by
        simp [Style.stored]
      have hrun (c : Char) (hc : c ∈ digits ++ List.replicate zeros '0') : c.isDigit = true := by
        rcases List.mem_append.1 hc with hdigit | hzero
        · exact hdigits c hdigit
        · rw [List.eq_of_mem_replicate hzero]
          rfl
      have hafter : takeDigits? ['0'] = some (['0'], []) := rfl
      rw [htext, unsigned?_of_point (takeDigits?_append hrun (by simp [hcons]) (by simp))
        (by simp [hcons, hfirst]) negative rfl hafter, scaled?, if_pos rfl, List.append_assoc,
        ← List.replicate_succ']
      have hshift := ofDigits_append_zeros negative digits (zeros + 1) exponent
      rw [← hshift]
      congr 2
      simp only [List.length_singleton]
      omega
    · rename_i hshort
      -- The point stands among the digits.
      let before := ((digits.length : Int) + exponent - 1).toNat + 1
      have htext : (String.ofList (digits.take before) ++ "." ++
          String.ofList (digits.drop before)).toList =
            digits.take before ++ '.' :: digits.drop before := by
        simp
      have hafter : takeDigits? (digits.drop before) = some (digits.drop before, []) := by
        have hne : digits.drop before ≠ [] := by
          rw [Ne, List.drop_eq_nil_iff]
          exact hshort
        exact takeDigits?_all (fun c hc => hdigits c (List.mem_of_mem_drop hc)) hne
      rw [htext, unsigned?_of_point (takeDigits?_append
        (fun c hc => hdigits c (List.mem_of_mem_take hc)) (by simp [hcons, before]) (by simp))
        (by simp [hcons, hfirst, before]) negative rfl hafter, scaled?, if_pos rfl,
        List.take_append_drop]
      congr 2
      simp only [List.length_drop]
      omega

theorem unsigned?_powered :
    unsigned? negative (Style.powered digits (digits.length + exponent - 1)).toList =
      some (ofDigits negative digits exponent) := by
  obtain ⟨first, others, hcons, hfirst⟩ := hlead
  let place := (digits.length : Int) + exponent - 1
  have hscaled (point : Bool) := scaled?_power negative [first] others point place
  have hexponent : place - others.length = exponent := by
    simp only [place, hcons, List.length_cons]
    omega
  have hothers (c : Char) (hc : c ∈ others) : c.isDigit = true :=
    hdigits c (by simp [hcons, hc])
  have hfirstDigit : first.isDigit = true := hdigits first (by simp [hcons])
  rw [hexponent] at hscaled
  cases others with
  | nil =>
      have htext : (Style.powered digits place).toList =
          [first] ++ 'e' :: (if place < 0 then '-' else '+') :: digitsOf place.natAbs := by
        by_cases hplace : place < 0 <;> simp [Style.powered, hcons, hplace]
      rw [htext, unsigned?_of_no_point (takeDigits?_append (by simpa using hfirstDigit) (by simp)
        (by simp)) (by simp) negative (by simp), hscaled, hcons]
      rfl
  | cons second others =>
      have htext : (Style.powered digits place).toList = [first] ++ '.' :: (second :: others ++
          'e' :: (if place < 0 then '-' else '+') :: digitsOf place.natAbs) := by
        by_cases hplace : place < 0 <;> simp [Style.powered, hcons, hplace]
      rw [htext, unsigned?_of_point (takeDigits?_append (by simpa using hfirstDigit) (by simp)
        (by simp)) (by simp) negative rfl (takeDigits?_append hothers (by simp) (by simp)),
        hscaled, hcons]
      rfl

end

theorem parse?_renderNumber (n : Numeral) :
    parse? (Json.renderNumber n).toList = some n.respelt := by
  have hdigits (c : Char) (hc : c ∈ digitsOf n.coefficient) := isDigit_of_mem_digitsOf hc
  obtain ⟨first, others, hcons⟩ := List.exists_cons_of_ne_nil (digitsOf_ne_nil n.coefficient)
  have hhead : ∀ c ∈ (digitsOf n.coefficient).head?, c.isDigit = true := by
    rw [hcons] at hdigits ⊢
    simpa using hdigits first (by simp)
  have hlead : n.coefficient ≠ 0 → ∃ c rest, digitsOf n.coefficient = c :: rest ∧ c ≠ '0' := by
    intro hne
    refine ⟨first, others, hcons, ?_⟩
    simpa [hcons] using head?_digitsOf hne
  unfold Json.renderNumber respelt
  split
  · rename_i hwhole
    have htake : takeDigits? (digitsOf n.coefficient) = some (digitsOf n.coefficient, []) :=
      takeDigits?_all hdigits (digitsOf_ne_nil _)
    rw [String.toList_append, String.toList_ofList, parse?_signed n.negative hhead,
      unsigned?_of_no_point htake (fun hzero => ?_) n.negative (by simp), scaled?,
      if_neg (by simp), valueOfDigits_digitsOf, hwhole]
    by_cases hne : n.coefficient = 0
    · rw [hne]
      rfl
    · exact absurd hzero (head?_digitsOf hne)
  · unfold Style.render
    simp only
    split
    · rename_i hzero
      have hhead : ∀ c ∈ ("0" ++ Style.stored.wholeMark).toList.head?, c.isDigit = true := by
        intro c hc
        cases hc
        rfl
      rw [hzero, String.append_assoc, String.toList_append, parse?_signed n.negative hhead]
      rfl
    · rename_i hne
      have hspelt {text : String} (htext : unsigned? n.negative text.toList = some
          (ofDigits n.negative (digitsOf n.coefficient) n.exponent)) :
          parse? ((if n.negative then "-" else "") ++ text).toList =
            some (ofDigits n.negative (digitsOf n.coefficient) n.exponent) := by
        rw [String.toList_append, parse?_signed n.negative (head?_of_unsigned? htext), htext]
      simp only [Style.stored]
      split
      · exact hspelt (unsigned?_placed hdigits (hlead hne) n.negative n.exponent)
      · exact hspelt (unsigned?_powered hdigits (hlead hne) n.negative n.exponent)

end Numeral

end Montage.Decimal
