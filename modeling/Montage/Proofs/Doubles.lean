import Mathlib
import Montage.Scalar

/-!
# Order and differences of doubles

What editing relies on when it compares doubles: of two doubles at most one is before the other, and
a difference that exceeds a number which is not below zero is the difference of a greater and a
lesser double, however it is rounded.
-/

namespace Montage.Doubles

open Float.Model Float.Model.UnpackedFloat

/-! ## Comparing -/

theorem compare_swap (x y : UnpackedFloat) :
    y.compare x = (x.compare y).map Ordering.swap := by
  cases x with
  | notANumber => cases y <;> rfl
  | infinity s =>
      cases y with
      | infinity s' => cases s <;> cases s' <;> rfl
      | zero s' => cases s <;> rfl
      | finite s' _ _ _ => cases s <;> cases s' <;> rfl
      | notANumber => cases s <;> rfl
  | zero s =>
      cases y with
      | infinity s' => cases s' <;> rfl
      | finite s' _ _ _ => cases s' <;> rfl
      | _ => rfl
  | finite s m e hm =>
      cases y with
      | infinity s' => cases s <;> cases s' <;> rfl
      | finite s' m' e' hm' =>
          cases s <;> cases s' <;>
            simp [UnpackedFloat.compare, Ordering.swap_then, Int.compare_swap, Nat.compare_swap]
      | zero s' => cases s <;> rfl
      | notANumber => cases s <;> rfl

theorem lt_iff {x y : Float} :
    x < y ↔ x.toModel.unpack.compare y.toModel.unpack = some .lt := by
  have hlt : x < y ↔ x.toModel.unpack.lt y.toModel.unpack = true := by
    show decide (x.toModel < y.toModel) = true ↔ _
    rw [decide_eq_true_eq]
    rfl
  rw [hlt, UnpackedFloat.lt]
  generalize x.toModel.unpack.compare y.toModel.unpack = order
  match order with
  | none => decide
  | some .lt => decide
  | some .eq => decide
  | some .gt => decide

theorem le_iff {x y : Float} :
    x ≤ y ↔ x.toModel.unpack.compare y.toModel.unpack = some .lt ∨
      x.toModel.unpack.compare y.toModel.unpack = some .eq := by
  have hle : x ≤ y ↔ x.toModel.unpack.le y.toModel.unpack = true := by
    show decide (x.toModel ≤ y.toModel) = true ↔ _
    rw [decide_eq_true_eq]
    rfl
  rw [hle, UnpackedFloat.le]
  generalize x.toModel.unpack.compare y.toModel.unpack = order
  match order with
  | none => decide
  | some .lt => decide
  | some .eq => decide
  | some .gt => decide

theorem not_le_of_lt {x y : Float} (h : x < y) : ¬ y ≤ x := by
  rw [lt_iff] at h
  rw [le_iff, compare_swap x.toModel.unpack, h]
  decide

/-! ## Keys -/

/-- What a value is compared by: its class, then its exponent, then its mantissa. -/
def key : UnpackedFloat → Option (Int ×ₗ Int ×ₗ Int)
  | .notANumber => none
  | .infinity .negative => some (toLex (-2, toLex (0, 0)))
  | .finite .negative m e _ => some (toLex (-1, toLex (-e, -m)))
  | .zero _ => some (toLex (0, toLex (0, 0)))
  | .finite .positive m e _ => some (toLex (1, toLex (e, m)))
  | .infinity .positive => some (toLex (2, toLex (0, 0)))

theorem compare_natCast (m n : Nat) : compare (m : Int) n = compare m n := by
  rw [← cmp_eq_compare, ← cmp_eq_compare]
  exact Nat.strictMono_cast.cmp_map_eq m n

theorem compare_neg (a b : Int) : compare (-a) (-b) = compare b a := by
  have hanti : StrictAnti fun a : Int => -a := fun _ _ => neg_lt_neg
  rw [← cmp_eq_compare, ← cmp_eq_compare]
  exact hanti.cmp_map_eq a b

theorem compare_toLex (class_ a b a' b' : Int) :
    compare (toLex (class_, toLex (a, b))) (toLex (class_, toLex (a', b'))) =
      (compare a a').then (compare b b') := by
  simp [Prod.Lex.compare_def, compareLex, compareOn]

/-- Values are compared as their keys are. -/
theorem compare_eq_compare_key (x y : UnpackedFloat) :
    x.compare y = (key x).bind fun a => (key y).map (compare a) := by
  cases x with
  | notANumber => cases y <;> rfl
  | infinity s =>
      cases y with
      | infinity s' => cases s <;> cases s' <;> rfl
      | zero s' => cases s <;> rfl
      | finite s' _ _ _ => cases s <;> cases s' <;> rfl
      | notANumber => cases s <;> rfl
  | zero s =>
      cases y with
      | infinity s' => cases s' <;> rfl
      | finite s' _ _ _ => cases s' <;> rfl
      | _ => rfl
  | finite s m e hm =>
      cases y with
      | infinity s' => cases s <;> cases s' <;> rfl
      | finite s' m' e' hm' =>
          cases s with
          | negative =>
              cases s' with
              | negative =>
                  simp [UnpackedFloat.compare, key, compare_toLex, compare_neg, compare_natCast,
                    Ordering.swap_then, Int.compare_swap, Nat.compare_swap]
              | positive => rfl
          | positive =>
              cases s' with
              | negative => rfl
              | positive => simp [UnpackedFloat.compare, key, compare_toLex, compare_natCast]
      | zero s' => cases s <;> rfl
      | notANumber => cases s <;> rfl

/-- The key of a double. -/
def keyOf (x : Float) : Option (Int ×ₗ Int ×ₗ Int) :=
  key x.toModel.unpack

theorem compare_eq_some_iff_key {x y : Float} {order : Ordering} :
    x.toModel.unpack.compare y.toModel.unpack = some order ↔
      ∃ a b, keyOf x = some a ∧ keyOf y = some b ∧ compare a b = order := by
  rw [compare_eq_compare_key, Option.bind_eq_some_iff]
  constructor
  · rintro ⟨a, ha, hmap⟩
    obtain ⟨b, hb, horder⟩ := Option.map_eq_some_iff.1 hmap
    exact ⟨a, b, ha, hb, horder⟩
  · rintro ⟨a, b, ha, hb, horder⟩
    exact ⟨a, ha, Option.map_eq_some_iff.2 ⟨b, hb, horder⟩⟩

theorem lt_iff_key {x y : Float} :
    x < y ↔ ∃ a b, keyOf x = some a ∧ keyOf y = some b ∧ a < b := by
  simp only [lt_iff, compare_eq_some_iff_key, compare_lt_iff_lt]

theorem le_iff_key {x y : Float} :
    x ≤ y ↔ ∃ a b, keyOf x = some a ∧ keyOf y = some b ∧ a ≤ b := by
  simp only [le_iff, compare_eq_some_iff_key, compare_lt_iff_lt, compare_eq_iff_eq, le_iff_lt_or_eq,
    and_or_left, exists_or]

theorem beq_iff_key {x y : Float} : (x == y) = true ↔ ∃ a, keyOf x = some a ∧ keyOf y = some a := by
  have hbeq : (x == y) = (x.toModel.unpack.compare y.toModel.unpack == some .eq) := rfl
  rw [hbeq, beq_iff_eq, compare_eq_some_iff_key]
  simp only [compare_eq_iff_eq]
  constructor
  · rintro ⟨a, _, ha, hb, rfl⟩
    exact ⟨a, ha, hb⟩
  · rintro ⟨a, ha, hb⟩
    exact ⟨a, a, ha, hb, rfl⟩

theorem exists_key_of_isFinite {x : Float} (h : x.isFinite = true) : ∃ a, keyOf x = some a := by
  have hfinite : x.toModel.unpack.isFinite = true := h
  unfold keyOf
  cases hx : x.toModel.unpack with
  | notANumber =>
      rw [hx] at hfinite
      cases hfinite
  | infinity s =>
      rw [hx] at hfinite
      cases hfinite
  | zero s => exact ⟨_, rfl⟩
  | finite s _ _ _ => cases s <;> exact ⟨_, rfl⟩

protected theorem le_refl {x : Float} (h : x.isFinite = true) : x ≤ x := by
  obtain ⟨a, ha⟩ := exists_key_of_isFinite h
  exact le_iff_key.2 ⟨a, a, ha, ha, le_rfl⟩

protected theorem le_trans {x y z : Float} (h : x ≤ y) (h' : y ≤ z) : x ≤ z := by
  obtain ⟨a, b, ha, hb, hab⟩ := le_iff_key.1 h
  obtain ⟨b', c, hb', hc, hbc⟩ := le_iff_key.1 h'
  obtain rfl : b = b' := Option.some.inj (hb.symm.trans hb')
  exact le_iff_key.2 ⟨a, c, ha, hc, hab.trans hbc⟩

/-- Of two numbers neither is after the greater. -/
theorem le_larger {x y : Float} (hx : x.isFinite = true) (hy : y.isFinite = true) :
    x ≤ Scalar.larger x y ∧ y ≤ Scalar.larger x y := by
  obtain ⟨a, ha⟩ := exists_key_of_isFinite hx
  obtain ⟨b, hb⟩ := exists_key_of_isFinite hy
  unfold Scalar.larger
  split
  · rename_i hlt
    obtain ⟨b', a', hb', ha', hba⟩ := lt_iff_key.1 hlt
    exact ⟨le_iff_key.2 ⟨a, a, ha, ha, le_rfl⟩, le_iff_key.2 ⟨b', a', hb', ha', le_of_lt hba⟩⟩
  · rename_i hnot
    rw [if_pos (beq_iff_key.2 ⟨b, hb, hb⟩)]
    have hab : a ≤ b := le_of_not_gt fun hlt => hnot (lt_iff_key.2 ⟨b, a, hb, ha, hlt⟩)
    exact ⟨le_iff_key.2 ⟨a, b, ha, hb, hab⟩, le_iff_key.2 ⟨b, b, hb, hb, le_rfl⟩⟩

/-! ## Doubles as their bits give them -/

/-- The mantissa is that of a double, and the exponent is the least there is or the mantissa full. -/
def Canonical : UnpackedFloat → Prop
  | .finite _ m e _ => m < 2 ^ 53 ∧ -1074 ≤ e ∧ (e = -1074 ∨ 2 ^ 52 ≤ m)
  | _ => True

theorem unpack_canonical (x : Float.Model) : Canonical x.unpack := by
  unfold Float.Model.unpack UnpackedFloat.unpack
  have hmantissa :=
    (unpackMantissa x.toBits.toBitVec : BitVec Format.binary64.mantissaBitsWithoutImplicit).isLt
  have hbias : (Format.binary64.exponentBias : Int) = 1023 := rfl
  dsimp only at hmantissa ⊢
  split_ifs with hall hnone hzero hempty
  · trivial
  · trivial
  · trivial
  · refine ⟨by omega, ?_, .inl ?_⟩ <;> rw [hzero, hbias] <;> rfl
  · have hpositive :
        (@unpackExponent Format.binary64 x.toBits.toBitVec).toNat ≠ 0 := by
      intro h
      exact hzero (BitVec.eq_of_toNat_eq h)
    have hfull : (1#1 ++ @unpackMantissa Format.binary64 x.toBits.toBitVec).toNat =
        2 ^ 52 + (@unpackMantissa Format.binary64 x.toBits.toBitVec).toNat := by
      rw [BitVec.toNat_append]
      exact (Nat.two_pow_add_eq_or_of_lt hmantissa 1).symm
    rw [hbias]
    exact ⟨by omega, by omega, .inr (by omega)⟩

/-! ## Values that are not above zero -/

/-- Whether the value is zero, below it, or undefined. -/
def notAbove : UnpackedFloat → Bool
  | .notANumber | .zero _ => true
  | .infinity sign | .finite sign _ _ _ => sign == .negative

theorem notAbove_unpack_of_sign {bits : BitVec Format.binary64.numBits}
    (h : unpackSign bits = 1#1) : notAbove (unpack .binary64 bits) = true := by
  unfold UnpackedFloat.unpack
  dsimp only
  rw [h]
  split_ifs <;> rfl

/-- Rounding to bits does not lift a value above zero. -/
theorem notAbove_unpack_pack {x : UnpackedFloat} (h : notAbove x = true) :
    notAbove (pack x).unpack = true := by
  cases x with
  | notANumber => decide +kernel
  | infinity sign =>
      cases sign with
      | negative => exact notAbove_unpack_of_sign (unpackSign_packComponents _ _ _)
      | positive => cases h
  | zero sign => cases sign <;> decide +kernel
  | finite sign m e hm =>
      cases sign with
      | negative =>
          refine notAbove_unpack_of_sign ?_
          unfold Float.Model.pack UnpackedFloat.pack
          dsimp only
          split_ifs <;> exact unpackSign_packComponents _ _ _
      | positive => cases h

/-! ## Differences -/

theorem notAbove_round_negative (m : Nat) (e : Int) :
    notAbove (UnpackedFloat.round .binary64 .negative m e) = true := by
  unfold UnpackedFloat.round roundWithAccuracy
  dsimp only
  split_ifs <;> rfl

theorem notAbove_normalize {m : Int} (hm : m ≤ 0) (e : Int) :
    notAbove (UnpackedFloat.normalize .binary64 m e .positive) = true := by
  unfold UnpackedFloat.normalize
  split
  · exact notAbove_round_negative _ e
  · rfl
  · rename_i hgt
    rw [Int.compare_eq_gt] at hgt
    omega

/-- Mantissas at a common exponent are in the order of their doubles. -/
theorem decreaseExponent_le {m m' : Nat} {e e' : Int} (hm : m < 2 ^ 53) (he : -1074 ≤ e)
    (hm' : e' = -1074 ∨ 2 ^ 52 ≤ m') (hle : e < e' ∨ (e = e' ∧ m ≤ m')) :
    (decreaseExponent m e (min e e')).1 ≤ (decreaseExponent m' e' (min e e')).1 := by
  rcases hle with hlt | ⟨rfl, hle⟩
  · have hfull : 2 ^ 52 ≤ m' := hm'.resolve_left (by omega)
    obtain ⟨shift, hshift⟩ : ∃ shift, (e' - e).toNat = shift + 1 := ⟨(e' - e).toNat - 1, by omega⟩
    have hpow : 1 ≤ 2 ^ shift := Nat.one_le_two_pow
    rw [min_eq_left hlt.le, decreaseExponent, decreaseExponent, Int.sub_self, hshift]
    calc m <<< (0 : Int).toNat = m := rfl
      _ ≤ 2 ^ 52 * (1 * 2) := by omega
      _ ≤ m' * (2 ^ shift * 2) := Nat.mul_le_mul hfull (Nat.mul_le_mul_right 2 hpow)
      _ = m' <<< (shift + 1) := by rw [Nat.shiftLeft_eq, pow_succ]
  · rw [min_self, decreaseExponent, decreaseExponent, Int.sub_self]
    exact hle

theorem compare_then_le {e e' : Int} {m m' : Nat}
    (h : (compare e e').then (compare m m') ≠ .gt) : e < e' ∨ (e = e' ∧ m ≤ m') := by
  rcases lt_trichotomy e e' with hlt | rfl | hgt
  · exact .inl hlt
  · refine .inr ⟨rfl, not_lt.1 fun hgt => h ?_⟩
    simp [Nat.compare_eq_gt.2 hgt]
  · exact absurd (by simp [Int.compare_eq_gt.2 hgt]) h

/-- The mantissa of a difference, before it is rounded, is not above zero. -/
theorem mantissa_sub_nonpos {s s' : Sign} {m m' : Nat} {e e' : Int} {hm : 0 < m} {hm' : 0 < m'}
    (hx : Canonical (.finite s m e hm)) (hy : Canonical (.finite s' m' e' hm'))
    (h : UnpackedFloat.compare (.finite s m e hm) (.finite s' m' e' hm') ≠ some .gt) :
    s.apply (decreaseExponent m e (min e e')).1 - s'.apply (decreaseExponent m' e' (min e e')).1 ≤
      0 := by
  obtain ⟨hlt, he, hfull⟩ := hx
  obtain ⟨hlt', he', hfull'⟩ := hy
  cases s with
  | positive =>
      cases s' with
      | positive =>
          have hle := decreaseExponent_le hlt he hfull' (compare_then_le fun hgt => h (by
            rw [UnpackedFloat.compare, hgt]))
          simp only [Sign.apply]
          omega
      | negative => exact absurd rfl h
  | negative =>
      cases s' with
      | positive =>
          simp only [Sign.apply]
          omega
      | negative =>
          have hle := decreaseExponent_le hlt' he' hfull (compare_then_le fun hgt => h (by
            rw [UnpackedFloat.compare, Ordering.swap_then, Int.compare_swap, Nat.compare_swap,
              hgt]))
          rw [min_comm e' e] at hle
          simp only [Sign.apply]
          omega

/-- However it is rounded, the difference of a double and one that is no less is not above zero. -/
theorem notAbove_sub {x y : UnpackedFloat} (hx : Canonical x) (hy : Canonical y)
    (h : x.compare y ≠ some .gt) : notAbove (UnpackedFloat.sub .binary64 x y) = true := by
  cases x with
  | notANumber => rfl
  | infinity s =>
      cases s with
      | negative =>
          cases y with
          | infinity s' => cases s' <;> rfl
          | _ => rfl
      | positive =>
          cases y with
          | infinity s' =>
              cases s' with
              | negative => exact absurd rfl h
              | positive => rfl
          | notANumber => rfl
          | _ => exact absurd rfl h
  | zero s =>
      cases y with
      | notANumber => rfl
      | zero s' => cases s <;> cases s' <;> rfl
      | _ s' =>
          cases s' with
          | negative => exact absurd rfl h
          | positive => rfl
  | finite s m e hm =>
      cases y with
      | notANumber => rfl
      | infinity s' =>
          cases s' with
          | negative => cases s <;> exact absurd rfl h
          | positive => rfl
      | zero s' =>
          cases s with
          | negative => rfl
          | positive => exact absurd rfl h
      | finite s' m' e' hm' => exact notAbove_normalize (mantissa_sub_nonpos hx hy h) _

/-- What is not above zero does not exceed a number that is not below zero. -/
theorem compare_ne_lt_of_notAbove {x y : UnpackedFloat}
    (hx : x.compare (.zero .positive) ≠ some .lt) (hy : notAbove y = true) :
    x.compare y ≠ some .lt := by
  have hsign {s : Sign} (h : (s == .negative) = true) : s = .negative := by
    cases s
    · rfl
    · cases h
  cases x with
  | notANumber => simp [UnpackedFloat.compare]
  | infinity s =>
      cases s with
      | negative => exact absurd rfl hx
      | positive =>
          cases y with
          | infinity s' => cases hsign hy; decide
          | notANumber => decide
          | _ => exact fun h => by cases h
  | zero s =>
      cases y with
      | infinity s' => cases hsign hy; exact fun h => by cases h
      | finite s' _ _ _ => cases hsign hy; exact fun h => by cases h
      | _ => exact fun h => by cases h
  | finite s m e hm =>
      cases s with
      | negative => exact absurd rfl hx
      | positive =>
          cases y with
          | infinity s' => cases hsign hy; exact fun h => by cases h
          | finite s' _ _ _ => cases hsign hy; exact fun h => by cases h
          | _ => exact fun h => by cases h

/-- A difference above a number that is not below zero is that of a greater and a lesser double. -/
theorem not_le_of_lt_sub {x y ε : Float} (hε : ¬ ε < 0) (h : ε < x - y) : ¬ x ≤ y := by
  intro hle
  have hcompare : x.toModel.unpack.compare y.toModel.unpack ≠ some .gt := by
    rcases le_iff.1 hle with h | h <;> rw [h] <;> decide
  have hzero : (0 : Float).toModel.unpack = .zero .positive := by
    rfl
  rw [lt_iff, hzero] at hε
  exact compare_ne_lt_of_notAbove hε (notAbove_unpack_pack (notAbove_sub (unpack_canonical _)
    (unpack_canonical _) hcompare)) (lt_iff.1 h)

end Montage.Doubles
