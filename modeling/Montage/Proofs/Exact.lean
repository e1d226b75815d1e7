import Mathlib.Algebra.Order.Field.Rat
import Montage.Scalar

/-!
# Exact numbers and one that is none

Exact rationals, and one more value that stands for whatever is not finite: it spreads through every
computation, comes of a division by zero, and compares with nothing.
-/

namespace Montage

/-- A rational number, or none. -/
inductive Exact
  | number (value : Rat)
  | undefined
deriving DecidableEq, Repr

namespace Exact

/-- The result for two numbers; there is none where one is missing. -/
def combine (f : Rat → Rat → Exact) : Exact → Exact → Exact
  | .number a, .number b => f a b
  | _, _ => .undefined

/-- Whether two numbers are so related; nothing else is. -/
def related (r : Rat → Rat → Bool) : Exact → Exact → Bool
  | .number a, .number b => r a b
  | _, _ => false

/-- The result for a number. -/
def apply (f : Rat → Rat) : Exact → Exact
  | .number a => .number (f a)
  | .undefined => .undefined

/-- Whether there is a number. -/
def isNumber : Exact → Bool
  | .number _ => true
  | .undefined => false

instance : Scalar Exact where
  zero := .number 0
  one := .number 1
  add := combine fun a b => .number (a + b)
  sub := combine fun a b => .number (a - b)
  mul := combine fun a b => .number (a * b)
  div := combine fun a b => if b = 0 then .undefined else .number (a / b)
  neg := apply fun a => -a
  lt a b := related (fun a b => a < b) a b = true
  le a b := related (fun a b => a ≤ b) a b = true
  beq := related fun a b => a = b
  abs := apply Rat.abs
  isFinite := isNumber
  totalLe a b := !b.isNumber || related (fun a b => a ≤ b) a b
  decideLt a b := inferInstanceAs (Decidable (related (fun a b => a < b) a b = true))
  decideLe a b := inferInstanceAs (Decidable (related (fun a b => a ≤ b) a b = true))

theorem zero_eq : (0 : Exact) = .number 0 := rfl

@[simp]
theorem number_add (a b : Rat) : number a + number b = number (a + b) := rfl

@[simp]
theorem neg_number (a : Rat) : -number a = number (-a) := rfl

@[simp]
theorem isFinite_number (a : Rat) : Scalar.isFinite (number a) = true := rfl

@[simp]
theorem number_lt {a b : Rat} : number a < number b ↔ a < b :=
  decide_eq_true_iff

@[simp]
theorem number_le {a b : Rat} : number a ≤ number b ↔ a ≤ b :=
  decide_eq_true_iff

theorem exists_of_isFinite {x : Exact} (h : Scalar.isFinite x = true) : ∃ a, x = number a := by
  cases x with
  | number a => exact ⟨a, rfl⟩
  | undefined => cases h

/-- What comes before something else is a number, and so is what it comes before. -/
theorem exists_of_lt {x y : Exact} (h : x < y) : ∃ a b, x = number a ∧ y = number b ∧ a < b := by
  cases x with
  | undefined => cases h
  | number a =>
      cases y with
      | undefined => cases h
      | number b => exact ⟨a, b, rfl, rfl, number_lt.1 h⟩

theorem smaller_number (a b : Rat) : Scalar.smaller (number a) (number b) = number (min a b) := by
  have hself : (number b == number b) = true := decide_eq_true rfl
  unfold Scalar.smaller
  by_cases h : a < b
  · rw [if_pos (number_lt.2 h), min_eq_left h.le]
  · rw [if_neg (mt number_lt.1 h), if_pos hself, min_eq_right (le_of_not_gt h)]

theorem foldl_smaller_number (first : Rat) (rest : List Rat) :
    (rest.map number).foldl Scalar.smaller (number first) = number (rest.foldl min first) := by
  induction rest generalizing first with
  | nil => rfl
  | cons next rest ih => rw [List.map_cons, List.foldl_cons, smaller_number, ih, List.foldl_cons]

theorem exists_map_number {xs : List Exact} (h : ∀ x ∈ xs, Scalar.isFinite x = true) :
    ∃ values : List Rat, xs = values.map number := by
  induction xs with
  | nil => exact ⟨[], rfl⟩
  | cons x xs ih =>
      obtain ⟨hx, hxs⟩ := List.forall_mem_cons.1 h
      obtain ⟨value, rfl⟩ := exists_of_isFinite hx
      obtain ⟨values, rfl⟩ := ih hxs
      exact ⟨value :: values, rfl⟩

theorem foldl_smaller_spec {first : Exact} {rest : List Exact}
    (h : ∀ x ∈ first :: rest, Scalar.isFinite x = true) :
    ∃ least : Rat, rest.foldl Scalar.smaller first = number least ∧ number least ∈ first :: rest ∧
      ∀ x ∈ first :: rest, number least ≤ x := by
  obtain ⟨hfirst, hrest⟩ := List.forall_mem_cons.1 h
  obtain ⟨a, rfl⟩ := exists_of_isFinite hfirst
  obtain ⟨values, rfl⟩ := exists_map_number hrest
  have hleast : (a :: values).min? = some (values.foldl min a) := List.min?_cons'
  obtain ⟨hmem, hle⟩ := List.min?_eq_some_iff.1 hleast
  rw [← List.map_cons]
  refine ⟨_, foldl_smaller_number a values, List.mem_map_of_mem hmem, ?_⟩
  exact List.forall_mem_map.2 fun value hvalue => number_le.2 (hle value hvalue)

end Exact

end Montage
