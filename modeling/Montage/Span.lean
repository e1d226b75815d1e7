import Montage.Scalar

/-!
# Spans

A span is the half-open interval of the timeline from `start` up to but not including `stop`.
-/

namespace Montage

/-- The instants from `start` up to but not including `stop`. -/
structure Span (α : Type) where
  start : α
  stop : α
deriving DecidableEq, Repr

namespace Span

variable {α : Type} [Scalar α]

/-- The span of the given length from the given start. -/
def ofLength (start length : α) : Span α :=
  ⟨start, start + length⟩

/-- How long the span is. -/
def length (s : Span α) : α :=
  s.stop - s.start

/-- The span moved along the timeline. -/
def shift (s : Span α) (delta : α) : Span α :=
  ⟨s.start + delta, s.stop + delta⟩

/-- Whether two spans share more than `ε` of time; spans that merely touch do not. -/
def overlaps (s t : Span α) (ε : α) : Bool :=
  s.start < t.stop - ε && t.start + ε < s.stop

/-- Whether an instant lies strictly between the two ends. -/
def strictlyContains (s : Span α) (instant : α) : Bool :=
  s.start < instant && instant < s.stop

/-- Whether an instant lies in the span. -/
def covers (s : Span α) (instant : α) : Bool :=
  s.start ≤ instant && instant < s.stop

/-- Whether two spans have the same ends. -/
def same (s t : Span α) : Bool :=
  s.start == t.start && s.stop == t.stop

end Span

end Montage
