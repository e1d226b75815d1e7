import Montage.Scalar

/-!
# Magnetic snapping

A magnet is offered corrections, each with the distance that it would move a proposal, and keeps
the closest of those within reach. Of equally close ones the first stays, so that the order of
the offers is their priority.
-/

namespace Montage

/-- The closest correction so far, and how close another has to be to replace it. -/
structure Magnet (α : Type) where
  best : Option α
  reach : α
deriving DecidableEq, Repr

namespace Magnet

variable {α : Type} [Scalar α]

omit [Scalar α] in
/-- A magnet that takes corrections strictly closer than the threshold. -/
def within (threshold : α) : Magnet α :=
  ⟨none, threshold⟩

/-- Offers a correction at a distance from the proposal. -/
def offer (m : Magnet α) (distance value : α) : Magnet α :=
  if Scalar.abs distance < m.reach then ⟨some value, Scalar.abs distance⟩ else m

/-- Offers corrections in order. -/
def offerAll (m : Magnet α) (offers : List (α × α)) : Magnet α :=
  offers.foldl (fun m (distance, value) => m.offer distance value) m

omit [Scalar α] in
/-- The correction that was kept, or the proposal itself. -/
def resolve (m : Magnet α) (proposal : α) : α :=
  m.best.getD proposal

/-- An instant, pulled to zero or to one of the edges. -/
def snap (instant : α) (edges : List α) (threshold : α) : α :=
  let offers := (instant, 0) :: edges.map fun edge => (instant - edge, edge)
  ((within threshold).offerAll offers).resolve instant

end Magnet

end Montage
