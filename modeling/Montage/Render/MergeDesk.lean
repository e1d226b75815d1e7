import Montage.Session.Call

/-!
# Merges in flight

A merge waits for its rendering while the session goes on, and other merges with it. Each merge
passes through stages: it is planned, it claims its clips, its rendering arrives, it is applied, and
it lets go of its clips. Merges that claim a common clip do not run beside each other.
-/

namespace Montage

/-! ## Stages -/

/-- Why a merge replaced nothing. -/
inductive MergeFailure (α : Type)
  | refused (reason : Refusal α)
  | unrendered (reason : Failure)
  /-- Nobody waited for it any longer. -/
  | abandoned
deriving DecidableEq, Repr

/-- What became of a merge: the id of the merged clip, or why there is none. -/
abbrev MergeOutcome (α : Type) := Except (MergeFailure α) ClipId

/-- How far a merge has come. -/
inductive MergeStage (α : Type)
  | planned (plan : MergePlan α)
  /-- The clips are claimed, and the rendering is being made. -/
  | rendering (plan : MergePlan α)
  /-- The clips are claimed, and the rendering has arrived. -/
  | rendered (plan : MergePlan α) (asset : Asset α)
  /-- All is done, but the clips are still claimed. -/
  | closing (plan : MergePlan α) (outcome : MergeOutcome α)
  | finished (outcome : MergeOutcome α)

namespace MergeStage

variable {α : Type}

/-- The clips that a merge claims at a stage. -/
def claims : MergeStage α → List ClipId
  | rendering plan | rendered plan _ | closing plan _ => plan.ids
  | planned _ | finished _ => []

/-- What became of the merge, once that is settled. -/
def outcome? : MergeStage α → Option (MergeOutcome α)
  | closing _ outcome | finished outcome => some outcome
  | _ => none

/-- What the render service is asked for, while it is. -/
def request? : MergeStage α → Option (Timeline α)
  | rendering plan => some plan.request
  | _ => none

end MergeStage

/-! ## The desk -/

/-- A session with the merges that were begun on it, which are numbered from zero. -/
structure MergeDesk (α : Type) where
  session : Session α
  /-- The clips that merges have claimed. -/
  inFlight : ClipSet
  merges : List (MergeStage α)

namespace MergeDesk

variable {α : Type} [Scalar α]

omit [Scalar α] in
/-- A desk where no merge has begun. -/
def ofSession (session : Session α) : MergeDesk α :=
  ⟨session, ∅, []⟩

omit [Scalar α] in
/-- Puts a merge into a stage. -/
def put (desk : MergeDesk α) (n : Nat) (stage : MergeStage α) : MergeDesk α :=
  { desk with merges := desk.merges.set n stage }

/-- Begins a merge, which gets the next number. -/
def plan (desk : MergeDesk α) (track : TrackId) (clips : List ClipId) : MergeDesk α :=
  let (plan, session) := desk.session.planMerge track clips
  let stage := match plan with
    | .error reason => .finished (.error (.refused reason))
    | .ok plan => .planned plan
  { desk with session, merges := desk.merges ++ [stage] }

omit [Scalar α] in
/-- Claims the clips of a planned merge, unless one of them is claimed already. -/
def claim (desk : MergeDesk α) (n : Nat) : MergeDesk α :=
  match desk.merges[n]? with
  | some (.planned plan) =>
      match plan.ids.find? fun id => desk.inFlight.contains id with
      | some busy => desk.put n (.finished (.error (.refused (.mergeRunning busy))))
      | none => { desk.put n (.rendering plan) with inFlight := desk.inFlight.insertMany plan.ids }
  | _ => desk

omit [Scalar α] in
/-- The render service answers. -/
def answer (desk : MergeDesk α) (n : Nat) (result : Except Failure (Asset α)) : MergeDesk α :=
  match desk.merges[n]? with
  | some (.rendering plan) =>
      match result with
      | .error reason => desk.put n (.closing plan (.error (.unrendered reason)))
      | .ok asset => desk.put n (.rendered plan asset)
  | _ => desk

/-- Applies a rendered merge to the session as it is now. -/
def apply (desk : MergeDesk α) (n : Nat) : MergeDesk α :=
  match desk.merges[n]? with
  | some (.rendered plan asset) =>
      let (result, session) := desk.session.applyMerge plan asset
      { desk.put n (.closing plan (result.mapError .refused)) with session }
  | _ => desk

omit [Scalar α] in
/-- The clips are free again. -/
def free (desk : MergeDesk α) (ids : List ClipId) : MergeDesk α :=
  { desk with inFlight := ids.foldl (fun inFlight id => inFlight.erase id) desk.inFlight }

omit [Scalar α] in
/-- A merge that is done lets go of its clips. -/
def release (desk : MergeDesk α) (n : Nat) : MergeDesk α :=
  match desk.merges[n]? with
  | some (.closing plan outcome) => (desk.free plan.ids).put n (.finished outcome)
  | _ => desk

omit [Scalar α] in
/-- A merge that nobody waits for any longer lets go of its clips. -/
def abandon (desk : MergeDesk α) (n : Nat) : MergeDesk α :=
  match desk.merges[n]? with
  | some (.rendering plan) | some (.rendered plan _) =>
      (desk.free plan.ids).put n (.finished (.error .abandoned))
  | _ => desk

/-! ## Whole merges -/

/-- Plans a merge and claims its clips. -/
def launch (desk : MergeDesk α) (track : TrackId) (clips : List ClipId) : MergeDesk α :=
  (desk.plan track clips).claim desk.merges.length

/-- Ends a merge with the service's answer. -/
def settle (desk : MergeDesk α) (n : Nat) (result : Except Failure (Asset α)) : MergeDesk α :=
  ((desk.answer n result).apply n).release n

omit [Scalar α] in
/-- What became of a merge, once it is settled. -/
def outcome? (desk : MergeDesk α) (n : Nat) : Option (MergeOutcome α) :=
  desk.merges[n]?.bind MergeStage.outcome?

/-! ## Any order of steps -/

/-- One step of some merge, or a call on the session. -/
inductive Step (α : Type)
  | plan (track : TrackId) (clips : List ClipId)
  | claim (n : Nat)
  | answer (n : Nat) (result : Except Failure (Asset α))
  | apply (n : Nat)
  | release (n : Nat)
  | abandon (n : Nat)
  | edit (call : Call α)

/-- The desk after a step. -/
def step (desk : MergeDesk α) : Step α → MergeDesk α
  | .plan track clips => desk.plan track clips
  | .claim n => desk.claim n
  | .answer n result => desk.answer n result
  | .apply n => desk.apply n
  | .release n => desk.release n
  | .abandon n => desk.abandon n
  | .edit call => { desk with session := (desk.session.step call).2 }

/-- The desk after steps in some order. -/
def run (desk : MergeDesk α) (steps : List (Step α)) : MergeDesk α :=
  steps.foldl step desk

end MergeDesk

end Montage
