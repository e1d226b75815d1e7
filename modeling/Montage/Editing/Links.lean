import Montage.Editing.Refusal
import Montage.Timeline.Basic
import Std.Data.ExtTreeSet

/-!
# Links and selections

A selection is closed under links: with a clip it holds the clip's partner, so that no edit of a
selection takes a pair apart. `Timeline.Reachable` says what the closure holds without computing it.
-/

namespace Montage

/-- A set of clip ids, which is listed in the order of the ids. -/
abbrev ClipSet := Std.ExtTreeSet ClipId

namespace Timeline

variable {α : Type}

/-! ## Closure -/

/-- The clips that links lead to from the clips among the seeds. -/
inductive Reachable (t : Timeline α) (seeds : List ClipId) : ClipId → Prop
  | seed {id clip} : id ∈ seeds → t.clip? id = some clip → Reachable t seeds clip.id
  | link {id clip next partner} : Reachable t seeds id → t.clip? id = some clip →
      clip.link = some next → t.clip? next = some partner → Reachable t seeds partner.id

/--
Follows links from the ids that wait, the first one first. Each step takes one id off the list, and
adds one only when a clip is met for the first time.
-/
def followLinks (t : Timeline α) : Nat → List ClipId → ClipSet → Except (Refusal α) ClipSet
  | 0, _, closed => .ok closed
  | _ + 1, [], closed => .ok closed
  | steps + 1, id :: waiting, closed =>
      match t.clip? id with
      | none => t.followLinks steps waiting closed
      | some clip =>
          if closed.contains clip.id then t.followLinks steps waiting closed
          else
            let closed := closed.insert clip.id
            match clip.link with
            | none => t.followLinks steps waiting closed
            | some link =>
                match t.clip? link with
                | none => .error (.inconsistent (.danglingLink clip.id link))
                | some _ =>
                    if closed.contains link then t.followLinks steps waiting closed
                    else t.followLinks steps (link :: waiting) closed

/--
The clips that links lead to from the given ids, the last one being followed first. Ids of no clip
are passed over; a link to a missing clip is a fault of the model.
-/
def linkClosure (t : Timeline α) (seeds : List ClipId) : Except (Refusal α) ClipSet :=
  t.followLinks (seeds.length + t.clipCount) seeds.reverse ∅

/-! ## Selections -/

/-- What is left of a selection on another timeline, closed again. -/
def retainSelection (t : Timeline α) (selection : ClipSet) : Except (Refusal α) ClipSet :=
  t.linkClosure (selection.toList.filter fun id => (t.clip? id).isSome)

/--
The selection after a click on a clip. A plain click selects the clip alone; an additive one adds
it, or takes it out if it was selected. Its partner comes and goes with it.
-/
def select (t : Timeline α) (selection : ClipSet) (clip : ClipId) (additive : Bool) :
    Except (Refusal α) ClipSet := do
  if (t.clip? clip).isNone then throw (.clipNotFound clip)
  if !additive then t.linkClosure [clip]
  else if selection.contains clip then
    let group ← t.linkClosure [clip]
    t.linkClosure (selection.toList.filter fun id => !group.contains id)
  else t.linkClosure (selection.toList ++ [clip])

end Timeline

end Montage
