import Montage.Editing.Placement

/-!
# Splitting clips

A clip is cut at an instant into a left half, which keeps its id and link, and a new right half. The
partner of a linked clip is cut at the same instant, and the two right halves are linked.
-/

namespace Montage.Timeline

variable {α : Type} [Scalar α]

/-- Whether a cut leaves more than `ε` on both sides. -/
def cutsCleanly (span : Span α) (instant ε : α) : Bool :=
  span.strictlyContains instant && ε < instant - span.start && ε < span.stop - instant

/-- The part of a clip after an instant, under a new id and without a link. -/
def rightHalf (clip : Clip α) (instant : α) (id : ClipId) : Clip α :=
  { clip with id := id, start := instant, offset := clip.offsetAt instant, link := none }

/--
The clips that a split cuts, after all checks: the clip and its partner. There are none when the
instant is not well inside the clip.
-/
def toCut (t : Timeline α) (id : ClipId) (instant ε : α) : Except (Refusal α) (List (Clip α)) :=
  match t.clip? id with
  | none => .error (.clipNotFound id)
  | some clip =>
      if !cutsCleanly clip.span instant ε then .ok []
      else
        match clip.link with
        | none => .ok [clip]
        | some link =>
            match t.clip? link with
            | none => .error (.inconsistent (.danglingLink id link))
            | some partner =>
                if cutsCleanly partner.span instant ε then .ok [clip, partner]
                else .error (.partnerNotCut id link instant)

/-- The right halves of one clip, or of a clip and its partner. -/
def rightHalves (clips : List (Clip α)) (instant : α) (id partnerId : ClipId) : List (Clip α) :=
  match clips with
  | [] => []
  | [clip] => [rightHalf clip instant id]
  | clip :: partner :: _ =>
      [{ rightHalf clip instant id with link := some partnerId },
       { rightHalf partner instant partnerId with link := some id }]

/-- The timeline with the given clips ending at the instant. -/
def shorten (t : Timeline α) (clips : List (Clip α)) (instant : α) : Timeline α :=
  clips.foldl (fun t clip => t.modify clip.id fun c => { c with stop := instant }) t

/-- Splits a clip and its partner; `none` when there is nothing to split. -/
def split (t : Timeline α) (id : ClipId) (instant ε : α) (ids : IdSupply) :
    Except (Refusal α) (Option (List ClipId × Timeline α)) × IdSupply :=
  match t.toCut id instant ε with
  | .error refusal => (.error refusal, ids)
  | .ok [] => (.ok none, ids)
  | .ok clips =>
      let rights := rightHalves clips instant ids.next (ids.skip 1).next
      let next := (t.shorten clips instant).insertAll rights .splitRejected
      (next.map fun t => some (rights.map Clip.id, t), ids.skip rights.length)

end Montage.Timeline
