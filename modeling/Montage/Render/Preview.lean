import Montage.Failure
import Montage.QuietTimer
import Montage.Render.Output
import Montage.Timeline.Basic

/-!
# Automatic previews

The loop takes every committed timeline, and asks for a preview of the last one when no other has
come for a while. Requests are never called off, but only the answer to the last one is shown.
-/

namespace Montage

/-! ## What is shown -/

/-- The preview that is shown. -/
inductive Preview
  | idle
  | ready (generation : Nat) (url : String)
  /-- There was nothing to render. -/
  | empty (generation : Nat)
  | failed (generation : Nat) (message : String)
deriving DecidableEq, Repr

namespace Preview

/-- The request that is shown the answer to; zero if there is none. -/
def generation : Preview → Nat
  | idle => 0
  | ready generation _ | empty generation | failed generation _ => generation

/-- What is shown of an answer. -/
def ofResult (generation : Nat) : Except Failure RenderOutput → Preview
  | .error reason => failed generation reason.message
  | .ok output =>
      if output.isReady then ready generation output.url
      else if output.status = .empty then empty generation
      else failed generation s!"preview finished with status {output.status.label}"

end Preview

/-! ## The loop -/

/-- The state of the loop. Times are in milliseconds. -/
structure PreviewLoop (α : Type) where
  timer : QuietTimer
  /-- The timeline to ask a preview of when the timer fires. -/
  pending : Option (Timeline α)
  /-- Whether timelines are still taken. -/
  isOpen : Bool
  /-- The requests without an answer. -/
  awaited : List Nat
  shown : Preview

namespace PreviewLoop

variable {α : Type}

/-- The loop before anything has happened. -/
def start (delay : Nat) : PreviewLoop α :=
  ⟨.start delay, none, true, [], .idle⟩

/-- Whether the loop has nothing left to do. -/
def isOver (loop : PreviewLoop α) : Bool :=
  !loop.isOpen && loop.pending.isNone && loop.awaited.isEmpty

/-- Takes a timeline, which starts the wait anew. -/
def note (loop : PreviewLoop α) (now : Nat) (timeline : Timeline α) : PreviewLoop α :=
  { loop with pending := some timeline, timer := loop.timer.touch now }

/-- A timeline is sent to the loop; once the loop is stopped it is passed over. -/
def receive (loop : PreviewLoop α) (now : Nat) (timeline : Timeline α) : PreviewLoop α :=
  if loop.isOpen then loop.note now timeline else loop

/-- Stops the loop, which still takes the timelines that have been sent before. -/
def stop (loop : PreviewLoop α) (now : Nat) (sent : List (Timeline α)) : PreviewLoop α :=
  if loop.isOpen then { sent.foldl (fun loop t => loop.note now t) loop with isOpen := false }
  else loop

/-- Looks at the timer; when it fires, the answer is the request to send with its generation. -/
def tick (loop : PreviewLoop α) (now : Nat) : Option (Nat × Timeline α) × PreviewLoop α :=
  match loop.timer.poll now with
  | (none, _) => (none, loop)
  | (some generation, timer) =>
      match loop.pending with
      | none => (none, { loop with timer })
      | some timeline =>
          (some (generation, timeline),
            { loop with timer, pending := none, awaited := loop.awaited ++ [generation] })

/-- Takes the answer to a request. It is shown unless a later request has been sent. -/
def respond (loop : PreviewLoop α) (generation : Nat) (result : Except Failure RenderOutput) :
    PreviewLoop α :=
  if loop.awaited.contains generation then
    { loop with
      awaited := loop.awaited.erase generation
      shown :=
        if loop.timer.isLatest generation then .ofResult generation result else loop.shown }
  else loop

end PreviewLoop

end Montage
