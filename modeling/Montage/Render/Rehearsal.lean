import Montage.Render.MergeDesk
import Montage.Render.Preview

/-!
# Rehearsals

A render service that follows a script, on a clock that jumps to whatever comes next. A rehearsal
tells what happens at which time, in milliseconds, without anyone waiting.
-/

namespace Montage

/-- What the scripted service does with one request. -/
structure Take (β : Type) where
  /-- How long the answer takes. -/
  latency : Nat
  result : Except Failure β

/-- A request that the scripted service was sent. -/
structure Sent (α : Type) where
  time : Nat
  timeline : Timeline α

/-- What the service answers when its script is at an end. -/
def offScript {β : Type} : Take β :=
  ⟨0, .error (.transport "no answer")⟩

/-! ## Merges -/

/-- Something to do at a given time: a merge of clips, or an act on the session. -/
inductive Task (α β : Type)
  | merge (track : TrackId) (clips : Timeline α → List ClipId)
  | act (run : Session α → β × Session α)

/-- What a task came to. -/
inductive TaskResult (α β : Type)
  | merged (outcome : MergeOutcome α)
  | acted (answer : β)

/-- A task that is done, with how things stood then. -/
structure TaskEntry (α β : Type) where
  task : Nat
  time : Nat
  result : TaskResult α β
  /-- How many clips were still claimed. -/
  inFlight : Nat
  session : Session α

/-- Something that is going to happen. -/
inductive Event (α β : Type)
  | start (number : Nat) (task : Task α β)
  | reply (number merge : Nat) (result : Except Failure (Asset α))

/-- A rehearsal of merges. -/
structure MergeRehearsal (α β : Type) where
  desk : MergeDesk α
  script : List (Take (Asset α))
  /-- What is going to happen and when, the soonest first. -/
  agenda : List (Nat × Event α β)
  sent : List (Sent α)
  log : List (TaskEntry α β)

namespace MergeRehearsal

variable {α β : Type} [Scalar α]

omit [Scalar α] in
/-- Puts an event after those that come no later. -/
def schedule (r : MergeRehearsal α β) (time : Nat) (event : Event α β) : MergeRehearsal α β :=
  { r with agenda := place r.agenda }
where
  place : List (Nat × Event α β) → List (Nat × Event α β)
    | [] => [(time, event)]
    | next :: rest =>
        if next.1 ≤ time then next :: place rest else (time, event) :: next :: rest

omit [Scalar α] in
/-- Notes that a task is done. -/
def note (r : MergeRehearsal α β) (number time : Nat) (result : TaskResult α β) :
    MergeRehearsal α β :=
  { r with
    log := r.log ++ [⟨number, time, result, r.desk.inFlight.size, r.desk.session⟩] }

omit [Scalar α] in
/-- Notes what became of a merge. -/
def noteMerge (r : MergeRehearsal α β) (number time merge : Nat) : MergeRehearsal α β :=
  match r.desk.outcome? merge with
  | some outcome => r.note number time (.merged outcome)
  | none => r

/-- Ends a merge with its answer. -/
def conclude (r : MergeRehearsal α β) (number time merge : Nat)
    (result : Except Failure (Asset α)) : MergeRehearsal α β :=
  { r with desk := r.desk.settle merge result }.noteMerge number time merge

/-- Sends the request of a merge to the service. -/
def request (r : MergeRehearsal α β) (number time merge : Nat) (timeline : Timeline α) :
    MergeRehearsal α β :=
  let take := r.script.head?.getD offScript
  let r := { r with script := r.script.tail, sent := r.sent ++ [Sent.mk time timeline] }
  if take.latency = 0 then r.conclude number time merge take.result
  else r.schedule (time + take.latency) (.reply number merge take.result)

/-- Lets an event happen. -/
def handle (r : MergeRehearsal α β) (time : Nat) : Event α β → MergeRehearsal α β
  | .start number (.act run) =>
      let (answer, session) := run r.desk.session
      { r with desk := { r.desk with session } }.note number time (.acted answer)
  | .start number (.merge track clips) =>
      let merge := r.desk.merges.length
      let r := { r with desk := r.desk.launch track (clips r.desk.session.timeline) }
      match r.desk.merges[merge]?.bind MergeStage.request? with
      | some timeline => r.request number time merge timeline
      | none => r.noteMerge number time merge
  | .reply number merge result => r.conclude number time merge result

/-- Lets the given number of events happen. -/
def play : Nat → MergeRehearsal α β → MergeRehearsal α β
  | 0, r => r
  | steps + 1, r =>
      match r.agenda with
      | [] => r
      | (time, event) :: rest => play steps ({ r with agenda := rest }.handle time event)

/-- Rehearses tasks at their times; a task makes two events at most. -/
def run (session : Session α) (script : List (Take (Asset α))) (tasks : List (Nat × Task α β)) :
    MergeRehearsal α β :=
  let starts := tasks.zipIdx.map fun ((time, task), number) => (time, Event.start number task)
  let agenda := starts.mergeSort fun a b => decide (a.1 ≤ b.1)
  play (2 * tasks.length) ⟨.ofSession session, script, agenda, [], []⟩

end MergeRehearsal

/-! ## Previews -/

/-- An answer that is on its way. -/
structure Coming where
  due : Nat
  generation : Nat
  result : Except Failure RenderOutput

/-- A rehearsal of previews. -/
structure PreviewRehearsal (α : Type) where
  now : Nat
  loop : PreviewLoop α
  script : List (Take RenderOutput)
  /-- The answers that are on their way, the soonest first. -/
  coming : List Coming
  sent : List (Sent α)

namespace PreviewRehearsal

variable {α : Type}

/-- The rehearsal before anything has happened. -/
def start (delay : Nat) (script : List (Take RenderOutput)) : PreviewRehearsal α :=
  ⟨0, .start delay, script, [], []⟩

/-- The answers with one more, after those that come no later. -/
def arrange (new : Coming) : List Coming → List Coming
  | [] => [new]
  | next :: rest => if next.due ≤ new.due then next :: arrange new rest else new :: next :: rest

/-- The timer is looked at. -/
def tick (r : PreviewRehearsal α) : PreviewRehearsal α :=
  match r.loop.tick r.now with
  | (none, loop) => { r with loop }
  | (some (generation, timeline), loop) =>
      let take := r.script.head?.getD offScript
      { r with
        loop
        script := r.script.tail
        coming := arrange ⟨r.now + take.latency, generation, take.result⟩ r.coming
        sent := r.sent ++ [⟨r.now, timeline⟩] }

/-- What comes next: the timer's firing or an answer, whichever is sooner. -/
inductive Next
  | fire (due : Nat)
  | answer (first : Coming) (rest : List Coming)

/-- When it comes. -/
def Next.due : Next → Nat
  | fire due => due
  | answer first _ => first.due

/-- What comes next, if anything is to come. -/
def next? (r : PreviewRehearsal α) : Option Next :=
  match r.loop.timer.deadline, r.coming with
  | none, [] => none
  | some due, [] => some (.fire due)
  | none, first :: rest => some (.answer first rest)
  | some due, first :: rest =>
      some (if due < first.due then .fire due else .answer first rest)

/-- Lets the given number of things happen that come by the end, or at any time if there is none. -/
def advance (stop : Option Nat) : Nat → PreviewRehearsal α → PreviewRehearsal α
  | 0, r => r
  | steps + 1, r =>
      match r.next? with
      | none => r
      | some next =>
          if stop.any (· < next.due) then r
          else
            let r := { r with now := max r.now next.due }
            match next with
            | .fire _ => advance stop steps r.tick
            | .answer first rest =>
                advance stop steps
                  { r with coming := rest, loop := r.loop.respond first.generation first.result }

/-- Lets everything happen that comes by the end; a firing of the timer brings one more answer. -/
def advanceTo (r : PreviewRehearsal α) (stop : Option Nat) : PreviewRehearsal α :=
  advance stop (r.coming.length + 2) r

/-- Sends a timeline to the loop. -/
def receive (r : PreviewRehearsal α) (timeline : Timeline α) : PreviewRehearsal α :=
  { r with loop := r.loop.receive r.now timeline }

/-- Lets everything happen that can happen now. -/
def settle (r : PreviewRehearsal α) : PreviewRehearsal α :=
  r.advanceTo (some r.now)

/-- Lets time pass. -/
def sleep (r : PreviewRehearsal α) (duration : Nat) : PreviewRehearsal α :=
  let stop := r.now + duration
  { r.advanceTo (some stop) with now := stop }

/-- Stops the loop, and waits until it has nothing left to do. -/
def shutDown (r : PreviewRehearsal α) : PreviewRehearsal α :=
  { r with loop := r.loop.stop r.now [] }.advanceTo none

end PreviewRehearsal

end Montage
