/-!
# Quiet timers

A quiet timer fires once nothing has happened for a while. Each firing has a generation, which
tells the answers to its requests from those to later ones.
-/

namespace Montage

/-- A timer that every touch starts anew. Times are in milliseconds. -/
structure QuietTimer where
  delay : Nat
  /-- When the timer will fire, if it is armed. -/
  deadline : Option Nat
  /-- The generation of the last firing. The count is taken never to come back to zero. -/
  fired : Nat
deriving DecidableEq, Repr

namespace QuietTimer

/-- A timer that is not armed. -/
def start (delay : Nat) : QuietTimer :=
  ⟨delay, none, 0⟩

/-- Something happened. -/
def touch (timer : QuietTimer) (now : Nat) : QuietTimer :=
  { timer with deadline := some (now + timer.delay) }

/-- Whether the timer is armed. -/
def isArmed (timer : QuietTimer) : Bool :=
  timer.deadline.isSome

/-- Fires if it has been quiet for long enough; the answer is the generation of the firing. -/
def poll (timer : QuietTimer) (now : Nat) : Option Nat × QuietTimer :=
  match timer.deadline with
  | some deadline =>
      if deadline ≤ now then
        (some (timer.fired + 1), { timer with deadline := none, fired := timer.fired + 1 })
      else (none, timer)
  | none => (none, timer)

/-- Whether a generation is that of the last firing. -/
def isLatest (timer : QuietTimer) (generation : Nat) : Bool :=
  generation = timer.fired

end QuietTimer

end Montage
