import Fieldbus.Gateway.Script
/-!
Driving a gateway: the ticks, the worker and a timeline, on a clock of whole milliseconds.

The gateway ticks at the start and then at every multiple of its tick period. The worker sleeps by
the bell, at most for the poll interval, takes its turn, and sleeps again. Both are seen to in
rounds. A round begins when one of them is due or the bell has woken the worker, and sees to both:
the gateway ticks if it is time to, and the worker takes turns until it sleeps again. Which of them
comes first changes from round to round, so neither is preferred when both are due at once.

Besides, the scripts of a timeline run at their times, between rounds. The clock stands still while
anything can run and then jumps to the next thing that is due; so whatever a ring of the bell calls
for happens in the same instant. A drive ends when its time is up, or when the worker finds that
the transport has failed.

The worker ends a drive in two moves. The one is the turn whose answer says that the transport has
failed; in the other it looks for the last fault and ends the drive with that. Each of the two is an
operation of its own, so whoever shares the gateway with the drive may come in between them.

The clock counts whole milliseconds, and so a drive stands for settings whose tick period and poll
interval are whole milliseconds too, and not nothing. Of other periods each is rounded up, where a
timer would carry the rest on from one to the next; and a tick period of no length, which no timer
takes, would leave the clock standing.

`Drive.step` is one move of this; `Drive.run` makes as many moves as it is allowed.
-/

namespace Fieldbus

/-- A script that runs at a time of its own. -/
structure TimelineEntry (σ : Type) where
  /-- Milliseconds from the start. -/
  time : Nat
  script : Script σ Unit

/-- What the worker is doing. -/
inductive WorkerStage where
  /-- It is about to lie down. -/
  | ready
  /-- It sleeps, at the latest until the given time. -/
  | asleep (deadline : Nat)
  /-- It has found the transport failed, and is about to end the drive. -/
  | closing
deriving DecidableEq, Repr

/-- When the worker takes its next turn unless the bell wakes it; at once if it does not sleep. -/
def WorkerStage.due : WorkerStage → Nat
  | .ready | .closing => 0
  | .asleep deadline => deadline

/-- What a round sees to. -/
inductive Duty where
  | tick
  | work
deriving DecidableEq, Repr

/-- A gateway being driven. -/
structure Drive (σ : Type) where
  world : World σ
  /-- Milliseconds since the start. -/
  now : Nat := 0
  /-- When the gateway ticks next. -/
  nextTick : Nat := 0
  worker : WorkerStage := .ready
  /-- What the present round has still to see to; nothing between rounds. -/
  agenda : List Duty := []
  /-- Whether the next round sees to the tick first. -/
  tickFirst : Bool := true
  /-- Whether the tick of the present round has woken the worker. -/
  again : Bool := false
  /-- What is still to run. -/
  timeline : List (TimelineEntry σ) := []

/-- How a drive ends. -/
inductive Ending where
  /-- Its time was up. -/
  | timeUp
  /-- The worker stopped it. -/
  | stopped (e : Error)
  /-- It was still going after all moves it was allowed. -/
  | exhausted
deriving DecidableEq, Repr

/-- Something that is due at some time. -/
inductive Due (σ : Type) where
  /-- It is time to tick, or the worker has slept long enough. -/
  | round
  | entry (script : Script σ Unit) (rest : List (TimelineEntry σ))
  /-- The time of the drive is up. -/
  | stop

/-- The surroundings of a drive: what adapter and application do at each time, and how deeply
their calls may nest. -/
structure DriveSetting (σ : Type) where
  environment : Nat → Environment σ
  depth : Nat
  /-- When the drive ends, in milliseconds. -/
  stop : Nat

namespace Drive
variable {σ : Type}

/-- The earlier of two things that are due, the first of them if neither is. -/
def earlier (a b : Nat × Due σ) : Nat × Due σ := if a.1 ≤ b.1 then a else b

/-- What is due next between rounds if the bell is silent, and when. -/
def next (d : Drive σ) (stop : Nat) : Nat × Due σ :=
  let entry : Nat × Due σ := match d.timeline with
    | [] => (stop, .stop)
    | e :: rest => earlier (e.time, .entry e.script rest) (stop, .stop)
  earlier (min d.nextTick d.worker.due, .round) entry

/-- Whether the bell has woken the worker. -/
def isWoken (d : Drive σ) : Bool := d.world.gateway.bell.sleeper = .woken

/-- A round begins. -/
def beginRound (d : Drive σ) : Drive σ :=
  { d with
    agenda := if d.tickFirst then [.tick, .work] else [.work, .tick]
    tickFirst := !d.tickFirst
    again := false }

/-- Performs an operation at the present time. -/
def perform (d : Drive σ) (s : DriveSetting σ) (op : Op) : op.Result × Drive σ :=
  let (r, world) := (s.environment d.now).perform s.depth op d.world
  (r, { d with world })

/-- The gateway ticks, and will again after a period. -/
def tick (d : Drive σ) (s : DriveSetting σ) : Drive σ :=
  let next := { d with nextTick := d.now + d.world.gateway.settings.tick.millis }
  let ticked := (next.perform s .tick).2
  { ticked with again := !d.isWoken && ticked.isWoken }

/-- The worker takes its turn, and is about to lie down after it, or to end the drive if it finds
the transport failed. -/
def turn (d : Drive σ) (s : DriveSetting σ) : Drive σ :=
  let (works, d) := ({ d with worker := .ready } : Drive σ).perform s .work
  if works then d else { d with worker := .closing }

/-- The worker ends the drive with the last fault as it finds it now. -/
def close (d : Drive σ) : Option Ending × Drive σ :=
  let f := d.world.gateway.lastFault.getD .transport
  (some (.stopped (.communication f)), { d with world := d.world.change (·.note (.driveEnded f)) })

/-- The worker goes on: it lies down, or takes a turn if it finds the bell rung or has slept long
enough. It has been seen to when it sleeps on. -/
def work (d : Drive σ) (s : DriveSetting σ) (rest : List Duty) : Option Ending × Drive σ :=
  match d.worker with
  | .ready =>
    match d.world.answer (·.lieDown) with
    | (true, world) => (none, { d with world }.turn s)
    | (false, world) =>
      let deadline := d.now + world.gateway.settings.pollInterval.millis
      (none, { d with world, worker := .asleep deadline })
  | .asleep deadline =>
    if d.isWoken || deadline ≤ d.now then
      (none, { d with world := d.world.change (·.getUp) }.turn s)
    else (none, { d with agenda := rest })
  | .closing => d.close

/-- One move. A tick that wakes the worker calls for another round, though the worker may answer
the bell in this one. -/
def step (d : Drive σ) (s : DriveSetting σ) : Option Ending × Drive σ :=
  match d.agenda with
  | .tick :: rest =>
    let d := { d with agenda := rest }
    (none, if d.nextTick ≤ d.now then d.tick s else d)
  | .work :: rest => d.work s rest
  | [] =>
    if d.again || d.isWoken then (none, d.beginRound)
    else
      match d.next s.stop with
      | (time, .round) => (none, { d with now := max d.now time }.beginRound)
      | (time, .entry script timeline) =>
        let now := max d.now time
        let run := (s.environment now).perform s.depth
        (none, { d with now, timeline, world := (script.run run d.world).2 })
      | (time, .stop) =>
        (some .timeUp, { d with world := d.world.change (·.getUp), now := max d.now time })

/-- Makes moves until the drive ends, at most as many as given. -/
def run (s : DriveSetting σ) : (moves : Nat) → Drive σ → Ending × Drive σ
  | 0, d => (.exhausted, d)
  | moves + 1, d =>
    match d.step s with
    | (some ending, d) => (ending, d)
    | (none, d) => run s moves d

/-- The start of a drive: its first round, which sees to the tick first. -/
def start (timeline : List (TimelineEntry σ)) (w : World σ) : Drive σ :=
  let settings := w.gateway.settings
  let world := w.change (·.note (.driven settings.tick settings.pollInterval))
  ({ world, timeline } : Drive σ).beginRound

end Drive
end Fieldbus
