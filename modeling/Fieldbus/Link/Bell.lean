/-!
The bell: how work that has come up wakes the worker.

There is at most one sleeper, the worker between two turns. A ring wakes it if it is asleep;
otherwise one ring is kept until somebody looks, and further rings add nothing. So a ring is never
lost: either it has woken the sleeper, or it is pending when the sleeper next lies down.

Looking at a pending ring uses it up, whoever looks. So the bell is meant for one who lies down; a
second one who looks takes rings away from the first.
-/

namespace Fieldbus

/-- Where the one who may sleep by the bell is. -/
inductive Sleeper where
  | absent
  | asleep
  | woken
deriving DecidableEq, Repr, Inhabited

/-- A bell, with a ring that nobody has heard yet and the one who may sleep by it. -/
structure Bell where
  pending : Bool := false
  sleeper : Sleeper := .absent
deriving DecidableEq, Repr, Inhabited

namespace Bell

/-- Rings: wakes the sleeper, or leaves the ring pending. -/
def ring (b : Bell) : Bell :=
  match b.sleeper with
  | .asleep => { b with sleeper := .woken }
  | .absent | .woken => { b with pending := true }

/-- Looks for a pending ring without lying down; uses it up. -/
def look (b : Bell) : Bool × Bell := (b.pending, { b with pending := false })

/-- Lies down, unless a ring is pending: then that ring is used up and the answer is true. -/
def sleep (b : Bell) : Bool × Bell :=
  if b.pending then (true, { b with pending := false })
  else (false, { b with sleeper := .asleep })

/-- Gets up, woken or not. -/
def rise (b : Bell) : Bell := { b with sleeper := .absent }

end Bell
end Fieldbus
