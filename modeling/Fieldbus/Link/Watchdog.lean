/-!
The watchdog: has too long passed since the last sign of life?

Time is a tick counter of 32 bits that wraps around, so elapsed time is a difference modulo `2^32`.

A difference modulo `2^32` is the elapsed time only if that is not too long. The watchdog looks at
the clock in every tick until it has expired, and not after that, so it never has to tell apart
times that differ by a whole turn of the counter.
-/

namespace Fieldbus

/-- Whether at least `timeout` ticks have passed from `previous` to `now`, on a counter that
wraps. -/
def hasElapsed (now previous timeout : UInt32) : Bool := timeout ≤ now - previous

/-- Supervision of the time since the last valid exchange. -/
structure Watchdog where
  /-- Ticks allowed between two valid exchanges. -/
  timeout : UInt32 := 0
  /-- Tick of the last valid exchange. -/
  last : UInt32 := 0
  /-- Whether the timeout has passed and was noticed. -/
  expired : Bool := false
deriving DecidableEq, Repr, Inhabited

namespace Watchdog

/-- A watchdog that counts from `now`. -/
def started (timeout now : UInt32) : Watchdog := ⟨timeout, now, false⟩

/-- Notes a valid exchange at `now`; tells whether this ends an expiry. -/
def feed (w : Watchdog) (now : UInt32) : Bool × Watchdog :=
  (w.expired, { w with last := now, expired := false })

/-- Looks at the clock at `now`; tells whether the watchdog expires just now. -/
def check (w : Watchdog) (now : UInt32) : Bool × Watchdog :=
  if w.expired || !hasElapsed now w.last w.timeout then (false, w)
  else (true, { w with expired := true })

/-- An expired watchdog stays as it is until it is fed. -/
theorem check_of_expired {w : Watchdog} (h : w.expired = true) (now : UInt32) :
    w.check now = (false, w) := by simp [check, h]

end Watchdog

example : hasElapsed 3 4294967295 4 = true ∧ hasElapsed 2 4294967295 4 = false := by decide

end Fieldbus
