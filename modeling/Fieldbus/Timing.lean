import Fieldbus.Bits.Basic
import Fieldbus.Link.Status
/-!
Durations and settings: how often the gateway ticks, how long it waits, what it indicates.

Durations are exact, in nanoseconds. Two things are made of them: ticks, which is how a gateway
counts time, and milliseconds, which is how a drive does. Both round up, as a wait must not be cut
short.
-/

namespace Fieldbus

/-! ## Durations

A duration is written in the largest of its units that is not below one, with as many decimals as
there are, and with no trailing zeros. -/

/-- A length of time in nanoseconds. -/
structure Duration where
  nanos : Nat
deriving DecidableEq, Repr, Inhabited

namespace Duration

/-- A duration of whole milliseconds. -/
def ofMillis (n : Nat) : Duration := ⟨n * 1000000⟩

/-- A duration of whole seconds and nanoseconds. -/
def ofParts (seconds nanos : Nat) : Duration := ⟨seconds * 1000000000 + nanos⟩

/-- The milliseconds that cover a duration. -/
def millis (d : Duration) : Nat := (d.nanos + 999999) / 1000000

/-- The digits behind the point of `part` units of which `10 ^ places` make a whole, without the
zeros at their end; nothing at all if there is no such digit. -/
def fraction (part places : Nat) : String :=
  let digits := (toString part).toList
  let padded := List.replicate (places - digits.length) '0' ++ digits
  let kept := (padded.reverse.dropWhile (· == '0')).reverse
  if kept.isEmpty then "" else "." ++ String.ofList kept

/-- A count of units of `10 ^ places` nanoseconds, with all its decimals. -/
def inUnits (d : Duration) (places : Nat) (unit : String) : String :=
  let whole := Nat.pow 10 places
  toString (d.nanos / whole) ++ fraction (d.nanos % whole) places ++ unit

/-- A duration in the largest unit that it reaches. -/
def text (d : Duration) : String :=
  if 1000000000 ≤ d.nanos then d.inUnits 9 "s"
  else if 1000000 ≤ d.nanos then d.inUnits 6 "ms"
  else if 1000 ≤ d.nanos then d.inUnits 3 "µs"
  else d.inUnits 0 "ns"

end Duration

/-! ## Settings

A gateway keeps what it is given here, whatever becomes of its device. Times are counted in ticks
when they are needed: at least one, so that nothing is due all the time, and at most as many as a
counter can hold. -/

/-- Room in the message queue of a gateway. -/
def queueCapacity : Nat := 10

/-- What a gateway is given when it is made, and keeps. -/
structure Settings where
  /-- Period of the ticks. -/
  tick : Duration := .ofMillis 10
  /-- Longest silence of the host while the watchdog is on. -/
  watchdogTimeout : Duration := .ofMillis 100
  /-- Period of the poll messages. -/
  pollInterval : Duration := .ofMillis 10
  /-- Cyclic indications selected at the start. -/
  mask : CycleMask := .freeRunning
  /-- Whether the watchdog is on at the start. -/
  watchdog : Bool := false
  /-- Order of the bits in process data. -/
  order : ByteOrder := .little
deriving DecidableEq, Repr, Inhabited

namespace Settings

/-- The largest number of ticks that can be counted. -/
def maxTicks : Nat := UInt32.size - 1

/-- The number of ticks that cover a duration: at least one, at most what can be counted. A tick
of no length counts as one nanosecond. -/
def ticks (s : Settings) (d : Duration) : UInt32 :=
  let tick := max s.tick.nanos 1
  UInt32.ofNat (max (min ((d.nanos + tick - 1) / tick) maxTicks) 1)

theorem one_le_ticks (s : Settings) (d : Duration) : 1 ≤ (s.ticks d).toNat := by
  simp only [ticks, UInt32.toNat_ofNat', maxTicks, UInt32.size]
  generalize (d.nanos + max s.tick.nanos 1 - 1) / max s.tick.nanos 1 = n
  omega

end Settings

example : (Duration.ofMillis 1500).text = "1.5s" := by decide +kernel
example : (Duration.mk 10000500).text = "10.0005ms" := by decide +kernel
example : (Settings.ticks {} (.ofMillis 95)) = 10 := by decide

end Fieldbus
