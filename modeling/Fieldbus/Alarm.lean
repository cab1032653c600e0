import Fieldbus.Device.Basic
import Fieldbus.Text.Number
/-!
Alarms raised by the host on the slots of a device.

Each slot has the list of its active alarms, in the order they were raised. An alarm is its level
and code; the same alarm is never active twice on one slot.

Raising an alarm that is active and clearing one that is not are refused, each with an error of its
own, and so is any slot that the device does not have. The lists are as many as the slots, from the
start on and for good.
-/

namespace Fieldbus

/-- How serious an alarm is. -/
inductive AlarmLevel where
  | error
  | warning
  | info
deriving DecidableEq, Repr

/-- A level in words. -/
def AlarmLevel.text : AlarmLevel → String
  | .error => "error"
  | .warning => "warning"
  | .info => "info"

/-- A diagnostic alarm. -/
structure Alarm where
  level : AlarmLevel
  /-- What the fieldbus calls it. -/
  code : UInt16
deriving DecidableEq, Repr

/-- An alarm in words: its level, then its code in hexadecimal. -/
def Alarm.text (a : Alarm) : String := a.level.text ++ " " ++ hexMarked a.code.toNat

/-- The active alarms of every slot of a device. -/
structure AlarmSet where
  slots : Array (List Alarm) := #[]
deriving DecidableEq, Repr, Inhabited

namespace AlarmSet

/-- No alarm on any slot of a device. -/
def none (d : Device) : AlarmSet := ⟨d.slots.map fun _ => []⟩

/-- The active alarms of a slot, in the order they were raised. -/
def get (s : AlarmSet) (slot : UInt16) : Except Error (List Alarm) :=
  match s.slots[slot.toNat]? with
  | .none => .error .noSlot
  | .some active => .ok active

/-- Raises an alarm, unless it is active. -/
def add (s : AlarmSet) (slot : UInt16) (a : Alarm) : Except Error AlarmSet :=
  match s.get slot with
  | .error e => .error e
  | .ok active =>
    if a ∈ active then .error .alarmActive
    else .ok ⟨s.slots.setIfInBounds slot.toNat (active ++ [a])⟩

/-- Clears an alarm, if it is active. -/
def remove (s : AlarmSet) (slot : UInt16) (a : Alarm) : Except Error AlarmSet :=
  match s.get slot with
  | .error e => .error e
  | .ok active =>
    if a ∈ active then .ok ⟨s.slots.setIfInBounds slot.toNat (active.erase a)⟩
    else .error .alarmInactive

/-- The number of active alarms on all slots. -/
def count (s : AlarmSet) : Nat := s.slots.foldl (fun n active => n + active.length) 0

theorem get_eq_ok_iff {s : AlarmSet} {slot : UInt16} {active : List Alarm} :
    s.get slot = .ok active ↔ s.slots[slot.toNat]? = some active := by
  unfold get; split <;> simp_all

end AlarmSet
end Fieldbus
