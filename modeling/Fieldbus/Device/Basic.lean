import Fieldbus.Bits.Basic
import Fieldbus.Error
/-!
Devices: slots with their signals and parameters.

A device is a list of slots. Each slot has input signals, sent to the controller, output signals,
received from it, and parameters. Slots are addressed by their index in the device, signals and
parameters by their index in their slot.

A device is data. Nothing here asks whether it makes sense: a signal may be an array of no elements,
a default may be of another length than its parameter. What is accepted is decided by validation;
until then sizes and look-ups are defined for every device.
-/

namespace Fieldbus

/-! ## Data types

Each type has a width in bits. Types that are not known are carried along with one bit per element,
so that what lies behind them in a frame has a place. -/

/-- The direction of process data, seen from the device. -/
inductive Direction where
  /-- Inputs, sent to the controller. -/
  | tx
  /-- Outputs, received from the controller. -/
  | rx
deriving DecidableEq, Repr

/-- The fieldbus a device is made for. -/
inductive Bus where
  | mock
  | profinet
  | ethercat
  | ethernetIp
deriving DecidableEq, Repr, Inhabited

/-- The usual spelling of a fieldbus's name. -/
def Bus.text : Bus → String
  | .mock => "Mock"
  | .profinet => "Profinet"
  | .ethercat => "EtherCAT"
  | .ethernetIp => "EtherNet/IP"

/-- The type of a signal's elements. -/
inductive DataType where
  | bool
  | int8
  | int16
  | int32
  | int64
  | uint8
  | uint16
  | uint32
  | uint64
  | real32
  | real64
  /-- A raw field of the given number of bits. -/
  | bitfield (bits : UInt8)
  /-- A type this library does not know, with its code. -/
  | unknown (code : UInt16)
deriving DecidableEq, Repr

namespace DataType

/-- A type is known unless its code is not, or it is a raw field of a length no value has. -/
def isKnown : DataType → Bool
  | .bitfield bits => 1 ≤ bits && bits ≤ 64
  | .unknown _ => false
  | _ => true

/-- Bits of one element; a type that is not known counts as one bit, so that layouts progress. -/
def width : DataType → Nat
  | .bool => 1
  | .int8 | .uint8 => 8
  | .int16 | .uint16 => 16
  | .int32 | .uint32 | .real32 => 32
  | .int64 | .uint64 | .real64 => 64
  | .bitfield bits => if 1 ≤ bits && bits ≤ 64 then bits.toNat else 1
  | .unknown _ => 1

/-- The name of the family of types. -/
def family : DataType → String
  | .bool => "BOOL"
  | .int8 => "INT8"
  | .int16 => "INT16"
  | .int32 => "INT32"
  | .int64 => "INT64"
  | .uint8 => "UINT8"
  | .uint16 => "UINT16"
  | .uint32 => "UINT32"
  | .uint64 => "UINT64"
  | .real32 => "REAL32"
  | .real64 => "REAL64"
  | .bitfield bits => if 1 ≤ bits && bits ≤ 64 then "BITFIELD" else "unknown data type"
  | .unknown _ => "unknown data type"

/-- The name of the type; a raw field shows its length. -/
def text : DataType → String
  | .bitfield bits =>
    if 1 ≤ bits && bits ≤ 64 then s!"BITFIELD{bits.toNat}" else (bitfield bits).family
  | t => t.family

/-- Every element has a width that values can have. -/
theorem width_bounds (t : DataType) : 1 ≤ t.width ∧ t.width ≤ 64 := by
  cases t with
  | bitfield bits =>
    simp only [width]
    split
    · next h =>
      simp only [Bool.and_eq_true, decide_eq_true_eq, UInt8.le_iff_toNat_le] at h
      exact ⟨h.1, h.2⟩
    · decide
  | unknown _ => simp [width]
  | _ => decide

end DataType

/-! ## Signals, parameters, slots

A signal takes whole bytes in a frame, also when its elements do not fill them, and what is left
over is padding. -/

/-- A typed value, or an array of them, in the process data. -/
structure Signal where
  name : String
  type : DataType
  /-- Number of elements of an array; none for a single value. -/
  arrayLength : Option UInt16 := none
deriving DecidableEq, Repr

namespace Signal

/-- Bits of one element. -/
def width (s : Signal) : Nat := s.type.width

/-- Number of elements. -/
def elements (s : Signal) : Nat :=
  match s.arrayLength with
  | none => 1
  | some n => n.toNat

/-- Bits of the whole signal. -/
def bitSize (s : Signal) : Nat := s.width * s.elements

/-- Bytes the signal takes in a frame. -/
def byteSize (s : Signal) : Nat := bytesFor s.bitSize

end Signal

/-- The bytes taken by a list of signals, each of them rounded up. -/
def totalByteSize (signals : Array Signal) : Nat :=
  signals.foldl (fun n s => n + s.byteSize) 0

/-- A configuration value with its default. -/
structure Parameter where
  name : String
  /-- Number of the parameter on the fieldbus, unrelated to its position in the slot. -/
  number : UInt32
  /-- Length of the value in bytes. -/
  byteLength : UInt16
  /-- Initial value. -/
  default : Bytes
deriving DecidableEq, Repr

/-- A connector of the device. -/
structure Slot where
  name : String
  /-- Signals sent to the controller. -/
  inputs : Array Signal := #[]
  /-- Signals received from the controller. -/
  outputs : Array Signal := #[]
  params : Array Parameter := #[]
deriving DecidableEq, Repr

/-- The signals of one direction, in declaration order. -/
def Slot.signals (s : Slot) : Direction → Array Signal
  | .tx => s.inputs
  | .rx => s.outputs

/-- A whole device. -/
structure Device where
  name : String
  bus : Bus := .mock
  slots : Array Slot := #[]
deriving DecidableEq, Repr

namespace Device

/-! ## Looking up by index

By words of sixteen bits, as callers give them. Where several things are missing, the outermost is
reported. -/

/-- The slot at an index. -/
def slot? (d : Device) (slot : UInt16) : Option Slot := d.slots[slot.toNat]?

/-- The signal at an index of a slot; a missing slot is told before a missing signal. -/
def signal (d : Device) (dir : Direction) (slot signal : UInt16) : Except Error Signal :=
  match d.slot? slot with
  | none => .error .noSlot
  | some s =>
    match (s.signals dir)[signal.toNat]? with
    | none => .error .noSignal
    | some x => .ok x

/-- The parameter at an index of a slot; a missing slot is told before a missing parameter. -/
def param (d : Device) (slot param : UInt16) : Except Error Parameter :=
  match d.slot? slot with
  | none => .error .noSlot
  | some s =>
    match s.params[param.toNat]? with
    | none => .error .noParameter
    | some p => .ok p

/-- The number of parameters in all slots. -/
def paramCount (d : Device) : Nat := d.slots.foldl (fun n s => n + s.params.size) 0

/-- The position in its slot of the first parameter with the given fieldbus number. -/
def paramIndex (d : Device) (slot : UInt16) (number : UInt32) : Except Error UInt16 :=
  match d.slot? slot with
  | none => .error .noSlot
  | some s =>
    match s.params.findIdx? (·.number == number) with
    | none => .error .noParameterNumber
    | some i => if i < UInt16.size then .ok (UInt16.ofNat i) else .error .tooManyItems

theorem signal_eq_ok_iff {d : Device} {dir : Direction} {i j : UInt16} {x : Signal} :
    d.signal dir i j = .ok x ↔
      ∃ s, d.slots[i.toNat]? = some s ∧ (s.signals dir)[j.toNat]? = some x := by
  unfold signal slot?
  split
  · next h => simp [h]
  · next s h =>
    split
    · next h' => simp [h, h']
    · next y h' => simp [h, h']

end Device
end Fieldbus
