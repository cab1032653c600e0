import Fieldbus.Bits.Basic
import Fieldbus.Text.Quoted
import Fieldbus.Text.Record
/-!
What can go wrong, seen by a caller (`Error`) and reported on the side (`Fault`).

An `Error` is the answer to a call that was refused. A `Fault` comes unasked: it is queued for the
host and told to the adapter.

Errors have a kind, by which they are told apart in return codes and records, and a text that says
what was wrong. The kinds are few and the causes many, so causes are given by name below and each is
made where it is found. Refused accesses to buffers have numbers to report, and keep them in their
text when they become errors.
-/

namespace Fieldbus

/-- A fault the gateway reports to the host and to the adapter. -/
inductive Fault where
  /-- The host has been silent for too long. -/
  | coreCommunication
  /-- The transport failed or lost its link. -/
  | transport
  /-- A device configuration could not be applied. -/
  | configuration
  /-- A frame with a bad checksum was received. -/
  | crc
  /-- The gateway found its own state inconsistent. -/
  | internal
deriving DecidableEq, Repr

/-- A fault in words. -/
def Fault.text : Fault → String
  | .coreCommunication => "core communication error"
  | .transport => "transport error"
  | .configuration => "configuration error"
  | .crc => "crc error"
  | .internal => "internal error"

/-- Why a call was refused, by kind, each with what went wrong in words. -/
inductive Error where
  /-- A slot, signal, parameter or element index is out of the device's range. -/
  | index (text : String)
  /-- A buffer or a list of values has the wrong size. -/
  | size (text : String)
  /-- The device model is inconsistent, or does not match the layout in use. -/
  | model (text : String)
  /-- A resource could not be obtained. -/
  | resource (text : String)
  /-- The peer cannot be reached. -/
  | communication (fault : Fault)
  /-- The change asked for conflicts with the current state. -/
  | conflict (text : String)
deriving DecidableEq, Repr

namespace Error

/-- The negative return code of each kind of error. -/
def code : Error → Int
  | .index _ => -2
  | .size _ => -3
  | .model _ => -4
  | .resource _ => -5
  | .communication _ => -6
  | .conflict _ => -7

/-- The name of each kind of error. -/
def source : Error → String
  | .index _ => "Index"
  | .size _ => "Size"
  | .model _ => "Model"
  | .resource _ => "Resource"
  | .communication _ => "Communication"
  | .conflict _ => "Conflict"

/-- What went wrong, in words. -/
def message : Error → String
  | .index t => t
  | .size t => t
  | .model t => t
  | .resource t => t
  | .communication fault => fault.text
  | .conflict t => t

/-- The error as a record of its kind, message and code. -/
def record (e : Error) : RecordText where
  name := "CoreError"
  fields := [("source", quoted e.source), ("message", quoted e.message), ("code", toString e.code)]

/-- A refused buffer access is an error about sizes. -/
def ofAccess (e : AccessError) : Error := .size e.text

/-! ## The causes met by callers

Grouped by kind: indices that lead nowhere, sizes that do not agree, devices and layouts that do not
go together, and calls that come at the wrong time. -/

/-- The device has no such slot. -/
def noSlot : Error := .index "slot index out of range"
/-- The slot has no such signal in that direction. -/
def noSignal : Error := .index "signal index out of range"
/-- The slot has no such parameter. -/
def noParameter : Error := .index "parameter index out of range"
/-- The signal has no such element. -/
def noElement : Error := .index "element index out of range"
/-- No parameter of the slot has the number asked for. -/
def noParameterNumber : Error := .index "no parameter with this number in slot"

/-- A frame is not as long as its layout says. -/
def frameSize : Error := .size "frame size does not match layout"
/-- A signal was given too few or too many elements. -/
def elementCount : Error := .size "wrong number of elements for signal"
/-- A parameter was accessed with a length that is not its own. -/
def parameterLength : Error := .size "data length does not match parameter length"
/-- A parameter write came with less data than it announced. -/
def parameterData : Error := .size "not enough data for parameter"
/-- A parameter does not fit in the buffer it is to be copied to. -/
def parameterBuffer : Error := .size "output buffer too small for parameter"

/-- More slots than can be indexed. -/
def tooManySlots : Error := .model "too many slots"
/-- More signals or parameters in a slot than can be indexed. -/
def tooManyItems : Error := .model "too many items in slot"
/-- An array signal of length zero. -/
def emptyArray : Error := .model "array signal with no element"
/-- A default value longer or shorter than its parameter. -/
def defaultLength : Error := .model "parameter default does not match its length"
/-- The layout is not the layout of any frame. -/
def noLayout : Error := .model "frame layout not computed"
/-- The layout lacks a signal that the device has. -/
def foreignLayout : Error := .model "layout does not match device"
/-- The parameter memory has no place for the parameter. -/
def missingParameter : Error := .model "parameter is missing from parameter frame"
/-- The parameter memory was made for a device of another shape. -/
def foreignMemory : Error := .model "parameter frame was not allocated for this device"

/-- The alarm is raised already. -/
def alarmActive : Error := .conflict "alarm already active on slot"
/-- The alarm to clear is not raised. -/
def alarmInactive : Error := .conflict "alarm not active on slot"

end Error
end Fieldbus
