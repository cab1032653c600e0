import Fieldbus.Gateway.State
/-!
What can be asked of a gateway without changing it.

Buffers that are to be filled are given and come back; whatever is wrong with them is an error, and
nothing of the gateway depends on it.
-/

namespace Fieldbus.Gateway

/-- The active alarms of a slot, in the order they were raised. -/
def alarms (g : Gateway) (slot : UInt16) : Except Error (List Alarm) := g.config.alarms.get slot

/-- Copies the value of a parameter to the front of a buffer; gives the number of bytes copied and
the buffer. -/
def readParam (g : Gateway) (slot param : UInt16) (bits : Nat) (buffer : Bytes) :
    Except Error (Nat × Bytes) :=
  g.config.params.read g.config.device slot param bits buffer

/-- The position in its slot of the parameter with a fieldbus number. -/
def paramIndex (g : Gateway) (slot : UInt16) (number : UInt32) : Except Error UInt16 :=
  g.config.device.paramIndex slot number

/-- The bytes of all parameters. -/
def paramBytes (g : Gateway) : Bytes := g.config.params.bytes

/-- All elements of a signal in the process image. -/
def signal (g : Gateway) (dir : Direction) (slot signal : UInt16) :
    Except Error (Array UInt64) :=
  g.config.image.get dir slot signal

/-- One element of a signal in the process image. -/
def value (g : Gateway) (dir : Direction) (slot signal : UInt16) (element : Nat) :
    Except Error Value :=
  g.config.image.value g.config.device dir slot signal element

/-- The status byte of a slot in the process image. -/
def slotStatus (g : Gateway) (dir : Direction) (slot : UInt16) : Except Error UInt8 :=
  g.config.image.status dir slot

/-- Writes the input side of the process image into a frame. -/
def packInputs (g : Gateway) (frame : Bytes) : Written Error :=
  g.config.image.pack (g.view .tx) frame

/-- A frame of zeros of the given direction. -/
def blankFrame (g : Gateway) (dir : Direction) : Bytes := zeroBytes (g.config.layout.frame dir).size

/-- Reads one signal from a frame of the given direction. -/
def decode (g : Gateway) (dir : Direction) (frame : Bytes) (slot signal : UInt16) :
    Except Error (Array UInt64) :=
  (g.view dir).unpack frame slot signal

/-- The state of the gateway in one line. -/
def record (g : Gateway) : RecordText where
  name := "Core"
  fields :=
    [ ("device", quoted g.config.device.name), ("status", g.status.record.line),
      ("tick", toString g.ticks.toNat), ("channel", g.queue.record.line) ]

end Fieldbus.Gateway
