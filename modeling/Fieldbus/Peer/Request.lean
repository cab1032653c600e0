import Fieldbus.Alarm
import Fieldbus.Message.Basic
/-!
What the gateway asks of its adapter, and what it tells the host application.

The adapter stands for the fieldbus engine and the transport: it takes and gives frames, and is
told about faults and alarms. Every request has a reply of its own type; `Request.idle` is the
reply of an adapter that has nothing of its own to say. The application is told one indication per
message it is due.
-/

namespace Fieldbus

/-! ## Transports

Only their names matter here. -/

/-- The way host and gateway are connected. -/
inductive Transport where
  /-- Both run in one process. -/
  | mono
  | usb
  | spi
  | uart
  | tcp
deriving DecidableEq, Repr, Inhabited

/-- A transport in words. -/
def Transport.text : Transport → String
  | .mono => "mono"
  | .usb => "usb"
  | .spi => "spi"
  | .uart => "uart"
  | .tcp => "tcp"

/-! ## Requests

To ask for service is the one request that may be answered with a fault, and the one for outputs is
answered with a frame of the length asked for, by its type. -/

/-- A request to the adapter. -/
inductive Request where
  /-- Take a freshly packed input frame. -/
  | txFrame (frame : Bytes)
  /-- Give the last output frame, of exactly the given size. -/
  | rxFrame (size : Nat)
  /-- Take note of a fault. -/
  | fault (f : Fault)
  /-- Process the activity of the transport. -/
  | service
  /-- Report an alarm that was raised, or cleared, on a slot. -/
  | alarm (slot : UInt16) (a : Alarm) (active : Bool)
deriving DecidableEq, Repr

namespace Request

/-- What is answered to each request. -/
abbrev Reply : Request → Type
  | .txFrame _ => Unit
  | .rxFrame size => Vector UInt8 size
  | .fault _ => Unit
  | .service => Except Fault Unit
  | .alarm _ _ _ => Unit

/-- The reply of an adapter that does nothing: frames are zero, and serving never fails. -/
def idle : (r : Request) → r.Reply
  | .txFrame _ => ()
  | .rxFrame size => Vector.replicate size 0
  | .fault _ => ()
  | .service => .ok ()
  | .alarm _ _ _ => ()

end Request

/-! ## Indications

What the application is told is read off the message alone. -/

/-- Something the host application is told. -/
inductive Indication where
  /-- Outputs from the controller are available. -/
  | avail
  /-- Inputs for the controller should be prepared. -/
  | sync
  /-- Some parameters were written. -/
  | paramWrite
  /-- It is time to look around. -/
  | poll
  /-- The status changed. -/
  | status (s : Status)
  /-- A fault occurred. -/
  | fault (f : Fault)
deriving DecidableEq, Repr

/-- The indication that a message calls for. -/
def Message.indication : Message → Indication
  | .avail => .avail
  | .sync => .sync
  | .paramWrite _ _ => .paramWrite
  | .poll => .poll
  | .status s => .status s
  | .error fault => .fault fault

end Fieldbus
