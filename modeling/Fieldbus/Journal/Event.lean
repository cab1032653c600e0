import Fieldbus.Frame.LayoutText
import Fieldbus.Peer.Request
import Fieldbus.Timing
/-!
Events: what happens in a gateway, one entry per thing.

The journal of a gateway lists its events. Some of them are written to the log, each as a level and
a line; `Event.line?` gives that line. The others are there for the record: ticks and exchanges,
messages queued and taken, requests to the adapter, indications to the application. So what a
gateway did is read off its journal, however its calls were nested.

An entry has all that the thing is about: the message, the request, the bytes of a write. So laws
about the past need not keep records of their own where the journal has them already. What is noted
is part of the state, and a law that says a call leaves the gateway alone says so of its journal
too.
-/

namespace Fieldbus

/-- The version of this library, as peers are told it. -/
def version : String := "0.1.0"

/-- How serious a log line is. -/
inductive Level where
  | error
  | warn
  | info
  | debug
  | trace
deriving DecidableEq, Repr

/-- A level in words. -/
def Level.text : Level → String
  | .error => "ERROR"
  | .warn => "WARN"
  | .info => "INFO"
  | .debug => "DEBUG"
  | .trace => "TRACE"

/-- Something that happened. -/
inductive Event where
  /-- A signal of a type that is not known was placed in a layout. -/
  | unknownType (slot signal : String) (type : DataType)
  /-- The layouts of a device were made. -/
  | layoutMade (d : Device)
  /-- A gateway was made for a device. -/
  | started (d : Device)
  /-- A device replaced the one before. -/
  | reconfigured (d : Device)
  /-- A device was refused. -/
  | rejected (d : Device) (e : Error)
  /-- A parameter was written. -/
  | parameterWritten (slot param : UInt16) (data : Bytes)
  /-- A pending parameter write was handed to the host. -/
  | writeTaken (slot param : UInt16) (data : Bytes)
  /-- A message was queued. -/
  | queued (m : Message)
  /-- A message found the queue full; holds the number of messages dropped so far. -/
  | dropped (m : Message) (total : UInt32)
  /-- A message was taken from the queue. -/
  | taken (m : Message)
  /-- The status changed; holds the new one. -/
  | statusChanged (s : Status)
  /-- A period of the clock passed. -/
  | ticked
  /-- The watchdog was set to count from now. -/
  | watchdogStarted
  /-- A valid exchange with the host took place. -/
  | heard
  /-- The host was heard again after the watchdog had expired. -/
  | hostRecovered
  /-- Serving the transport failed. -/
  | serviceFailed (f : Fault)
  /-- The transport works again after it had failed. -/
  | transportRecovered
  /-- The watchdog expired after the given number of ticks. -/
  | hostSilent (ticks : UInt32)
  /-- The contact with the host was lost. -/
  | hostLost
  /-- A fault was reported. -/
  | faultReported (f : Fault)
  /-- A frame with a bad checksum was counted; holds their number so far. -/
  | crcCounted (total : UInt32)
  /-- The transport was named. -/
  | transportSet (t : Transport)
  /-- The cyclic indications were selected. -/
  | maskSet (m : CycleMask)
  /-- An alarm was raised, or cleared, on a slot. -/
  | alarmChanged (slot : UInt16) (a : Alarm) (active : Bool)
  /-- Something was asked of the adapter. -/
  | asked (r : Request)
  /-- Something was told to the application. -/
  | indicated (i : Indication)
  /-- The gateway began to be driven. -/
  | driven (tick poll : Duration)
  /-- The drive ended because the transport failed. -/
  | driveEnded (f : Fault)

namespace Event

/-- What the log says of an event, if anything. -/
def line? : Event → Option (Level × String)
  | .unknownType slot signal type =>
    some (.warn, s!"slot {quoted slot} signal {quoted signal} has {type.family}, counted as 1 bit")
  | .layoutMade d =>
    some (.debug, s!"frame layout of {quoted d.name}\n" ++ (DeviceLayout.ofDevice d).text d)
  | .started d =>
    let l := DeviceLayout.ofDevice d
    some (.info, s!"core {version} for {quoted d.name} on {d.bus.text}: {d.slots.size} slots, " ++
      s!"{d.paramCount} parameters, tx {l.tx.size} bytes, rx {l.rx.size} bytes")
  | .reconfigured d =>
    let l := DeviceLayout.ofDevice d
    some (.info,
      s!"reconfigured for {quoted d.name}, tx {l.tx.size} bytes, rx {l.rx.size} bytes")
  | .rejected d e => some (.warn, s!"rejected configuration {quoted d.name}: {e.record.line}")
  | .parameterWritten slot param data =>
    some (.debug, s!"parameter {slot.toNat}.{param.toNat} written {hexList data}")
  | .dropped m total =>
    some (.warn, s!"message channel full, {m.kind} dropped ({total.toNat} so far)")
  | .statusChanged s => some (.info, s!"core status {hexMarked s.bits.toNat} {s.record.line}")
  | .hostRecovered => some (.info, "host communication recovered")
  | .transportRecovered => some (.info, "transport recovered")
  | .hostSilent ticks => some (.warn, s!"no valid exchange with host for {ticks.toNat} ticks")
  | .hostLost => some (.warn, "host disconnected")
  | .faultReported f => some (.warn, f.text)
  | .crcCounted total => some (.debug, s!"crc error, {total.toNat} so far")
  | .transportSet t => some (.info, s!"transport {t.text}")
  | .maskSet m => some (.debug, s!"event mask {m.record.line}")
  | .alarmChanged slot a true => some (.info, s!"alarm {a.text} raised on slot {slot.toNat}")
  | .alarmChanged slot a false => some (.info, s!"alarm {a.text} cleared on slot {slot.toNat}")
  | .driven tick poll => some (.info, s!"core running, tick {tick.text}, poll {poll.text}")
  | .driveEnded f => some (.warn, s!"core stopped: {f.text}")
  | .writeTaken _ _ _ | .queued _ | .taken _ | .ticked | .watchdogStarted | .heard
  | .serviceFailed _ | .asked _ | .indicated _ => none

end Event

/-! ## Making layouts

Types that are not known are noted once for each signal when a layout is made, for both directions
and in the order of declaration. -/

/-- The events of placing the signals of one direction: one for each whose type is not known. -/
def Device.placementEvents (d : Device) (dir : Direction) : List Event :=
  d.slots.toList.flatMap fun slot =>
    (slot.signals dir).toList.filterMap fun s =>
      if s.type.isKnown then none else some (.unknownType slot.name s.name s.type)

/-- The events of making the layouts of a device, in order. -/
def Device.layoutEvents (d : Device) : List Event :=
  d.placementEvents .tx ++ d.placementEvents .rx ++ [.layoutMade d]

end Fieldbus
