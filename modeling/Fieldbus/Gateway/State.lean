import Fieldbus.Gateway.Configuration
import Fieldbus.Link.Bell
import Fieldbus.Link.State
import Fieldbus.Link.Watchdog
/-!
The state of a gateway, and what changes it in one go.

A gateway stands between a host and a fieldbus. It has a configuration, the link to the host with
the outbox of messages, and the clocks that supervise them. The changes defined here are the whole
changes: each is made at once, without asking or telling anybody. What a call of the gateway does in
between, asking the adapter and telling the application, is put together from them elsewhere.

What is meant by one go is that nobody else has a turn in the midst of it. Another thread that
shares the gateway, or an adapter that calls back, finds it before such a change or after it; and so
a change may leave the gateway in a state which is not meant to last, with a fault taken down of
which the adapter is still to be told. Which of these there can be is what the laws of runs are
about.
-/

namespace Fieldbus

/-- The state of a gateway. -/
structure Gateway where
  settings : Settings
  config : Configuration
  link : Link
  watchdog : Watchdog
  /-- The cyclic indications that are sent. -/
  mask : CycleMask
  /-- Ticks so far, on a counter that wraps around. -/
  ticks : UInt32 := 0
  /-- The tick at which a poll was last due. -/
  lastPoll : UInt32 := 0
  transport : Transport := .mono
  /-- Whether serving the transport failed since the last valid exchange. -/
  transportFailed : Bool := false
  /-- The last fault reported since the last valid exchange. -/
  lastFault : Option Fault := none
  crcErrors : UInt32 := 0
  /-- Whether the transport has work that was not served yet. -/
  interrupt : Bool := false
  /-- Wakes the worker when the transport has work. -/
  bell : Bell := {}

namespace Gateway

/-! ## Parts

Names for what is looked at often. -/

/-- The message queue to the host. -/
def queue (g : Gateway) : Queue := g.link.outbox.queue

/-- Everything that happened so far, latest first. -/
def journal (g : Gateway) : List Event := g.link.outbox.journal

/-- The status flags. -/
def status (g : Gateway) : Status := g.link.status

/-- Whether the transport works, as far as is known. -/
def isOperable (g : Gateway) : Bool := !g.transportFailed

/-- The frames of one direction, as the current device has them. -/
def view (g : Gateway) (dir : Direction) : FrameView :=
  ⟨g.config.device, g.config.layout.frame dir, g.settings.order⟩

/-! ## Journal, messages, flags

All of these go through the link, and leave everything else of a gateway alone. -/

/-- The gateway with another outbox. -/
def withOutbox (g : Gateway) (o : Outbox) : Gateway := { g with link := { g.link with outbox := o } }

/-- Journals an event. -/
def note (g : Gateway) (e : Event) : Gateway := g.withOutbox (g.link.outbox.note e)

/-- Journals events in order. -/
def noteAll (g : Gateway) (events : List Event) : Gateway :=
  g.withOutbox (g.link.outbox.noteAll events)

/-- Sends a message to the host. -/
def post (g : Gateway) (m : Message) : Gateway := g.withOutbox (g.link.outbox.post m)

/-- Takes the oldest message. -/
def receive (g : Gateway) : Option Message × Gateway :=
  let (m, o) := g.link.outbox.receive
  (m, g.withOutbox o)

/-- Sets status flags. -/
def setFlags (g : Gateway) (flags : UInt32) : Gateway := { g with link := (g.link.set flags).2 }

/-- Clears status flags. -/
def clearFlags (g : Gateway) (flags : UInt32) : Gateway :=
  { g with link := (g.link.clear flags).2 }

/-! ## Making a gateway

A gateway is made for a valid device only. It tells the host of its status from the start: that it
is configured, and that the watchdog is on if it is to be. -/

/-- A gateway for a device, configured and not yet in contact with the host. -/
def make (s : Settings) (d : Device) : Except Error Gateway :=
  match Configuration.ofDevice d with
  | .error e => .error e
  | .ok config =>
    let g : Gateway :=
      { settings := s
        config
        link := { outbox := .empty queueCapacity }
        watchdog := .started (s.ticks s.watchdogTimeout) 0
        mask := s.mask }
    let g := (g.noteAll (d.layoutEvents ++ [.started d])).setFlags Status.configured
    .ok (if s.watchdog then g.setFlags Status.watchdog else g)

/-- Puts a configuration in the place of the one before. Pending parameter writes and active alarms
go with the old one; messages and the state of the link stay. -/
def install (g : Gateway) (c : Configuration) : Gateway :=
  let g := g.noteAll (c.device.layoutEvents ++ [.reconfigured c.device])
  { g with config := c }.setFlags Status.configured

/-! ## Contact with the host

Outputs that come in and inputs that are asked for are the two signs of life that a host gives, and
each may be indicated on top. A failure of the transport is taken down here and reported by a change
of its own; who asks in between is told that the transport has failed, and may find an older fault,
or none. -/

/-- A valid exchange with the host: it feeds the watchdog, ends a failure of the transport and all
knowledge of faults, and is the only way into contact. -/
def hear (g : Gateway) : Gateway :=
  let (recovered, watchdog) := g.watchdog.feed g.ticks
  let g := { g with watchdog }.note .heard
  let g := if recovered then g.note .hostRecovered else g
  let g := if g.transportFailed then { g with transportFailed := false }.note .transportRecovered
    else g
  { g with lastFault := none }.setFlags Status.connected

/-- Outputs came in from the controller. -/
def avail (g : Gateway) : Gateway :=
  let g := g.hear
  if g.mask.avail then g.post .avail else g

/-- Inputs are asked for by the controller. -/
def sync (g : Gateway) : Gateway :=
  let g := g.hear
  if g.mask.sync then g.post .sync else g

/-- The contact is lost, if there was any; tells whether it was. -/
def loseContact (g : Gateway) : Bool × Gateway :=
  let (lost, link) := g.link.clear Status.connectionDependent
  let g := { g with link }
  (lost, if lost then g.note .hostLost else g)

/-- Serving the transport failed, and with it goes the contact. The fault is to be reported
next. -/
def failTransport (g : Gateway) (f : Fault) : Gateway :=
  ({ g with transportFailed := true }.note (.serviceFailed f)).clearFlags
    Status.connectionDependent

/-- Takes down a fault and tells the host. The adapter is to be told next. -/
def fault (g : Gateway) (f : Fault) : Gateway :=
  ({ g with lastFault := some f }.post (.error f)).note (.faultReported f)

/-! ## Time

The clock of a gateway is a count of ticks. In a tick polling comes before the watchdog, so the poll
of a tick is queued ahead of the news of an expiry. -/

/-- Lets the watchdog count from now. -/
def restartWatchdog (g : Gateway) : Gateway :=
  { g with watchdog := .started (g.settings.ticks g.settings.watchdogTimeout) g.ticks }.note
    .watchdogStarted

/-- Turns the watchdog on, to count from now, or off. -/
def enableWatchdog (g : Gateway) (on : Bool) : Gateway :=
  if on then g.restartWatchdog.setFlags Status.watchdog else g.clearFlags Status.watchdog

/-- Sets flags as the host asks. Turning the watchdog on this way starts it too. -/
def raiseFlags (g : Gateway) (flags : UInt32) : Gateway :=
  let starts := flags &&& Status.watchdog != 0 && !g.status.has Status.watchdog
  (if starts then g.restartWatchdog else g).setFlags flags

/-- Sends the periodic poll message when it is due, unless one is queued still. -/
def pollIfDue (g : Gateway) : Gateway :=
  if hasElapsed g.ticks g.lastPoll (g.settings.ticks g.settings.pollInterval) then
    let g := { g with lastPoll := g.ticks }
    if .poll ∈ g.queue.messages then g else g.post .poll
  else g

/-- Lets an enabled watchdog look at the clock; tells whether it expires now, which ends the
contact. -/
def checkWatchdog (g : Gateway) : Bool × Gateway :=
  if g.status.has Status.watchdog then
    let (expires, watchdog) := g.watchdog.check g.ticks
    let g := { g with watchdog }
    (expires,
      if expires then (g.note (.hostSilent watchdog.timeout)).clearFlags Status.connected else g)
  else (false, g)

/-- One tick of the clock; tells whether the watchdog expires with it. -/
def advance (g : Gateway) : Bool × Gateway :=
  ({ g with ticks := g.ticks + 1 }.note .ticked).pollIfDue.checkWatchdog

/-! ## Work of the transport

A signal of work sets a mark and rings a bell, and the two are taken separately: the mark by the
turn of the worker, the ring by whoever lies down. -/

/-- The transport has work: marks it and rings for the worker. -/
def signalWork (g : Gateway) : Gateway := { g with interrupt := true, bell := g.bell.ring }

/-- Takes the mark of work, if there is one. -/
def takeInterrupt (g : Gateway) : Bool × Gateway := (g.interrupt, { g with interrupt := false })

/-- Looks once whether the bell has rung. -/
def lookForRing (g : Gateway) : Bool × Gateway :=
  let (rang, bell) := g.bell.look
  (rang, { g with bell })

/-- The worker lies down by the bell, unless a ring is pending: then it is used up and the answer
is true. -/
def lieDown (g : Gateway) : Bool × Gateway :=
  let (rang, bell) := g.bell.sleep
  (rang, { g with bell })

/-- The worker gets up. -/
def getUp (g : Gateway) : Gateway := { g with bell := g.bell.rise }

/-! ## Small settings

Each of these leaves a note. -/

/-- Counts a frame with a bad checksum. -/
def countCrc (g : Gateway) : Gateway :=
  let total := g.crcErrors + 1
  { g with crcErrors := total }.note (.crcCounted total)

/-- Names the transport. -/
def setTransport (g : Gateway) (t : Transport) : Gateway :=
  { g.note (.transportSet t) with transport := t }

/-- Selects the cyclic indications. -/
def selectCycle (g : Gateway) (m : CycleMask) : Gateway := { g.note (.maskSet m) with mask := m }

/-! ## Parameters, alarms, process data

Each of these may be refused, and then there is no gateway to go on with but the one before. -/

/-- Raises an alarm on a slot. The adapter is to be told next. -/
def addAlarm (g : Gateway) (slot : UInt16) (a : Alarm) : Except Error Gateway :=
  match g.config.alarms.add slot a with
  | .error e => .error e
  | .ok alarms => .ok ({ g with config.alarms := alarms }.note (.alarmChanged slot a true))

/-- Clears an alarm on a slot. The adapter is to be told next. -/
def removeAlarm (g : Gateway) (slot : UInt16) (a : Alarm) : Except Error Gateway :=
  match g.config.alarms.remove slot a with
  | .error e => .error e
  | .ok alarms => .ok ({ g with config.alarms := alarms }.note (.alarmChanged slot a false))

/-- Writes a parameter and tells the host. -/
def writeParam (g : Gateway) (slot param : UInt16) (bits : Nat) (data : Bytes) :
    Except Error Gateway :=
  match g.config.params.write g.config.device slot param bits data g.link.outbox with
  | .error e => .error e
  | .ok (params, outbox) => .ok { g.withOutbox outbox with config.params := params }

/-- Takes the oldest pending parameter write. -/
def takeWrite (g : Gateway) : Option ParamWrite × Gateway :=
  match g.config.params.takeWrite with
  | (none, params) => (none, { g with config.params := params })
  | (some w, params) =>
    (some w, { g with config.params := params }.note (.writeTaken w.slot w.param w.data))

/-- Replaces all elements of an input signal. -/
def setSignal (g : Gateway) (slot signal : UInt16) (values : Array UInt64) :
    Except Error Gateway :=
  match g.config.image.set .tx slot signal values with
  | .error e => .error e
  | .ok image => .ok { g with config.image := image }

/-- Replaces one element of an input signal. -/
def setValue (g : Gateway) (slot signal : UInt16) (element : Nat) (value : Value) :
    Except Error Gateway :=
  match g.config.image.setValue .tx slot signal element value with
  | .error e => .error e
  | .ok image => .ok { g with config.image := image }

/-- Replaces the status byte of an input slot. -/
def setSlotStatus (g : Gateway) (slot : UInt16) (status : UInt8) : Except Error Gateway :=
  match g.config.image.setStatus .tx slot status with
  | .error e => .error e
  | .ok image => .ok { g with config.image := image }

/-- Reads an output frame into the process image. -/
def unpackOutputs (g : Gateway) (frame : Bytes) : Except Error Gateway :=
  match g.config.image.unpack (g.view .rx) frame with
  | .error e => .error e
  | .ok image => .ok { g with config.image := image }

end Gateway
end Fieldbus
