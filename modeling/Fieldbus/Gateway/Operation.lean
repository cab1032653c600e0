import Fieldbus.Gateway.Query
/-!
The operations of a gateway.

An operation is one call of the gateway that may change it. Some of them have to ask the adapter or
tell the application on the way. Who answers is given as a `Handler`, and may itself do as it likes
with the gateway before it answers: so after a request nothing is known of the state but what every
change keeps.

An operation is therefore a function of worlds, in which a gateway is together with the state of all
that is around it. A request is noted before it is made, and what comes back is a reply and a world
of which the gateway may be another one.
-/

namespace Fieldbus

/-! ## Operations and their results

Operations are data, so that scripts can be made of them, and laws can be stated for all of them at
once. Each has its own type of answer. -/

/-- A call of the gateway that may change it. -/
inductive Op where
  /-- Replaces the device. -/
  | reconfigure (d : Device)
  /-- One period of the clock has passed. -/
  | tick
  /-- Outputs came in from the controller. -/
  | avail
  /-- Inputs are asked for by the controller. -/
  | sync
  /-- Any other valid exchange with the host. -/
  | activity
  /-- The transport lost its link. -/
  | disconnect
  /-- The transport has work. -/
  | signalWork
  /-- Looks once whether the bell has rung. -/
  | lookForRing
  /-- Reports a fault to the host and the adapter. -/
  | report (f : Fault)
  /-- Counts a frame with a bad checksum. -/
  | countCrc
  /-- Names the transport. -/
  | setTransport (t : Transport)
  /-- Sets status flags. -/
  | setFlags (flags : UInt32)
  /-- Clears status flags. -/
  | clearFlags (flags : UInt32)
  /-- Turns the watchdog on or off. -/
  | enableWatchdog (on : Bool)
  /-- Selects the cyclic indications. -/
  | selectCycle (m : CycleMask)
  /-- Raises an alarm. -/
  | addAlarm (slot : UInt16) (a : Alarm)
  /-- Clears an alarm. -/
  | removeAlarm (slot : UInt16) (a : Alarm)
  /-- Takes the oldest message. -/
  | receive
  /-- Serves the transport and hands out messages; the turn of the host's worker. -/
  | work
  /-- The same with an application that ignores what it is told. -/
  | workUnheard
  /-- Writes a parameter. -/
  | writeParam (slot param : UInt16) (bits : Nat) (data : Bytes)
  /-- Takes the oldest pending parameter write. -/
  | takeWrite
  /-- Replaces all elements of an input signal. -/
  | setSignal (slot signal : UInt16) (values : Array UInt64)
  /-- Replaces one element of an input signal. -/
  | setValue (slot signal : UInt16) (element : Nat) (value : Value)
  /-- Replaces the status byte of an input slot. -/
  | setSlotStatus (slot : UInt16) (status : UInt8)
  /-- Reads an output frame into the process image. -/
  | unpackOutputs (frame : Bytes)
  /-- Packs the inputs and hands them to the adapter. -/
  | writeInputs
  /-- Fetches the outputs from the adapter and unpacks them. -/
  | readOutputs
deriving DecidableEq, Repr

namespace Op

/-- What each operation answers. -/
abbrev Result : Op → Type
  | .reconfigure _ => Except Error Unit
  | .tick => Unit
  | .avail => Unit
  | .sync => Unit
  | .activity => Unit
  | .disconnect => Unit
  | .signalWork => Unit
  | .lookForRing => Bool
  | .report _ => Unit
  | .countCrc => Unit
  | .setTransport _ => Unit
  | .setFlags _ => Unit
  | .clearFlags _ => Unit
  | .enableWatchdog _ => Unit
  | .selectCycle _ => Unit
  | .addAlarm _ _ => Except Error Unit
  | .removeAlarm _ _ => Except Error Unit
  | .receive => Option Message
  | .work => Bool
  | .workUnheard => Bool
  | .writeParam _ _ _ _ => Except Error Unit
  | .takeWrite => Option ParamWrite
  | .setSignal _ _ _ => Except Error Unit
  | .setValue _ _ _ _ => Except Error Unit
  | .setSlotStatus _ _ => Except Error Unit
  | .unpackOutputs _ => Except Error Unit
  | .writeInputs => Except Error Unit
  | .readOutputs => Except Error Unit

end Op

/-! ## The gateway and its surroundings

To change the gateway and to ask or tell somebody are the two things that an operation is made of.
They are kept apart here, as everything depends on which of them comes when. -/

/-- A gateway together with the state of all that is around it. -/
structure World (σ : Type) where
  gateway : Gateway
  outside : σ

/-- Who answers the requests of a gateway and listens to its indications. -/
structure Handler (σ : Type) where
  ask : (r : Request) → World σ → r.Reply × World σ
  tell : Indication → World σ → World σ

namespace Handler

/-- Nobody: every request gets the idle reply, and indications go unheard. -/
def nobody {σ : Type} : Handler σ := ⟨fun r w => (r.idle, w), fun _ w => w⟩

/-- The same adapter with an application that ignores what it is told. -/
def unheard {σ : Type} (h : Handler σ) : Handler σ := { h with tell := fun _ w => w }

end Handler

namespace World
variable {σ : Type}

/-- Changes the gateway. -/
def change (w : World σ) (f : Gateway → Gateway) : World σ := { w with gateway := f w.gateway }

/-- Changes the gateway, with an answer. -/
def answer {α : Type} (w : World σ) (f : Gateway → α × Gateway) : α × World σ :=
  let (a, g) := f w.gateway
  (a, { w with gateway := g })

/-- Changes the gateway, unless that is refused. -/
def attempt (w : World σ) (f : Gateway → Except Error Gateway) : Except Error Unit × World σ :=
  match f w.gateway with
  | .error e => (.error e, w)
  | .ok g => (.ok (), { w with gateway := g })

/-- Asks the adapter. -/
def ask (w : World σ) (h : Handler σ) (r : Request) : r.Reply × World σ :=
  h.ask r (w.change (·.note (.asked r)))

/-- Tells the application. -/
def tell (w : World σ) (h : Handler σ) (i : Indication) : World σ :=
  h.tell i (w.change (·.note (.indicated i)))

/-! ## Faults and service

A report is a change and then a request, in this order. Serving the transport is a request and, if
that fails, a change and a report. -/

/-- Reports a fault: to the host by a message, then to the adapter. -/
def report (w : World σ) (h : Handler σ) (f : Fault) : World σ :=
  ((w.change (·.fault f)).ask h (.fault f)).2

/-- Has the adapter serve the transport; a failure ends the contact and is reported. -/
def serve (w : World σ) (h : Handler σ) : World σ :=
  match w.ask h .service with
  | (.ok (), w) => w
  | (.error f, w) => (w.change (·.failTransport f)).report h f

/-- One tick of the clock; an expiry of the watchdog is reported. -/
def tick (w : World σ) (h : Handler σ) : World σ :=
  match w.answer (·.advance) with
  | (false, w) => w
  | (true, w) => w.report h .coreCommunication

/-- The loss of the link, reported if there was contact. -/
def disconnect (w : World σ) (h : Handler σ) : World σ :=
  match w.answer (·.loseContact) with
  | (false, w) => w
  | (true, w) => w.report h .transport

/-! ## The turn of the worker

The number of messages to be handed out is fixed when handing out begins; the messages are not. The
answer is taken at the end, of the state then. -/

/-- Hands out messages, at most as many as given. The transport is served before the first poll
message, unless it was served already. -/
def dispatch (h : Handler σ) : (count : Nat) → (served : Bool) → World σ → World σ
  | 0, _, w => w
  | count + 1, served, w =>
    match w.answer (·.receive) with
    | (none, w) => w
    | (some .poll, w) =>
      dispatch h count true ((if served then w else w.serve h).tell h .poll)
    | (some m, w) => dispatch h count served (w.tell h m.indication)

/-- Serves the transport if it has work, then hands out the messages that are queued by then;
those that come up on the way are left for the next turn. Tells whether the transport works. -/
def work (w : World σ) (h : Handler σ) : Bool × World σ :=
  let (marked, w) := w.answer (·.takeInterrupt)
  let w := if marked then w.serve h else w
  let w := dispatch h w.gateway.queue.length marked w
  (w.gateway.isOperable, w)

/-! ## Configuration, alarms, frames

These may be refused. All but two of them are refused before anybody is asked; to refuse a device is
to report it, and outputs can be looked at only once the adapter has given them. -/

/-- Replaces the device. A device that is refused changes nothing, but is reported. -/
def reconfigure (w : World σ) (h : Handler σ) (d : Device) : Except Error Unit × World σ :=
  match Configuration.ofDevice d with
  | .error e => (.error e, (w.change (·.note (.rejected d e))).report h .configuration)
  | .ok c => (.ok (), w.change (·.install c))

/-- Changes the alarms of a slot and tells the adapter, unless that is refused. -/
def changeAlarm (w : World σ) (h : Handler σ) (slot : UInt16) (a : Alarm) (active : Bool) :
    Except Error Unit × World σ :=
  match w.attempt fun g => if active then g.addAlarm slot a else g.removeAlarm slot a with
  | (.error e, w) => (.error e, w)
  | (.ok (), w) => (.ok (), (w.ask h (.alarm slot a active)).2)

/-- Packs the inputs and hands them to the adapter. -/
def writeInputs (w : World σ) (h : Handler σ) : Except Error Unit × World σ :=
  match w.gateway.packInputs (w.gateway.blankFrame .tx) with
  | (.error e, _) => (.error e, w)
  | (.ok (), frame) => (.ok (), (w.ask h (.txFrame frame)).2)

/-- Fetches an output frame of the size it has now and unpacks it as the device has it by then. -/
def readOutputs (w : World σ) (h : Handler σ) : Except Error Unit × World σ :=
  let (frame, w) := w.ask h (.rxFrame (w.gateway.config.layout.frame .rx).size)
  w.attempt (·.unpackOutputs frame.toArray)

end World

/-- What an operation does to a gateway whose requests are answered by `h`. -/
def Op.run {σ : Type} (h : Handler σ) : (op : Op) → World σ → op.Result × World σ
  | .reconfigure d, w => w.reconfigure h d
  | .tick, w => ((), w.tick h)
  | .avail, w => ((), w.change (·.avail))
  | .sync, w => ((), w.change (·.sync))
  | .activity, w => ((), w.change (·.hear))
  | .disconnect, w => ((), w.disconnect h)
  | .signalWork, w => ((), w.change (·.signalWork))
  | .lookForRing, w => w.answer (·.lookForRing)
  | .report f, w => ((), w.report h f)
  | .countCrc, w => ((), w.change (·.countCrc))
  | .setTransport t, w => ((), w.change (·.setTransport t))
  | .setFlags flags, w => ((), w.change (·.raiseFlags flags))
  | .clearFlags flags, w => ((), w.change (·.clearFlags flags))
  | .enableWatchdog on, w => ((), w.change (·.enableWatchdog on))
  | .selectCycle m, w => ((), w.change (·.selectCycle m))
  | .addAlarm slot a, w => w.changeAlarm h slot a true
  | .removeAlarm slot a, w => w.changeAlarm h slot a false
  | .receive, w => w.answer (·.receive)
  | .work, w => w.work h
  | .workUnheard, w => w.work h.unheard
  | .writeParam slot param bits data, w => w.attempt (·.writeParam slot param bits data)
  | .takeWrite, w => w.answer (·.takeWrite)
  | .setSignal slot signal values, w => w.attempt (·.setSignal slot signal values)
  | .setValue slot signal element value, w => w.attempt (·.setValue slot signal element value)
  | .setSlotStatus slot status, w => w.attempt (·.setSlotStatus slot status)
  | .unpackOutputs frame, w => w.attempt (·.unpackOutputs frame)
  | .writeInputs, w => w.writeInputs h
  | .readOutputs, w => w.readOutputs h

/-! ## Changes that may be refused

What is left of a refused change is the world as it was. -/

namespace World
variable {σ : Type} {w : World σ} {f : Gateway → Except Error Gateway}

theorem attempt_of_ok {g : Gateway} (h : f w.gateway = .ok g) :
    w.attempt f = (.ok (), { w with gateway := g }) := by
  unfold attempt
  rw [h]

theorem attempt_of_error {e : Error} (h : f w.gateway = .error e) :
    w.attempt f = (.error e, w) := by
  unfold attempt
  rw [h]

/-- A change that is refused is no change. -/
theorem attempt_eq_of_error {e : Error} (h : (w.attempt f).1 = .error e) :
    (w.attempt f).2 = w := by
  unfold attempt at h ⊢
  split <;> simp_all

end World

end Fieldbus
