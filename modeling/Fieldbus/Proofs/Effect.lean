import Fieldbus.Proofs.Run
/-!
What a change leaves alone.

Most changes touch a small part of a gateway. Messages, journal and status flags are behind the
link, so whatever only tells somebody something keeps all other parts. These laws are drawn from it:

* the configuration changes by the changes that `Change.configures` names, and by no other
  (`Gateway.config_apply`);
* the settings never change (`Run.settings_state`);
* the mark of work and the bell change by those that `Change.rouses` names
  (`Gateway.rousing_apply`).

A law of the form that a change leaves a part alone is worth more than the change itself, since most
invariants speak of one part. Without such laws each of them would have to go through all the
changes; with them, it goes through those that touch its part, and the others are one case.

They are stated as equations, `g' = { g with .. }` with the part that may change given by `g'`
itself. So what the equation leaves out is what can change, and any other field can be read off it.
-/

namespace Fieldbus

/-- Whether a change may touch the configuration. -/
def Change.configures : Change → Bool
  | .install _ | .addAlarm _ _ | .removeAlarm _ _ | .writeParam _ _ _ _ | .takeWrite
  | .setSignal _ _ _ | .setValue _ _ _ _ | .setSlotStatus _ _ | .unpackOutputs _ => true
  | _ => false

/-- Whether a change may touch the mark of work or the bell. -/
def Change.rouses : Change → Bool
  | .signalWork | .takeInterrupt | .lookForRing | .lieDown | .getUp => true
  | _ => false

namespace Gateway
variable (g : Gateway)

/-! ## Contact and time

One equation for each of these changes. What they do to the link is left open. -/

/-- A valid exchange touches the watchdog, what is known of faults, and the link. -/
theorem hear_eq :
    g.hear = { g with
      watchdog := (g.watchdog.feed g.ticks).2
      transportFailed := false
      lastFault := none
      link := g.hear.link } := by
  -- recoveries are noted where there are any
  obtain ⟨_, _, _, ⟨_, _, _ | _⟩, _, _, _, _, _ | _, _, _, _, _⟩ := g <;> rfl

/-- Outputs that come in are a valid exchange, and may be indicated. -/
theorem avail_eq : g.avail = { g.hear with link := g.avail.link } := by
  unfold avail
  dsimp only
  split <;> rfl

/-- Inputs that are asked for are a valid exchange, and may be indicated. -/
theorem sync_eq : g.sync = { g.hear with link := g.sync.link } := by
  unfold sync
  dsimp only
  split <;> rfl

/-- A tick touches the clocks and the link. -/
theorem advance_eq :
    g.advance.2 = { g with
      ticks := g.ticks + 1
      lastPoll := g.advance.2.lastPoll
      watchdog := g.advance.2.watchdog
      link := g.advance.2.link } := by
  have hpoll : ∀ g' : Gateway, g'.pollIfDue =
      { g' with lastPoll := g'.pollIfDue.lastPoll, link := g'.pollIfDue.link } := by
    intro g'
    unfold pollIfDue
    dsimp only
    split
    · split <;> rfl
    · rfl
  have hcheck : ∀ g' : Gateway, g'.checkWatchdog.2 =
      { g' with watchdog := g'.checkWatchdog.2.watchdog, link := g'.checkWatchdog.2.link } := by
    intro g'
    unfold checkWatchdog
    split
    · dsimp only
      split <;> rfl
    · rfl
  unfold advance
  rw [hcheck, hpoll]
  rfl

/-- A loss of contact touches the link. -/
theorem loseContact_eq : g.loseContact.2 = { g with link := g.loseContact.2.link } := by
  unfold loseContact
  dsimp only
  split <;> rfl

/-- Setting flags may start the watchdog. -/
theorem raiseFlags_eq (flags : UInt32) :
    g.raiseFlags flags =
      { g with watchdog := (g.raiseFlags flags).watchdog, link := (g.raiseFlags flags).link } := by
  unfold raiseFlags
  dsimp only
  split <;> rfl

theorem enableWatchdog_eq (on : Bool) :
    g.enableWatchdog on =
      { g with watchdog := (g.enableWatchdog on).watchdog, link := (g.enableWatchdog on).link } := by
  cases on <;> rfl

/-! ## The configuration

A change that configures changes device and layouts, parameters, pending writes, alarms or process
image, and most of them may be refused. `Gateway.attempt_of_configures` says what it does behind
that: at most a flag is set, and there may be notes. And `Gateway.Configures` says what the
configuration can become, as a relation between configurations, with no gateway in it; invariants of
the configuration are shown along this relation (`Run.config_induct`). -/

/-- The parts that neither telling nor time nor contact touches. -/
def fixed : Settings × Configuration := (g.settings, g.config)

theorem fixed_hear : g.hear.fixed = g.fixed :=
  (congrArg fixed g.hear_eq :)

theorem fixed_advance : g.advance.2.fixed = g.fixed :=
  (congrArg fixed g.advance_eq :)

theorem fixed_loseContact : g.loseContact.2.fixed = g.fixed :=
  (congrArg fixed g.loseContact_eq :)

/-- Only a change that configures touches these parts. -/
theorem fixed_apply {c : Change} (h : c.configures = false) : (g.apply c).fixed = g.fixed := by
  cases c with
  | advance => exact g.fixed_advance
  | avail => exact (congrArg fixed g.avail_eq :).trans g.fixed_hear
  | sync => exact (congrArg fixed g.sync_eq :).trans g.fixed_hear
  | hear => exact g.fixed_hear
  | loseContact => exact g.fixed_loseContact
  | raiseFlags flags => exact (congrArg fixed (g.raiseFlags_eq flags) :)
  | enableWatchdog on => exact (congrArg fixed (g.enableWatchdog_eq on) :)
  | remark _ | failTransport _ | fault _ | signalWork | takeInterrupt | lookForRing | lieDown
  | getUp | countCrc | setTransport _ | clearFlags _ | selectCycle _ | receive => rfl
  | install _ | addAlarm _ _ | removeAlarm _ _ | writeParam _ _ _ _ | takeWrite | setSignal _ _ _
  | setValue _ _ _ _ | setSlotStatus _ _ | unpackOutputs _ => cases h

/-- What a change makes of the configuration, unless it is refused. -/
inductive Configures : Change → Configuration → Prop where
  | untouched {c : Change} (h : c.configures = false) : Configures c g.config
  | installed {d : Device} {k : Configuration} (h : Configuration.ofDevice d = .ok k) :
    Configures (.install d) k
  | alarmAdded {slot : UInt16} {a : Alarm} {alarms : AlarmSet}
    (h : g.config.alarms.add slot a = .ok alarms) :
    Configures (.addAlarm slot a) { g.config with alarms }
  | alarmRemoved {slot : UInt16} {a : Alarm} {alarms : AlarmSet}
    (h : g.config.alarms.remove slot a = .ok alarms) :
    Configures (.removeAlarm slot a) { g.config with alarms }
  | written {slot param : UInt16} {bits : Nat} {data : Bytes} {params : ParamStore} {out : Outbox}
    (h : g.config.params.write g.config.device slot param bits data g.link.outbox =
      .ok (params, out)) :
    Configures (.writeParam slot param bits data) { g.config with params }
  | taken : Configures .takeWrite { g.config with params := g.config.params.takeWrite.2 }
  | signalSet {slot signal : UInt16} {values : Array UInt64} {image : ProcessImage}
    (h : g.config.image.set .tx slot signal values = .ok image) :
    Configures (.setSignal slot signal values) { g.config with image }
  | valueSet {slot signal : UInt16} {element : Nat} {value : Value} {image : ProcessImage}
    (h : g.config.image.setValue .tx slot signal element value = .ok image) :
    Configures (.setValue slot signal element value) { g.config with image }
  | statusSet {slot : UInt16} {status : UInt8} {image : ProcessImage}
    (h : g.config.image.setStatus .tx slot status = .ok image) :
    Configures (.setSlotStatus slot status) { g.config with image }
  | unpacked {frame : Bytes} {image : ProcessImage}
    (h : g.config.image.unpack (g.view .rx) frame = .ok image) :
    Configures (.unpackOutputs frame) { g.config with image }

theorem status_setFlags (flags : UInt32) : (g.setFlags flags).status = g.status.withFlags flags :=
  g.link.status_update (g.status.withFlags flags)

theorem status_clearFlags (flags : UInt32) :
    (g.clearFlags flags).status = g.status.withoutFlags flags :=
  g.link.status_update (g.status.withoutFlags flags)

/-- Taking a write touches the store, and the journal. -/
theorem takeWrite_snd : ∃ outbox, g.takeWrite.2 =
    { g with
      config.params := g.config.params.takeWrite.2
      link.outbox := outbox } := by
  unfold takeWrite
  generalize g.config.params.takeWrite = result
  obtain ⟨_ | w, params⟩ := result
  · exact ⟨g.link.outbox, rfl⟩
  · exact ⟨_, rfl⟩

variable {g}

/-- **All that a change that configures does.** Behind the link, at most a flag is set. -/
theorem attempt_of_configures {c : Change} {g' : Gateway} (hc : c.configures = true)
    (h : g.attempt c = .ok g') :
    g' = { g with config := g'.config, link := g'.link } ∧
      (g'.status = g.status ∨ g'.status = g.status.withFlags Status.configured) ∧
      g.Configures c g'.config := by
  cases c with
  | install d =>
    replace h : g.installDevice d = .ok g' := h
    unfold installDevice at h
    split at h
    · cases h
    · next k hk =>
      cases h
      exact ⟨rfl, Or.inr (status_setFlags ..), .installed hk⟩
  | addAlarm slot a =>
    replace h : g.addAlarm slot a = .ok g' := h
    unfold addAlarm at h
    split at h
    · cases h
    · next alarms ha =>
      cases h
      exact ⟨rfl, Or.inl rfl, .alarmAdded ha⟩
  | removeAlarm slot a =>
    replace h : g.removeAlarm slot a = .ok g' := h
    unfold removeAlarm at h
    split at h
    · cases h
    · next alarms ha =>
      cases h
      exact ⟨rfl, Or.inl rfl, .alarmRemoved ha⟩
  | writeParam slot param bits data =>
    replace h : g.writeParam slot param bits data = .ok g' := h
    unfold writeParam at h
    split at h
    · cases h
    · next params out hw =>
      cases h
      exact ⟨rfl, Or.inl rfl, .written hw⟩
  | takeWrite =>
    -- never refused, and the one that writes the journal as well
    replace h : g.takeWrite.2 = g' := Except.ok.inj h
    obtain ⟨outbox, htake⟩ := g.takeWrite_snd
    rw [← h, htake]
    exact ⟨rfl, Or.inl rfl, .taken⟩
  | setSignal slot signal values =>
    replace h : g.setSignal slot signal values = .ok g' := h
    unfold setSignal at h
    split at h
    · cases h
    · next image hi =>
      cases h
      exact ⟨rfl, Or.inl rfl, .signalSet hi⟩
  | setValue slot signal element value =>
    replace h : g.setValue slot signal element value = .ok g' := h
    unfold setValue at h
    split at h
    · cases h
    · next image hi =>
      cases h
      exact ⟨rfl, Or.inl rfl, .valueSet hi⟩
  | setSlotStatus slot status =>
    replace h : g.setSlotStatus slot status = .ok g' := h
    unfold setSlotStatus at h
    split at h
    · cases h
    · next image hi =>
      cases h
      exact ⟨rfl, Or.inl rfl, .statusSet hi⟩
  | unpackOutputs frame =>
    replace h : g.unpackOutputs frame = .ok g' := h
    unfold unpackOutputs at h
    split at h
    · cases h
    · next image hi =>
      cases h
      exact ⟨rfl, Or.inl rfl, .unpacked hi⟩
  -- no other change configures
  | _ => cases hc

/-- **All that can become of the configuration**, while the settings stay. -/
theorem configures_of_attempt {c : Change} {g' : Gateway} (h : g.attempt c = .ok g') :
    g'.settings = g.settings ∧ g.Configures c g'.config := by
  cases hc : c.configures with
  | false =>
    have hfixed := g.fixed_apply hc
    rw [apply_of_ok h] at hfixed
    have hconfig : g'.config = g.config := congrArg Prod.snd hfixed
    rw [hconfig]
    exact ⟨congrArg Prod.fst hfixed, .untouched hc⟩
  | true =>
    obtain ⟨hrest, -, hconf⟩ := attempt_of_configures hc h
    exact ⟨by rw [hrest], hconf⟩

variable (g)

/-- **The settings never change.** -/
theorem settings_apply (c : Change) : (g.apply c).settings = g.settings := by
  unfold apply
  cases hr : g.attempt c with
  | error e => rfl
  | ok g' => exact (configures_of_attempt hr).1

/-- **What all that can become of the configuration keeps, a change keeps.** -/
theorem config_apply {P : Configuration → Prop} (c : Change) (h : P g.config)
    (hstep : ∀ k, g.Configures c k → P k) : P (g.apply c).config := by
  unfold apply
  cases hr : g.attempt c with
  | error e => exact h
  | ok g' => exact hstep _ (configures_of_attempt hr).2

/-! ## The mark of work and the bell

Signals set the mark and ring, the worker takes the mark, looks for rings, lies down and gets up. No
other change has to do with these. -/

/-- What rouses the worker. -/
def rousing : Bool × Bell := (g.interrupt, g.bell)

/-- **Only the transport and the worker touch the mark of work and the bell.** -/
theorem rousing_apply {c : Change} (hc : c.rouses = false) : (g.apply c).rousing = g.rousing := by
  cases hconf : c.configures with
  | true =>
    cases h : g.attempt c with
    | error e => rw [apply_of_error h]
    | ok g' =>
      rw [apply_of_ok h, (attempt_of_configures hconf h).1]
      rfl
  | false =>
    cases c with
    | advance => exact (congrArg rousing g.advance_eq :)
    | hear => exact (congrArg rousing g.hear_eq :)
    | avail => exact (congrArg rousing g.avail_eq :).trans (congrArg rousing g.hear_eq :)
    | sync => exact (congrArg rousing g.sync_eq :).trans (congrArg rousing g.hear_eq :)
    | loseContact => exact (congrArg rousing g.loseContact_eq :)
    | raiseFlags flags => exact (congrArg rousing (g.raiseFlags_eq flags) :)
    | enableWatchdog on => exact (congrArg rousing (g.enableWatchdog_eq on) :)
    | remark _ | failTransport _ | fault _ | countCrc | setTransport _ | clearFlags _
    | selectCycle _ | receive => rfl
    | signalWork | takeInterrupt | lookForRing | lieDown | getUp => cases hc
    | _ => cases hconf

end Gateway

/-- A gateway is made with the settings it is given and the configuration of its device. -/
theorem Gateway.fixed_of_make {s : Settings} {d : Device} {g : Gateway} (h : make s d = .ok g) :
    g.settings = s ∧ Configuration.ofDevice d = .ok g.config := by
  unfold make at h
  split at h
  · cases h
  · next k hk =>
    rw [Except.ok.injEq] at h
    subst h
    split <;> exact ⟨rfl, hk⟩

theorem Run.settings_state (r : Run) : r.state.settings = r.settings := by
  induction r using Run.induct with
  | hmade h => exact (Gateway.fixed_of_make h).1
  | hnext r c ih =>
    rw [Run.state_next, Gateway.settings_apply]
    exact ih

/-- **What holds of every fresh configuration and is kept by all that can become of one** holds of
the configuration of every run. -/
theorem Run.config_induct {P : Configuration → Prop}
    (hfresh : ∀ {d k}, Configuration.ofDevice d = .ok k → P k)
    (hstep : ∀ (g : Gateway) (c : Change) (k : Configuration), P g.config → g.Configures c k → P k)
    (r : Run) : P r.state.config := by
  induction r using Run.induct with
  | hmade h => exact hfresh (Gateway.fixed_of_make h).2
  | hnext r c ih =>
    rw [Run.state_next]
    exact r.state.config_apply c ih fun k hk => hstep r.state c k ih hk

end Fieldbus
