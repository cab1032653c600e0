import Fieldbus.Proofs.Coherence
/-!
Calls that are refused.

A gateway refuses a call by answering with an error. Then the call has done nothing: the gateway is
the one it was, the adapter was asked nothing, and a buffer that was to be filled has the bytes it
had (`Run.refused_leaves_all`). Most calls check before they write. Packing a frame writes signal by
signal and could be stopped on the way; but the image of a coherent gateway fits its frames, so
nothing is found wrong once the length of the frame is right.

Two calls do more. To read the outputs, the adapter is asked for a frame first. A device that is
refused is reported; as every valid device has a configuration, it is refused for what its
validation finds.

A call here is an operation or a question with a buffer, and what is left of it is the gateway, the
surroundings, the answer and the buffer. To have the four in one record is what lets all calls be
treated alike.
-/

namespace Fieldbus

/-! ## Calls and what is left of them

Answers are of many types, and most operations cannot be refused; `Op.refusal` reads the error off
those that can. -/

/-- The error in an answer. -/
def refusalOf {α : Type} : Except Error α → Option Error
  | .error e => some e
  | .ok _ => none

theorem refusalOf_eq_some_iff {α : Type} {answer : Except Error α} {e : Error} :
    refusalOf answer = some e ↔ answer = .error e := by
  cases answer with
  | error e' =>
    show some e' = some e ↔ _
    rw [Option.some_inj, Except.error.injEq]
  | ok a => exact ⟨fun h => (nomatch h), fun h => (nomatch h)⟩

/-- The error with which an operation is refused. Most are never refused. -/
def Op.refusal : (op : Op) → op.Result → Option Error
  | .reconfigure _, answer | .addAlarm _ _, answer | .removeAlarm _ _, answer
  | .writeParam _ _ _ _, answer | .setSignal _ _ _, answer | .setValue _ _ _ _, answer
  | .setSlotStatus _ _, answer | .unpackOutputs _, answer | .writeInputs, answer
  | .readOutputs, answer => refusalOf answer
  | _, _ => none

/-- A call of the gateway: an operation, or a question that may be refused too. -/
inductive Call where
  | perform (op : Op)
  | alarms (slot : UInt16)
  | readParam (slot param : UInt16) (bits : Nat) (buffer : Bytes)
  | paramIndex (slot : UInt16) (number : UInt32)
  | signal (dir : Direction) (slot signal : UInt16)
  | value (dir : Direction) (slot signal : UInt16) (element : Nat)
  | slotStatus (dir : Direction) (slot : UInt16)
  | packInputs (frame : Bytes)
  | decode (dir : Direction) (frame : Bytes) (slot signal : UInt16)

/-- What is left of a call. -/
structure Call.Left (σ : Type) where
  /-- The error with which it was refused. -/
  refusal : Option Error
  /-- The bytes in the buffer that it was to fill. -/
  buffer : Bytes
  world : World σ

namespace Call

/-- The buffer that a call is given to fill. -/
def buffer : Call → Bytes
  | .readParam _ _ _ buffer => buffer
  | .packInputs frame => frame
  | _ => #[]

/-- Whether a call asks nothing of the adapter before it is sure to succeed. -/
def IsPlain (c : Call) : Prop := (∀ d, c ≠ .perform (.reconfigure d)) ∧ c ≠ .perform .readOutputs

/-- What is left of a call that only looks at the gateway. -/
def asking {σ α : Type} (w : World σ) (answer : Except Error α) : Left σ :=
  ⟨refusalOf answer, #[], w⟩

/-- Makes a call of a gateway whose requests are answered by `h`. -/
def run {σ : Type} (h : Handler σ) (w : World σ) : Call → Left σ
  | .perform op =>
    let (answer, w) := op.run h w
    ⟨op.refusal answer, #[], w⟩
  | .alarms slot => asking w (w.gateway.alarms slot)
  | .readParam slot param bits buffer =>
    match w.gateway.readParam slot param bits buffer with
    | .error e => ⟨some e, buffer, w⟩
    | .ok (_, buffer) => ⟨none, buffer, w⟩
  | .paramIndex slot number => asking w (w.gateway.paramIndex slot number)
  | .signal dir slot x => asking w (w.gateway.signal dir slot x)
  | .value dir slot x element => asking w (w.gateway.value dir slot x element)
  | .slotStatus dir slot => asking w (w.gateway.slotStatus dir slot)
  | .packInputs frame =>
    let (answer, frame) := w.gateway.packInputs frame
    ⟨refusalOf answer, frame, w⟩
  | .decode dir frame slot x => asking w (w.gateway.decode dir frame slot x)

end Call

/-! ## Operations

A refused change leaves the gateway by itself. So what has to be seen is that operations ask nobody
before they are sure to succeed; the two that do are the ones excepted here. -/

namespace World
variable {σ : Type} {w : World σ} {e : Error}

/-- Alarms that are refused are not heard of. -/
theorem changeAlarm_of_error (h : Handler σ) {slot : UInt16} {a : Alarm} {active : Bool}
    (he : (w.changeAlarm h slot a active).1 = .error e) :
    (w.changeAlarm h slot a active).2 = w := by
  unfold changeAlarm at he ⊢
  have hattempt := @attempt_eq_of_error σ w fun g =>
    if active then g.addAlarm slot a else g.removeAlarm slot a
  generalize w.attempt _ = result at he hattempt ⊢
  obtain ⟨answer, w'⟩ := result
  cases answer with
  | error e' => exact hattempt rfl
  | ok _ => cases he

/-- A frame from the adapter that is refused is forgotten. -/
theorem readOutputs_of_error (h : Handler σ) (he : (w.readOutputs h).1 = .error e) :
    (w.readOutputs h).2 = (w.ask h (.rxFrame (w.gateway.config.layout.frame .rx).size)).2 := by
  unfold readOutputs at he ⊢
  exact attempt_eq_of_error he

end World

/-- A refused operation changes nothing. -/
theorem Op.run_of_refusal {σ : Type} (h : Handler σ) {w : World σ} (hk : w.gateway.config.Coherent)
    {op : Op} (hplain : (Call.perform op).IsPlain) {e : Error}
    (he : op.refusal (op.run h w).1 = some e) : (op.run h w).2 = w := by
  cases op with
  | reconfigure d => exact absurd rfl (hplain.1 d)
  | readOutputs => exact absurd rfl hplain.2
  | addAlarm slot a | removeAlarm slot a =>
    exact World.changeAlarm_of_error h (refusalOf_eq_some_iff.1 he)
  | writeParam | setSignal | setValue | setSlotStatus | unpackOutputs =>
    exact World.attempt_eq_of_error (refusalOf_eq_some_iff.1 he)
  | writeInputs =>
    -- the frame has the length it should have, so the inputs are always written
    obtain ⟨frame, -, hwrite⟩ := World.writeInputs_eq h hk
    have hrefused : (w.writeInputs h).1 = .error e := refusalOf_eq_some_iff.1 he
    rw [hwrite] at hrefused
    cases hrefused
  | _ => cases he

/-! ## Buffers

A frame that is packed is left as it was if its length is wrong, and that is the only way for
packing to fail. A buffer for a parameter is filled only when the read succeeds. -/

namespace Gateway
variable {g : Gateway} {e : Error}

/-- **A frame is packed whole or not at all.** -/
theorem packInputs_of_error (hk : g.config.Coherent) {frame : Bytes}
    (he : (g.packInputs frame).1 = .error e) : (g.packInputs frame).2 = frame := by
  unfold packInputs at he ⊢
  rw [hk.view_eq] at he ⊢
  by_cases hsize : frame.size = g.config.device.frameSize .tx
  · obtain ⟨packed, hpacked⟩ :=
      (exists_pack_ownView_iff hk.device_valid (hk.image .tx)).2 hsize
    rw [hpacked] at he
    cases he
  · rw [pack_ownView_of_ne _ hsize]

end Gateway

/-- **A refused call leaves all as it was,** its buffer included. -/
theorem Call.run_of_refusal {σ : Type} (h : Handler σ) {w : World σ}
    (hk : w.gateway.config.Coherent) {c : Call} (hplain : c.IsPlain) {e : Error}
    (he : (c.run h w).refusal = some e) : c.run h w = ⟨some e, c.buffer, w⟩ := by
  cases c with
  | perform op =>
    have hsame : (op.run h w).2 = w := Op.run_of_refusal h hk hplain he
    show Left.mk (op.refusal (op.run h w).1) #[] (op.run h w).2 = _
    rw [show op.refusal (op.run h w).1 = some e from he, hsame]
    rfl
  | readParam slot param bits buffer =>
    unfold run at he ⊢
    dsimp only at he ⊢
    cases hread : w.gateway.readParam slot param bits buffer with
    | error e' =>
      rw [hread] at he
      cases he
      rfl
    | ok read =>
      rw [hread] at he
      cases he
  | packInputs frame =>
    have hsame : (w.gateway.packInputs frame).2 = frame :=
      Gateway.packInputs_of_error hk (refusalOf_eq_some_iff.1 he)
    show Left.mk (refusalOf (w.gateway.packInputs frame).1) (w.gateway.packInputs frame).2 w = _
    rw [show refusalOf (w.gateway.packInputs frame).1 = some e from he, hsame]
    rfl
  | alarms | paramIndex | signal | value | slotStatus | decode =>
    unfold run asking at he ⊢
    dsimp only at he ⊢
    rw [he]
    rfl

/-! ## Devices

To refuse a device is to report a fault, and this is all: the configuration is made before anything
is put in its place, so the one before is still there. -/

/-- What a message leaves in the journal when it is sent. -/
theorem Outbox.post_eq (o : Outbox) (m : Message) :
    o.post m =
      { queue := (o.queue.send m).2
        journal := (if o.queue.isFull then .dropped m (o.queue.dropped + 1) else .queued m) ::
          o.journal } := by
  unfold post send Queue.send
  cases o.queue.isFull <;> rfl

/-- A gateway that has refused a device, before the adapter is asked to take note: the fault was
taken down, and the host was sent one message. -/
def Gateway.refused (g : Gateway) (d : Device) (e : Error) : Gateway :=
  { g with
    lastFault := some .configuration
    link.outbox.queue := (g.queue.send (.error .configuration)).2
    link.outbox.journal :=
      .faultReported .configuration ::
        (if g.queue.isFull then .dropped (.error .configuration) (g.queue.dropped + 1)
          else .queued (.error .configuration)) ::
        .rejected d e :: g.journal }

/-- **Refusing a device is telling of it.** -/
theorem World.reconfigure_of_error {σ : Type} (h : Handler σ) {w : World σ} {d : Device} {e : Error}
    (he : (w.reconfigure h d).1 = .error e) :
    d.validate = .error e ∧
      (w.reconfigure h d).2 = (ask ⟨w.gateway.refused d e, w.outside⟩ h (.fault .configuration)).2 := by
  unfold reconfigure at he ⊢
  cases hd : Configuration.ofDevice d with
  | ok k =>
    rw [hd] at he
    cases he
  | error e' =>
    rw [hd] at he
    cases he
    refine ⟨Configuration.ofDevice_eq_error_iff.1 hd, ?_⟩
    have hfault : (w.gateway.note (.rejected d e)).fault .configuration = w.gateway.refused d e := by
      unfold Gateway.fault Gateway.post
      rw [Outbox.post_eq]
      rfl
    dsimp only
    show (ask ⟨(w.gateway.note (.rejected d e)).fault .configuration, w.outside⟩ h _).2 = _
    rw [hfault]

/-! ## In every state

The state of a run is coherent, and nothing else is asked of it. -/

/-- **Refused calls do nothing.** Whatever state a run is in, and whoever answers for the adapter:

* a call that is refused leaves gateway, surroundings and buffer as they were;
* so does reading the outputs, once the adapter has given its frame;
* a device is refused if its validation finds something. Then the fault is taken down, one message
  is sent to the host, and the adapter is asked to take note of it, and nothing else is done. -/
theorem Run.refused_leaves_all (r : Run) {σ : Type} (h : Handler σ) (outside : σ) :
    (∀ (c : Call) (e : Error), c.IsPlain → (c.run h ⟨r.state, outside⟩).refusal = some e →
      c.run h ⟨r.state, outside⟩ = ⟨some e, c.buffer, ⟨r.state, outside⟩⟩) ∧
    (∀ e, (World.readOutputs ⟨r.state, outside⟩ h).1 = .error e →
      (World.readOutputs ⟨r.state, outside⟩ h).2 =
        (World.ask ⟨r.state, outside⟩ h (.rxFrame (r.state.config.layout.frame .rx).size)).2) ∧
    ∀ (d : Device) (e : Error), (World.reconfigure ⟨r.state, outside⟩ h d).1 = .error e →
      d.validate = .error e ∧
      (World.reconfigure ⟨r.state, outside⟩ h d).2 =
        (World.ask ⟨r.state.refused d e, outside⟩ h (.fault .configuration)).2 ∧
      ((∀ w, (h.ask (.fault .configuration) w).2.gateway = w.gateway) →
        (World.reconfigure ⟨r.state, outside⟩ h d).2.gateway =
          (r.state.refused d e).note (.asked (.fault .configuration))) := by
  refine ⟨fun c e hplain he => Call.run_of_refusal h r.coherent hplain he,
    fun e he => World.readOutputs_of_error h he, fun d e he => ?_⟩
  obtain ⟨hd, hleft⟩ := World.reconfigure_of_error h he
  refine ⟨hd, hleft, fun hquiet => ?_⟩
  rw [hleft]
  exact hquiet _

end Fieldbus
