import Fieldbus.Proofs.Conduct
import Fieldbus.Proofs.Effect
import Fieldbus.Proofs.FrameContent
import Fieldbus.Proofs.ParamCells
/-!
Coherence: all that a gateway keeps for its device fits that device.

Layouts, parameter memory, pending writes, process image and alarms are made one by one from the
device and changed one by one later. `Configuration.Coherent` says that they belong together; it
holds of a fresh configuration, and every change keeps it (`Configuration.Coherent.step`).

What comes of it is that packing can only fail for the length of a frame: the places that the layout
gives are in the frame, and the image has exactly the values that go there.

The invariant is of the configuration alone. What can become of a configuration is a relation with
few cases (`Gateway.Configures`), so the induction does not go over all changes, and it does not see
the link. It is strong enough to be used in the midst of a call: a gateway that asks its adapter is
coherent while it waits.

A pending write is one that is still to be taken; that its parameter exists and has a value is part
of the invariant, since otherwise taking it would skip it.
-/

namespace Fieldbus

/-! ## Images keep their shape

All that can be done to an image replaces values by as many values: a signal as a whole, an element,
a status byte. So the shape is kept, and with it that the image fits its device. -/

namespace ProcessImage

/-- Two images have the same shape. -/
def SameShape (p q : ProcessImage) : Prop :=
  ∀ dir, (q.slots dir).map SlotImage.shape = (p.slots dir).map SlotImage.shape

theorem SameShape.shaped {p q : ProcessImage} (h : p.SameShape q) {d : Device} {dir : Direction}
    (hp : Shaped d dir (p.slots dir)) : Shaped d dir (q.slots dir) := (h dir).trans hp

theorem slot_eq_ok_iff {p : ProcessImage} {dir : Direction} {i : UInt16} {s : SlotImage} :
    p.slot dir i = .ok s ↔ (p.slots dir)[i.toNat]? = some s := by
  unfold slot
  split <;> simp_all

theorem get_eq_ok_iff {p : ProcessImage} {dir : Direction} {i j : UInt16}
    {values : Array UInt64} :
    p.get dir i j = .ok values ↔
      ∃ s, p.slot dir i = .ok s ∧ s.signals[j.toNat]? = some values := by
  unfold get
  cases hs : p.slot dir i with
  | error e => exact ⟨fun h => (nomatch h), fun ⟨s, h, _⟩ => (nomatch h)⟩
  | ok s =>
    dsimp only
    cases hv : s.signals[j.toNat]? with
    | none =>
      refine ⟨fun h => (nomatch h), ?_⟩
      rintro ⟨s', h, hv'⟩
      cases h
      rw [hv] at hv'
      cases hv'
    | some old =>
      constructor
      · intro h
        cases h
        exact ⟨s, rfl, hv⟩
      · rintro ⟨s', h, hv'⟩
        cases h
        rw [hv] at hv'
        cases hv'
        rfl

/-- A slot of the same shape in the place of the one before keeps the shape of the image. -/
theorem sameShape_setSlot {p : ProcessImage} {dir : Direction} {i : UInt16} {s s' : SlotImage}
    (hs : p.slot dir i = .ok s) (hshape : s'.shape = s.shape) :
    p.SameShape (p.setSlot dir i s') := by
  intro other
  by_cases hdir : other = dir
  · subst hdir
    rw [setSlot, slots_withSlots]
    apply Array.ext_getElem?
    intro k
    rw [Array.getElem?_map, Array.getElem?_map, Array.getElem?_setIfInBounds]
    by_cases hk : i.toNat = k
    · subst hk
      have hget := slot_eq_ok_iff.1 hs
      rw [if_pos rfl, if_pos (Array.getElem?_eq_some_iff.1 hget).1, hget, Option.map_some,
        Option.map_some, hshape]
    · rw [if_neg hk]
  · rw [setSlot, slots_withSlots_of_ne p hdir]

/-- As many values in the place of those before keep the shape of the image. -/
theorem sameShape_setSignal {p : ProcessImage} {dir : Direction} {i j : UInt16}
    {old values : Array UInt64} (hget : p.get dir i j = .ok old) (hsize : values.size = old.size) :
    p.SameShape (p.setSignal dir i j values) := by
  obtain ⟨s, hs, hv⟩ := get_eq_ok_iff.1 hget
  unfold setSignal
  rw [hs]
  apply sameShape_setSlot hs
  unfold SlotImage.shape
  apply Array.ext_getElem?
  intro k
  rw [Array.getElem?_map, Array.getElem?_map, Array.getElem?_setIfInBounds]
  by_cases hk : j.toNat = k
  · subst hk
    rw [if_pos rfl, if_pos (Array.getElem?_eq_some_iff.1 hv).1, hv, Option.map_some,
      Option.map_some, hsize]
  · rw [if_neg hk]

theorem sameShape_set {p q : ProcessImage} {dir : Direction} {i j : UInt16}
    {values : Array UInt64} (h : p.set dir i j values = .ok q) : p.SameShape q := by
  unfold set at h
  split at h
  · cases h
  · next old hget =>
    split at h
    · cases h
    · next hsize =>
      cases h
      exact sameShape_setSignal hget (Decidable.not_not.1 hsize).symm

theorem sameShape_setValue {p q : ProcessImage} {dir : Direction} {i j : UInt16} {element : Nat}
    {value : Value} (h : p.setValue dir i j element value = .ok q) : p.SameShape q := by
  unfold setValue at h
  split at h
  · cases h
  · next old hget =>
    split at h
    · cases h
    · cases h
      exact sameShape_setSignal hget (Array.size_setIfInBounds ..)

theorem sameShape_setStatus {p q : ProcessImage} {dir : Direction} {i : UInt16} {status : UInt8}
    (h : p.setStatus dir i status = .ok q) : p.SameShape q := by
  unfold setStatus at h
  split at h
  · cases h
  · next s hs =>
    cases h
    exact sameShape_setSlot hs rfl

end ProcessImage

/-! ## Alarms keep their slots

Raising and clearing replace the list of one slot, so there are as many lists as before. -/

namespace AlarmSet

theorem size_add {s t : AlarmSet} {slot : UInt16} {a : Alarm} (h : s.add slot a = .ok t) :
    t.slots.size = s.slots.size := by
  unfold add at h
  split at h
  · cases h
  · split at h
    · cases h
    · cases h
      exact Array.size_setIfInBounds ..

theorem size_remove {s t : AlarmSet} {slot : UInt16} {a : Alarm} (h : s.remove slot a = .ok t) :
    t.slots.size = s.slots.size := by
  unfold remove at h
  split at h
  · cases h
  · split at h
    · cases h
      exact Array.size_setIfInBounds ..
    · cases h

end AlarmSet

/-! ## Pending writes are taken from the front

What is left after taking a write is the rest of the list, which may be shorter by more than one
where a pending parameter had no value; with all values in place it is the list without its first. -/

namespace ParamStore

/-- Looking for a pending write drops none but those before it. -/
theorem suffix_firstPending (s : ParamStore) (pending : List (UInt16 × UInt16)) :
    (s.firstPending pending).2 <:+ pending := by
  induction pending with
  | nil => exact List.suffix_refl []
  | cons key rest ih =>
    obtain ⟨slot, param⟩ := key
    unfold firstPending
    split
    · exact List.suffix_cons (slot, param) rest
    · exact ih.trans (List.suffix_cons (slot, param) rest)

theorem suffix_takeWrite (s : ParamStore) : s.takeWrite.2.pending <:+ s.pending :=
  s.suffix_firstPending s.pending

end ParamStore

/-! ## Coherence

The invariant, that a fresh configuration has it, and that it is kept. A configuration is made if
the device passes its validation, and it is refused for nothing else: the layouts cannot fail, and
the parameters of a valid device get their memory. -/

/-- All that is kept for a device fits it. -/
structure Configuration.Coherent (k : Configuration) : Prop where
  valid : k.device.validate = .ok ()
  layout : k.layout = DeviceLayout.ofDevice k.device
  /-- One entry per slot, and in it one value per element of each signal. -/
  image : ∀ dir, Shaped k.device dir (k.image.slots dir)
  /-- No memory if there is no parameter, else one with the ranges and the length allocated. -/
  memory : k.params.Of k.device
  pending : ∀ key ∈ k.params.pending, ∃ p, k.device.param key.1 key.2 = .ok p
  nodup : k.params.pending.Nodup
  /-- One list per slot. -/
  alarms : k.alarms.slots.size = k.device.slots.size

namespace Configuration

/-- A fresh configuration has the layouts of its device, and all values as they are at first. -/
theorem ofDevice_eq_ok {d : Device} {k : Configuration} (h : ofDevice d = .ok k) :
    d.validate = .ok () ∧ ParamStore.ofDevice d = .ok k.params ∧
      k = ⟨d, DeviceLayout.ofDevice d, k.params, ProcessImage.zero d, AlarmSet.none d⟩ := by
  unfold ofDevice at h
  split at h
  · cases h
  · next hv =>
    split at h
    · cases h
    · next params hp =>
      cases h
      exact ⟨hv, hp, rfl⟩

/-- **A device is refused for what its validation finds, and for nothing else.** -/
theorem ofDevice_eq_error_iff {d : Device} {e : Error} :
    ofDevice d = .error e ↔ d.validate = .error e := by
  unfold ofDevice
  cases hv : d.validate with
  | error e' => exact Iff.of_eq (by rw [Except.error.injEq, Except.error.injEq])
  | ok _ =>
    obtain ⟨params, hp⟩ := ParamStore.exists_ofDevice ((Device.validate_eq_ok_iff d).1 hv)
    rw [hp]
    exact ⟨fun h => (nomatch h), fun h => (nomatch h)⟩

/-- Every valid device has a configuration. -/
theorem exists_ofDevice {d : Device} (hd : d.validate = .ok ()) : ∃ k, ofDevice d = .ok k := by
  cases hk : ofDevice d with
  | error e => cases hd.symm.trans (ofDevice_eq_error_iff.1 hk)
  | ok k => exact ⟨k, rfl⟩

/-- Nothing is pending in a fresh configuration. -/
theorem pending_ofDevice {d : Device} {k : Configuration} (h : ofDevice d = .ok k) :
    k.params.pending = [] :=
  (ParamStore.of_ofDevice (ofDevice_eq_ok h).2.1).2

theorem coherent_ofDevice {d : Device} {k : Configuration} (h : ofDevice d = .ok k) :
    k.Coherent := by
  have hnone := pending_ofDevice h
  obtain ⟨hv, hp, hk⟩ := ofDevice_eq_ok h
  have hof := (ParamStore.of_ofDevice hp).1
  generalize k.params = params at hk hnone hof
  subst hk
  refine ⟨hv, rfl, fun dir => shaped_zero d dir, hof, ?_, ?_, Array.size_map ..⟩
  · intro key hkey
    rw [show ParamStore.pending _ = [] from hnone] at hkey
    cases hkey
  · rw [show ParamStore.pending _ = [] from hnone]
    exact List.nodup_nil

/-- The view of a coherent configuration is that of its device. -/
theorem Coherent.view_eq {g : Gateway} (h : g.config.Coherent) (dir : Direction) :
    g.view dir = g.config.device.ownView dir g.settings.order := by
  unfold Gateway.view Device.ownView
  rw [h.layout]
  cases dir <;> rfl

theorem Coherent.device_valid {k : Configuration} (h : k.Coherent) : k.device.Valid :=
  (Device.validate_eq_ok_iff k.device).1 h.valid

/-- **Every change keeps a configuration coherent.** -/
theorem Coherent.step {g : Gateway} {c : Change} {k : Configuration} (h : g.config.Coherent)
    (hk : g.Configures c k) : k.Coherent := by
  cases hk with
  | untouched _ => exact h
  | installed hd => exact coherent_ofDevice hd
  | alarmAdded ha => exact { h with alarms := (AlarmSet.size_add ha).trans h.alarms }
  | alarmRemoved ha => exact { h with alarms := (AlarmSet.size_remove ha).trans h.alarms }
  | @written slot param bits data params out hw =>
    obtain ⟨p, hp, -, -, hof, hpending, -, -⟩ := h.memory.write_spec hw
    refine { h with memory := hof, pending := ?_, nodup := ?_ }
    · intro key hkey
      rw [hpending, ParamStore.mem_markPending] at hkey
      rcases hkey with hold | rfl
      · exact h.pending key hold
      · exact ⟨p, hp⟩
    · rw [hpending]
      exact ParamStore.nodup_markPending h.nodup _
  | taken =>
    -- taking drops pending writes and adds none, and it leaves the memory alone
    have hsuffix := g.config.params.suffix_takeWrite
    exact { h with
      memory := h.memory
      pending := fun key hkey => h.pending key (hsuffix.mem hkey)
      nodup := h.nodup.sublist hsuffix.sublist }
  | signalSet hi =>
    exact { h with image := fun dir => (ProcessImage.sameShape_set hi).shaped (h.image dir) }
  | valueSet hi =>
    exact { h with image := fun dir => (ProcessImage.sameShape_setValue hi).shaped (h.image dir) }
  | statusSet hi =>
    exact { h with image := fun dir => (ProcessImage.sameShape_setStatus hi).shaped (h.image dir) }
  | unpacked hi =>
    refine { h with image := fun dir => ?_ }
    rw [h.view_eq] at hi
    have hframe := (exists_unpack_ownView_iff h.device_valid).1 ⟨_, hi⟩
    obtain ⟨read, hread, -, hall⟩ := unpack_ownView h.device_valid g.settings.order hframe
    have heq := (hall g.config.image).symm.trans hi
    cases heq
    cases dir with
    | tx => exact h.image .tx
    | rx => exact hread

end Configuration

/-- **Every gateway is coherent,** in the midst of calls too. -/
theorem Run.coherent (r : Run) : r.state.config.Coherent :=
  r.config_induct Configuration.coherent_ofDevice fun _ _ _ h hk => h.step hk

/-- A gateway is made for every valid device. -/
theorem Gateway.make_ne_error (s : Settings) {d : Device} (hd : d.validate = .ok ()) (e : Error) :
    make s d ≠ .error e := by
  obtain ⟨k, hk⟩ := Configuration.exists_ofDevice hd
  unfold make
  rw [hk]
  nofun

/-- The run of a valid device with the given settings, before anything was done. -/
def Run.ofValid (s : Settings) (d : Device) (hd : d.validate = .ok ()) : Run :=
  match h : Gateway.make s d with
  | .error e => absurd h (Gateway.make_ne_error s hd e)
  | .ok _ => begun h

/-- Every valid device can be run, with any settings. -/
theorem Run.exists_of_valid (s : Settings) {d : Device} (hd : d.validate = .ok ()) :
    ∃ r : Run, r.settings = s ∧ Configuration.ofDevice d = .ok r.state.config := by
  cases hmade : Gateway.make s d with
  | error e => exact absurd hmade (Gateway.make_ne_error s hd e)
  | ok g => exact ⟨Run.begun hmade, rfl, (Gateway.fixed_of_make hmade).2⟩

/-! ## Which frames are accepted

Packing wants an image of the right shape and a frame of the right length. The first is a matter of
coherence, so only the second is left to fail. Writing the inputs makes a frame of zeros of the
right length by itself, and so never fails. -/

/-- Both frames of a coherent configuration are as long as its device says. -/
theorem Configuration.Coherent.size_layout {k : Configuration} (h : k.Coherent) (dir : Direction) :
    (k.layout.frame dir).size = k.device.frameSize dir := by
  rw [h.layout, ← FrameMap.size_ofDevice]
  cases dir <;> rfl

/-- The inputs are written whenever they are asked for, whatever the adapter does then. -/
theorem World.writeInputs_eq {σ : Type} (h : Handler σ) {w : World σ}
    (hk : w.gateway.config.Coherent) :
    ∃ frame, w.gateway.packInputs (w.gateway.blankFrame .tx) = (.ok (), frame) ∧
      w.writeInputs h = (.ok (), (w.ask h (.txFrame frame)).2) := by
  have hsize : (w.gateway.blankFrame .tx).size = w.gateway.config.device.frameSize .tx := by
    rw [Gateway.blankFrame, size_zeroBytes, hk.size_layout]
  obtain ⟨frame, hframe⟩ := (exists_pack_ownView_iff hk.device_valid (hk.image .tx)).2 hsize
  have hpack : w.gateway.packInputs (w.gateway.blankFrame .tx) = (.ok (), frame) := by
    rw [Gateway.packInputs, hk.view_eq]
    exact hframe
  refine ⟨frame, hpack, ?_⟩
  rw [writeInputs, hpack]

/-- **All parts of a gateway fit its device, and frames are refused for their length only.** In
every state of a run, and in every state that an operation leads to from there:

* device, layouts, process image, parameter memory, pending writes and alarms are coherent;
* writing the inputs succeeds;
* packing inputs and unpacking outputs succeed exactly for frames as long as the layout says, and
  reading a signal exactly if the signal exists besides. -/
theorem Run.coherent_with_exact_frames (r : Run) :
    r.state.config.Coherent ∧
    (∀ {σ : Type} (env : Environment σ) (depth : Nat) (op : Op) (w : World σ),
      w.gateway = r.state → (env.perform depth op w).2.gateway.config.Coherent) ∧
    (∀ {σ : Type} (h : Handler σ) (w : World σ),
      w.gateway = r.state → (w.writeInputs h).1 = .ok ()) ∧
    (∀ frame, (∃ packed, r.state.packInputs frame = (.ok (), packed)) ↔
      frame.size = (r.state.config.layout.frame .tx).size) ∧
    (∀ frame, (∃ g, r.state.unpackOutputs frame = .ok g) ↔
      frame.size = (r.state.config.layout.frame .rx).size) ∧
    ∀ dir frame slot signal, (∃ values, r.state.decode dir frame slot signal = .ok values) ↔
      frame.size = (r.state.config.layout.frame dir).size ∧
        ∃ x, r.state.config.device.signal dir slot signal = .ok x := by
  have hk := r.coherent
  refine ⟨hk, ?_, ?_, ?_, ?_, ?_⟩
  · -- an operation is a sequence of changes, and ends in a state of a run
    intro σ env depth op w hw
    obtain ⟨cs, hcs⟩ := r.exists_perform env depth op hw
    rw [← hcs]
    exact (r.andThen cs).coherent
  · intro σ h w hw
    rw [← hw] at hk
    obtain ⟨frame, -, hwrite⟩ := World.writeInputs_eq h hk
    rw [hwrite]
  · intro frame
    rw [hk.size_layout]
    unfold Gateway.packInputs
    rw [hk.view_eq]
    exact exists_pack_ownView_iff hk.device_valid (hk.image .tx)
  · intro frame
    rw [hk.size_layout, ← exists_unpack_ownView_iff hk.device_valid, ← hk.view_eq]
    unfold Gateway.unpackOutputs
    cases r.state.config.image.unpack (r.state.view .rx) frame with
    | error e => exact ⟨fun ⟨g, h⟩ => (nomatch h), fun ⟨q, h⟩ => (nomatch h)⟩
    | ok image => exact ⟨fun _ => ⟨image, rfl⟩, fun _ => ⟨_, rfl⟩⟩
  · intro dir frame slot signal
    rw [hk.size_layout]
    unfold Gateway.decode
    rw [hk.view_eq]
    exact exists_unpackSignal_ownView_iff

end Fieldbus
