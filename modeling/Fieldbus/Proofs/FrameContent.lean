import Fieldbus.Device.Validity
import Fieldbus.Frame.Image
import Fieldbus.Proofs.Placement
/-!
Whole frames: what packing an image writes, and what unpacking a frame reads.

A frame *holds* the slots of an image when each field holds its values and each status byte is
there (`FrameHolds`). Everything about frames is said by four laws on it:

1. packing makes the frame hold the image, and changes no bit that carries nothing
   (`packSlots_spec`). The induction goes along the slots, and in each along its signals; what
   carries it is that later places never cover earlier ones;
2. what is unpacked is held by the frame, and its elements have no bits above their width
   (`unpackSlots_spec`);
3. two images held by one frame are equal up to bits above the widths
   (`FrameReads.eq_reducedSlots`);
4. packing what a frame holds changes nothing (`FrameHolds.pack_self`).

The bits that carry nothing are the padding: what is left of a signal's last byte.

The four laws are all that is used of frames above this module. The round trips come of them as
follows: an image that is packed is held by the frame; what is unpacked then is held by it as well,
and so by the third law it is the image, reduced; and a frame that was unpacked holds what was
unpacked, so packing that changes nothing by the fourth.

Only the first two look at the loops. Each of these is an induction on what is left of the image or
the device, with the index as the moving part; it ends where the device has no more slots, and the
index is always one that a valid device can have, so nothing is lost by cutting it to sixteen bits.
-/

namespace Fieldbus

/-! ## Images of the shape of a device

Packing wants one value for each element of each signal, and unpacking gives as many. An image has
the shape of a device for one direction; the other side of it plays no part. -/

/-- How many values each signal of a slot has in the image. -/
def SlotImage.shape (s : SlotImage) : Array Nat := s.signals.map Array.size

/-- How many elements each signal of a slot has. -/
def Slot.shape (s : Slot) (dir : Direction) : Array Nat := (s.signals dir).map Signal.elements

/-- The slots of an image have the shape of a device's slots: as many slots, in each as many
signals, and for each of them one value per element. -/
def Shaped (d : Device) (dir : Direction) (slots : Array SlotImage) : Prop :=
  slots.map SlotImage.shape = d.slots.map (·.shape dir)

/-- A slot of an image has the shape of slot `i` of a device. -/
def SlotImage.FitsAt (s : SlotImage) (d : Device) (dir : Direction) (i : Nat) : Prop :=
  ∃ x, d.slots[i]? = some x ∧ s.shape = x.shape dir

/-- The first signals of a slot have their values, one for each element. -/
def HaveElements (x : Slot) (dir : Direction) (values : Array (Array UInt64)) : Prop :=
  ∀ j (hj : j < values.size), ∃ y, (x.signals dir)[j]? = some y ∧ values[j].size = y.elements

section Shape
variable {d : Device} {dir : Direction} {slots : Array SlotImage} {s : SlotImage} {i j : Nat}

theorem Shaped.size_eq (h : Shaped d dir slots) : slots.size = d.slots.size := by
  have hsize := congrArg Array.size h
  rwa [Array.size_map, Array.size_map] at hsize

/-- Slots have the shape of a device if they are as many and have it one by one. -/
theorem shaped_iff : Shaped d dir slots ↔
    slots.size = d.slots.size ∧ ∀ i (hi : i < slots.size), slots[i].FitsAt d dir i := by
  constructor
  · intro h
    refine ⟨h.size_eq, fun i hi => ?_⟩
    have hget := congrArg (fun shapes : Array (Array Nat) => shapes[i]?) h
    simp only [Array.getElem?_map, Array.getElem?_eq_getElem hi, Option.map_some] at hget
    obtain ⟨x, hx, hshape⟩ := Option.map_eq_some_iff.1 hget.symm
    exact ⟨x, hx, hshape.symm⟩
  · rintro ⟨hsize, hall⟩
    apply Array.ext
    · rw [Array.size_map, Array.size_map, hsize]
    · intro i hi hi'
      rw [Array.size_map] at hi hi'
      obtain ⟨x, hx, hshape⟩ := hall i hi
      rw [Array.getElem?_eq_getElem hi', Option.some_inj] at hx
      rw [Array.getElem_map, Array.getElem_map, hshape, hx]

/-- All values of a slot are those of a signal, one per element of its field. -/
theorem SlotImage.FitsAt.exists_field (h : s.FitsAt d dir i) (hj : j < s.signals.size) :
    ∃ f, d.SignalAt dir i j f ∧ s.signals[j].size = f.count := by
  obtain ⟨x, hx, hshape⟩ := h
  have hget := congrArg (fun shape : Array Nat => shape[j]?) hshape
  simp only [shape, Slot.shape, Array.getElem?_map, Array.getElem?_eq_getElem hj,
    Option.map_some] at hget
  obtain ⟨y, hy, hsize⟩ := Option.map_eq_some_iff.1 hget.symm
  exact ⟨_, ⟨x, y, hx, hy, rfl⟩, hsize.symm⟩

theorem SlotImage.FitsAt.size_signals (h : s.FitsAt d dir i) {x : Slot}
    (hx : d.slots[i]? = some x) : s.signals.size = (x.signals dir).size := by
  obtain ⟨x', hx', hshape⟩ := h
  rw [hx] at hx'
  cases hx'
  have hsize := congrArg Array.size hshape
  rwa [shape, Slot.shape, Array.size_map, Array.size_map] at hsize

/-- Every signal has its values. -/
theorem SlotImage.FitsAt.lt_size (h : s.FitsAt d dir i) {f : BitField}
    (hf : d.SignalAt dir i j f) : j < s.signals.size := by
  obtain ⟨x, y, hx, hy, -⟩ := hf
  rw [h.size_signals hx]
  exact (Array.getElem?_eq_some_iff.1 hy).1

theorem SlotImage.FitsAt.exists_status (h : s.FitsAt d dir i) : ∃ t, d.StatusAt dir i t := by
  obtain ⟨x, hx, -⟩ := h
  exact ⟨_, x, hx, rfl⟩

/-- With one value for each element of each signal, a slot of an image has the shape of the
device. -/
theorem HaveElements.fitsAt {x : Slot} (h : HaveElements x dir s.signals)
    (hx : d.slots[i]? = some x) (hsize : s.signals.size = (x.signals dir).size) :
    s.FitsAt d dir i := by
  refine ⟨x, hx, ?_⟩
  unfold SlotImage.shape Slot.shape
  apply Array.ext
  · rw [Array.size_map, Array.size_map, hsize]
  · intro j hj hj'
    rw [Array.size_map] at hj hj'
    obtain ⟨y, hy, hvalues⟩ := h j hj
    rw [Array.getElem?_eq_getElem hj', Option.some_inj] at hy
    rw [Array.getElem_map, Array.getElem_map, hvalues, hy]

theorem SlotImage.shape_zero (signals : Array Signal) :
    (SlotImage.zero signals).shape = signals.map Signal.elements := by
  rw [shape, zero, Array.map_map]
  congr 1
  funext x
  exact Array.size_replicate

/-- An image of zeros has the shape of its device. -/
theorem shaped_zero (d : Device) (dir : Direction) :
    Shaped d dir ((ProcessImage.zero d).slots dir) := by
  cases dir <;>
    simp only [Shaped, ProcessImage.slots, ProcessImage.zero, Array.map_map, Function.comp_def,
      SlotImage.shape_zero] <;>
    rfl

end Shape

/-! ## Images held by a frame

A frame holds an image if each value has its bits in it, where values may have more bits than there
is room for; it reads as an image if it holds it and no value has more. So what a frame reads as is
one image only, while it holds many, all with the same reduced one. -/

/-- The frame holds slot `s` of an image at index `i`: its values, and its status byte. -/
def HoldsSlot (d : Device) (dir : Direction) (order : ByteOrder) (frame : Bytes) (i : Nat)
    (s : SlotImage) : Prop :=
  (∀ j (hj : j < s.signals.size) f, d.SignalAt dir i j f → f.Holds order frame s.signals[j]) ∧
    ∀ t, d.StatusAt dir i t → frame.getD t 0 = s.status

/-- Slot `s` is what the frame reads as at index `i`. -/
def ReadsSlot (d : Device) (dir : Direction) (order : ByteOrder) (frame : Bytes) (i : Nat)
    (s : SlotImage) : Prop :=
  (∀ j (hj : j < s.signals.size) f, d.SignalAt dir i j f → f.Reads order frame s.signals[j]) ∧
    ∀ t, d.StatusAt dir i t → frame.getD t 0 = s.status

/-- The frame holds the slots of an image. -/
def FrameHolds (d : Device) (dir : Direction) (order : ByteOrder) (frame : Bytes)
    (slots : Array SlotImage) : Prop :=
  ∀ i (hi : i < slots.size), HoldsSlot d dir order frame i slots[i]

/-- The slots are what the frame reads as. -/
def FrameReads (d : Device) (dir : Direction) (order : ByteOrder) (frame : Bytes)
    (slots : Array SlotImage) : Prop :=
  ∀ i (hi : i < slots.size), ReadsSlot d dir order frame i slots[i]

/-- A slot with each element reduced to the width of its signal. -/
def SlotImage.reduced (signals : Array Signal) (s : SlotImage) : SlotImage where
  signals := Array.zipWith (fun x values => values.map (· &&& lowMask x.width)) signals s.signals
  status := s.status

/-- Slots with each element reduced to the width of its signal. -/
def reducedSlots (d : Device) (dir : Direction) (slots : Array SlotImage) : Array SlotImage :=
  Array.zipWith (fun x s => s.reduced (x.signals dir)) d.slots slots

/-! ## Packing

Signals are written one after another, then the status byte, then the next slot. The invariant is
that what was written stays held, since what is written later lies behind it, and that nothing has
changed at positions that carry nothing. -/

section Pack
variable {d : Device} {dir : Direction}

/-- Indices of a valid device are kept when they are cut to sixteen bits. -/
theorem toNat_ofNat_of_le {i : Nat} (h : i ≤ maxItems) : (UInt16.ofNat i).toNat = i := by
  unfold maxItems at h
  rw [UInt16.toNat_ofNat']
  omega

/-- Signals of a valid slot can be indexed, in either direction. -/
theorem signals_le_of_valid {s : Slot} (hv : s.Valid) (dir : Direction) :
    (s.signals dir).size ≤ maxItems := by
  cases dir with
  | tx => exact hv.inputs_le
  | rx => exact hv.outputs_le

theorem SignalAt.slot_le (hd : d.Valid) {i j : Nat} {f : BitField} (h : d.SignalAt dir i j f) :
    i ≤ maxItems ∧ j ≤ maxItems := by
  obtain ⟨s, x, hs, hx, -⟩ := h
  have hi := (Array.getElem?_eq_some_iff.1 hs).1
  have hj := (Array.getElem?_eq_some_iff.1 hx).1
  have hslots := hd.slots_le
  have hsignals := signals_le_of_valid (hd.slots s (Array.mem_of_getElem? hs)) dir
  omega

/-- The field of a signal of a valid device, by the indices the loops use. -/
theorem field_ownView_ofNat (hd : d.Valid) (order : ByteOrder) {i j : Nat} {f : BitField}
    (h : d.SignalAt dir i j f) :
    (d.ownView dir order).field (UInt16.ofNat i) (UInt16.ofNat j) = .ok f := by
  obtain ⟨hi, hj⟩ := SignalAt.slot_le hd h
  rw [Device.field_ownView, toNat_ofNat_of_le hi, toNat_ofNat_of_le hj]
  exact h

/-- The status byte of a slot of a valid device, by the index the loops use. -/
theorem statusPlace_ownView_ofNat (hd : d.Valid) (order : ByteOrder) {i t : Nat}
    (h : d.StatusAt dir i t) {frame : Bytes} (hsize : frame.size = d.frameSize dir) :
    (d.ownView dir order).statusPlace frame (UInt16.ofNat i) = .ok t := by
  have hi : i ≤ maxItems := by
    obtain ⟨s, hs, -⟩ := h
    have := (Array.getElem?_eq_some_iff.1 hs).1
    have := hd.slots_le
    omega
  unfold FrameView.statusPlace
  rw [Device.checkSize_ownView.2 hsize]
  have hoff : (d.ownView dir order).map.statusOffset (UInt16.ofNat i) = some t := by
    rw [Device.statusOffset_ownView, toNat_ofNat_of_le hi]
    exact h
  simp only [hoff]

/-- Writing the signals of slot `i` from index `j` on, as many as are left. -/
theorem packSignals_spec (hd : d.Valid) (order : ByteOrder) (i : Nat)
    (rest : List (Array UInt64)) :
    ∀ (j : Nat) (frame : Bytes), frame.size = d.frameSize dir →
      (∀ k (hk : k < rest.length), ∃ f, d.SignalAt dir i (j + k) f ∧ rest[k].size = f.count) →
      ∃ packed, ProcessImage.packSignals (d.ownView dir order) (UInt16.ofNat i) j rest frame =
          (.ok (), packed) ∧
        packed.size = frame.size ∧
        (∀ k (hk : k < rest.length) f, d.SignalAt dir i (j + k) f →
          f.Holds order packed rest[k]) ∧
        ∀ p, (∀ k f, d.SignalAt dir i (j + k) f → ¬ f.Covers p) →
          bitAt order packed p = bitAt order frame p := by
  induction rest with
  | nil =>
    intro j frame _ _
    exact ⟨frame, rfl, rfl, fun k hk => absurd hk (Nat.not_lt_zero k), fun _ _ => rfl⟩
  | cons values rest ih =>
    intro j frame hframe hshape
    obtain ⟨f, hf, hcount⟩ := hshape 0 (Nat.zero_lt_succ _)
    rw [Nat.add_zero] at hf
    change values.size = f.count at hcount
    obtain ⟨first, hfirst, hsize, hholds, hout⟩ :=
      BitField.pack_spec order (hf.fits hframe) hcount
    -- the signals behind this one leave the positions that it covers
    obtain ⟨packed, hpacked, hsize', hall, hout'⟩ := ih (j + 1) first (hsize.trans hframe) (by
      intro k hk
      rw [show j + 1 + k = j + (k + 1) by omega]
      exact hshape (k + 1) (Nat.succ_lt_succ hk))
    refine ⟨packed, ?_, hsize'.trans hsize, ?_, ?_⟩
    · rw [ProcessImage.packSignals, FrameView.packField, field_ownView_ofNat hd order hf]
      dsimp only
      rw [show (d.ownView dir order).order = order from rfl, hfirst]
      exact hpacked
    · intro k hk f' hf'
      cases k with
      | zero =>
        -- the field just written is covered by none of the later ones
        rw [Nat.add_zero] at hf'
        rw [hf'.unique hf]
        refine hholds.congr fun p hp => hout' p fun k f'' hf'' hp' => ?_
        have hj := hf.eq_of_occupies hf'' hp.occupies hp'.occupies
        omega
      | succ k =>
        rw [show j + (k + 1) = j + 1 + k by omega] at hf'
        exact hall k (Nat.lt_of_succ_lt_succ hk) f' hf'
    · intro p hp
      rw [hout' p, hout p]
      · exact hp 0 f hf
      · intro k f' hf'
        rw [show j + 1 + k = j + (k + 1) by omega] at hf'
        exact hp (k + 1) f' hf'

/-- Replacing a byte replaces its bits and no other. -/
theorem bitAt_setIfInBounds_of_ne (order : ByteOrder) (data : Bytes) (byte : UInt8) {t p : Nat}
    (h : p / 8 ≠ t) : bitAt order (data.setIfInBounds t byte) p = bitAt order data p := by
  unfold bitAt
  rw [Array.getD_eq_getD_getElem?, Array.getD_eq_getD_getElem?, Array.getElem?_setIfInBounds,
    if_neg (Ne.symm h)]

theorem getD_setIfInBounds_self {data : Bytes} {t : Nat} (h : t < data.size) (byte : UInt8) :
    (data.setIfInBounds t byte).getD t 0 = byte := by
  rw [Array.getD_eq_getD_getElem?, Array.getElem?_setIfInBounds, if_pos rfl, if_pos h,
    Option.getD_some]

/-- What is held of a slot depends on the positions that carry something of it. -/
theorem HoldsSlot.congr {order : ByteOrder} {a b : Bytes} {i : Nat} {s : SlotImage}
    (h : HoldsSlot d dir order a i s)
    (heq : ∀ p, d.CarriesAt dir i p → bitAt order b p = bitAt order a p) :
    HoldsSlot d dir order b i s := by
  refine ⟨fun j hj f hf => ?_, fun t ht => ?_⟩
  · exact (h.1 j hj f hf).congr fun p hp => heq p (Or.inl ⟨j, f, hf, hp⟩)
  · rw [← h.2 t ht]
    exact getD_eq_of_bitAt_eq fun p hp => heq p (Or.inr (hp ▸ ht))

/-- A frame that holds the signals of a slot comes to hold the slot when its status is put in. -/
theorem holdsSlot_setIfInBounds {order : ByteOrder} {frame : Bytes} {i t : Nat} {s : SlotImage}
    (hsignals : ∀ j (hj : j < s.signals.size) f, d.SignalAt dir i j f →
      f.Holds order frame s.signals[j])
    (ht : d.StatusAt dir i t) (hlt : t < frame.size) :
    HoldsSlot d dir order (frame.setIfInBounds t s.status) i s := by
  refine ⟨fun j hj f hf => ?_, fun t' ht' => ?_⟩
  · refine (hsignals j hj f hf).congr fun p hp => bitAt_setIfInBounds_of_ne order frame s.status ?_
    -- the status byte lies behind all signals of its slot
    have := hf.lt_status hp.occupies ht
    omega
  · rw [ht'.unique ht, getD_setIfInBounds_self hlt]

/-- Writing the slots from index `i` on, as many as are left. -/
theorem packSlots_spec (hd : d.Valid) (order : ByteOrder) (rest : List SlotImage) :
    ∀ (i : Nat) (frame : Bytes), frame.size = d.frameSize dir →
      (∀ k (hk : k < rest.length), rest[k].FitsAt d dir (i + k)) →
      ∃ packed, ProcessImage.packSlots (d.ownView dir order) i rest frame = (.ok (), packed) ∧
        packed.size = frame.size ∧
        (∀ k (hk : k < rest.length), HoldsSlot d dir order packed (i + k) rest[k]) ∧
        ∀ p, (∀ k, ¬ d.CarriesAt dir (i + k) p) → bitAt order packed p = bitAt order frame p := by
  induction rest with
  | nil =>
    intro i frame _ _
    exact ⟨frame, rfl, rfl, fun k hk => absurd hk (Nat.not_lt_zero k), fun _ _ => rfl⟩
  | cons s rest ih =>
    intro i frame hframe hshape
    have hhead : s.FitsAt d dir i := hshape 0 (Nat.zero_lt_succ _)
    obtain ⟨t, ht⟩ := hhead.exists_status
    obtain ⟨first, hfirst, hsize, hholds, hout⟩ :=
      packSignals_spec hd order i s.signals.toList 0 frame hframe (by
        intro k hk
        rw [Nat.zero_add]
        exact hhead.exists_field hk)
    have hplace := statusPlace_ownView_ofNat hd order ht (hsize.trans hframe)
    have hlt : t < first.size := by
      rw [hsize, hframe]
      exact ht.lt_frameSize
    obtain ⟨packed, hpacked, hsize', hall, hout'⟩ :=
      ih (i + 1) (first.setIfInBounds t s.status)
        (by rw [Array.size_setIfInBounds, hsize, hframe]) (by
          intro k hk
          rw [show i + 1 + k = i + (k + 1) by omega]
          exact hshape (k + 1) (Nat.succ_lt_succ hk))
    refine ⟨packed, ?_, ?_, ?_, ?_⟩
    · rw [ProcessImage.packSlots, hfirst]
      simp only [hplace]
      exact hpacked
    · rw [hsize', Array.size_setIfInBounds, hsize]
    · intro k hk
      cases k with
      | zero =>
        -- the slot just written carries nothing of the later ones
        have hhere : HoldsSlot d dir order (first.setIfInBounds t s.status) i s := by
          refine holdsSlot_setIfInBounds (fun j hj f hf => ?_) ht hlt
          have hj' := hholds j hj f (by rw [Nat.zero_add]; exact hf)
          rwa [Array.getElem_toList] at hj'
        refine hhere.congr fun p hp => hout' p fun k hp' => ?_
        have := hp.inSlot.unique hp'.inSlot
        omega
      | succ k =>
        rw [show i + (k + 1) = i + 1 + k by omega]
        exact hall k (Nat.lt_of_succ_lt_succ hk)
    · intro p hp
      rw [hout', bitAt_setIfInBounds_of_ne, hout]
      · intro k f hf hp'
        rw [Nat.zero_add] at hf
        exact hp 0 (Or.inl ⟨k, f, hf, hp'⟩)
      · intro e
        exact hp 0 (Or.inr (e ▸ ht))
      · intro k
        rw [show i + 1 + k = i + (k + 1) by omega]
        exact hp (k + 1)

end Pack

/-! ## Unpacking

Reading changes no frame, so what is read of each slot is said of one and the same frame, and put
together at the end. -/

section Unpack
variable {d : Device} {dir : Direction}

/-- Reading the signals of slot `i` from index `j` on, as many as are left. -/
theorem unpackSignals_spec (hd : d.Valid) (order : ByteOrder) (i : Nat) {frame : Bytes}
    (hframe : frame.size = d.frameSize dir) :
    ∀ (n j : Nat) (read : Array (Array UInt64)), read.size = j →
      (∀ k < j + n, ∃ f, d.SignalAt dir i k f) →
      (∀ k (hk : k < read.size) f, d.SignalAt dir i k f → f.Reads order frame read[k]) →
      ∃ all, ProcessImage.unpackSignals (d.ownView dir order) frame (UInt16.ofNat i) j n read =
          .ok all ∧
        all.size = j + n ∧
        ∀ k (hk : k < all.size) f, d.SignalAt dir i k f → f.Reads order frame all[k] := by
  intro n
  induction n with
  | zero =>
    intro j read hsize _ hread
    exact ⟨read, rfl, hsize, hread⟩
  | succ n ih =>
    intro j read hsize hfields hread
    obtain ⟨f, hf⟩ := hfields j (by omega)
    obtain ⟨values, hvalues, hreads⟩ := BitField.unpack_spec order (hf.fits hframe)
    subst hsize
    have hnew : ∀ f', d.SignalAt dir i read.size f' → f'.Reads order frame values := by
      intro f' hf'
      rw [hf'.unique hf]
      exact hreads
    obtain ⟨all, hall, hlen, hreads'⟩ := ih (read.size + 1) (read.push values)
      (Array.size_push ..) (fun k hk => hfields k (by omega))
      (forall_push (P := fun k s => ∀ f, d.SignalAt dir i k f → f.Reads order frame s) hread hnew)
    refine ⟨all, ?_, by omega, hreads'⟩
    rw [ProcessImage.unpackSignals, FrameView.unpackField, field_ownView_ofNat hd order hf]
    dsimp only
    rw [show (d.ownView dir order).order = order from rfl, hvalues]
    exact hall

/-- As many values as the field has elements: a slot that is read has the shape of the device. -/
theorem ReadsSlot.fitsAt {order : ByteOrder} {frame : Bytes} {i : Nat} {s : SlotImage} {x : Slot}
    (h : ReadsSlot d dir order frame i s) (hx : d.slots[i]? = some x)
    (hsize : s.signals.size = (x.signals dir).size) : s.FitsAt d dir i := by
  refine HaveElements.fitsAt (fun j hj => ?_) hx hsize
  have hy : (x.signals dir)[j]? = some _ := Array.getElem?_eq_getElem (hsize ▸ hj)
  exact ⟨_, hy, (h.1 j hj _ ⟨x, _, hx, hy, rfl⟩).size⟩

/-- Reading the slots from index `i` on, as many as are left. -/
theorem unpackSlots_spec (hd : d.Valid) (order : ByteOrder) {frame : Bytes}
    (hframe : frame.size = d.frameSize dir) (rest : List Slot) :
    ∀ (i : Nat) (read : Array SlotImage), read.size = i →
      (∀ k (hk : k < rest.length), d.slots[i + k]? = some rest[k]) →
      (∀ k (hk : k < read.size), read[k].FitsAt d dir k ∧
        ReadsSlot d dir order frame k read[k]) →
      ∃ all, ProcessImage.unpackSlots (d.ownView dir order) dir frame i rest read = .ok all ∧
        all.size = i + rest.length ∧
        ∀ k (hk : k < all.size), all[k].FitsAt d dir k ∧
          ReadsSlot d dir order frame k all[k] := by
  induction rest with
  | nil =>
    intro i read hsize _ hread
    exact ⟨read, rfl, hsize, hread⟩
  | cons x rest ih =>
    intro i read hsize hslots hread
    have hx : d.slots[i]? = some x := hslots 0 (Nat.zero_lt_succ _)
    have ht : d.StatusAt dir i _ := ⟨x, hx, rfl⟩
    have hsignal : ∀ k < 0 + (x.signals dir).size, ∃ f, d.SignalAt dir i k f := by
      intro k hk
      rw [Nat.zero_add] at hk
      exact ⟨_, x, (x.signals dir)[k], hx, Array.getElem?_eq_getElem hk, rfl⟩
    -- all signals of the slot, from the first on
    obtain ⟨signals, hsignals, hlen, hreads⟩ := unpackSignals_spec hd order i hframe
      (x.signals dir).size 0 #[] rfl hsignal (fun k hk => absurd hk (Nat.not_lt_zero k))
    have hplace := statusPlace_ownView_ofNat hd order ht hframe
    have hslot : ReadsSlot d dir order frame i
        ⟨signals, frame.getD (d.slotStart dir i + (x.signalSizes dir).sum) 0⟩ :=
      ⟨hreads, fun t' ht' => by rw [ht'.unique ht]⟩
    have hfits := hslot.fitsAt hx (by rw [hlen, Nat.zero_add])
    subst hsize
    -- the slots that are left are looked for one index further on
    have hrest : ∀ k (hk : k < rest.length), d.slots[read.size + 1 + k]? = some rest[k] := by
      intro k hk
      rw [show read.size + 1 + k = read.size + (k + 1) by omega]
      exact hslots (k + 1) (Nat.succ_lt_succ hk)
    obtain ⟨all, hall, hlen', hreads'⟩ := ih (read.size + 1) _ (Array.size_push ..) hrest
      (forall_push (P := fun k s => s.FitsAt d dir k ∧ ReadsSlot d dir order frame k s) hread
        ⟨hfits, hslot⟩)
    refine ⟨all, ?_, by rw [hlen', List.length_cons]; omega, hreads'⟩
    rw [ProcessImage.unpackSlots, hsignals]
    simp only [FrameView.status, hplace]
    exact hall

/-- What a frame reads as is held by it. -/
theorem FrameReads.holds {order : ByteOrder} {frame : Bytes} {slots : Array SlotImage}
    (h : FrameReads d dir order frame slots) : FrameHolds d dir order frame slots :=
  fun i hi => ⟨fun j hj f hf => ((h i hi).1 j hj f hf).holds, (h i hi).2⟩

theorem SlotImage.eq_of_parts {a b : SlotImage} (hsignals : a.signals = b.signals)
    (hstatus : a.status = b.status) : a = b := by
  cases a
  cases b
  cases hsignals
  cases hstatus
  rfl

/-- A slot read from a frame is the slot that the frame holds there, reduced. -/
theorem ReadsSlot.eq_reduced {order : ByteOrder} {frame : Bytes} {i : Nat} {read s : SlotImage}
    {x : Slot} (h : ReadsSlot d dir order frame i read) (hread : read.FitsAt d dir i)
    (hholds : HoldsSlot d dir order frame i s) (hs : s.FitsAt d dir i)
    (hx : d.slots[i]? = some x) : read = s.reduced (x.signals dir) := by
  have hsize := hread.size_signals hx
  have hsize' := hs.size_signals hx
  apply SlotImage.eq_of_parts
  · apply Array.ext
    · rw [SlotImage.reduced, Array.size_zipWith, hsize, hsize', Nat.min_self]
    · intro j hj hj'
      have hjx : j < (x.signals dir).size := by rwa [← hsize]
      have hf : d.SignalAt dir i j _ := ⟨x, _, hx, Array.getElem?_eq_getElem hjx, rfl⟩
      have heq := (h.1 j hj _ hf).eq_of_holds hf.bits_bounds.2 (hholds.1 j (by omega) _ hf)
      simp only [SlotImage.reduced, Array.getElem_zipWith]
      exact heq
  · obtain ⟨t, ht⟩ := hs.exists_status
    rw [← h.2 t ht, hholds.2 t ht]
    rfl

/-- **What a frame reads as is what it holds**, with each element reduced to its width. -/
theorem FrameReads.eq_reducedSlots {order : ByteOrder} {frame : Bytes}
    {read slots : Array SlotImage} (h : FrameReads d dir order frame read)
    (hread : Shaped d dir read) (hslots : Shaped d dir slots)
    (hholds : FrameHolds d dir order frame slots) : read = reducedSlots d dir slots := by
  obtain ⟨hsize, hfits⟩ := shaped_iff.1 hread
  obtain ⟨hsize', hfits'⟩ := shaped_iff.1 hslots
  unfold reducedSlots
  apply Array.ext
  · rw [Array.size_zipWith, hsize, hsize', Nat.min_self]
  · intro i hi hi'
    rw [Array.getElem_zipWith]
    exact (h i hi).eq_reduced (hfits i hi) (hholds i (by omega)) (hfits' i (by omega))
      (Array.getElem?_eq_getElem (by omega))

end Unpack

/-! ## Images and frames

The laws for the views of a device on its own frames, with the length of the frame checked before.
Frames of another length are refused, and then neither frame nor image is changed. -/

section Image
variable {d : Device} {dir : Direction}

/-- **Packing an image.** The frame holds the image afterwards, and every bit that carries nothing
of it is the same. -/
theorem pack_ownView (hd : d.Valid) (order : ByteOrder) {p : ProcessImage}
    (hp : Shaped d dir (p.slots dir)) {frame : Bytes} (hframe : frame.size = d.frameSize dir) :
    ∃ packed, p.pack (d.ownView dir order) frame = (.ok (), packed) ∧
      packed.size = frame.size ∧ FrameHolds d dir order packed (p.slots dir) ∧
      ∀ b, (∀ i, ¬ d.CarriesAt dir i b) → bitAt order packed b = bitAt order frame b := by
  obtain ⟨packed, hpacked, hsize, hholds, hout⟩ :=
    packSlots_spec hd order (p.slots dir).toList 0 frame hframe (by
      intro k hk
      rw [Nat.zero_add]
      exact (shaped_iff.1 hp).2 k hk)
  refine ⟨packed, ?_, hsize, fun i hi => ?_, fun b hb => hout b fun k => hb (0 + k)⟩
  · unfold ProcessImage.pack
    rw [Device.direction_ownView]
    simp only [Device.checkSize_ownView.2 hframe]
    exact hpacked
  · have hslot := hholds i hi
    rwa [Nat.zero_add, Array.getElem_toList] at hslot

/-- **Unpacking a frame.** The slots of its direction become what the frame reads as. -/
theorem unpack_ownView (hd : d.Valid) (order : ByteOrder) {frame : Bytes}
    (hframe : frame.size = d.frameSize dir) :
    ∃ read, Shaped d dir read ∧ FrameReads d dir order frame read ∧
      ∀ p : ProcessImage,
        p.unpack (d.ownView dir order) frame = .ok (p.withSlots dir read) := by
  obtain ⟨read, hread, hsize, hall⟩ := unpackSlots_spec hd order hframe d.slots.toList 0 #[] rfl
    (by
      intro k hk
      rw [Nat.zero_add, ← Array.getElem?_toList]
      exact List.getElem?_eq_getElem hk)
    (fun k hk => absurd hk (Nat.not_lt_zero k))
  rw [Nat.zero_add, Array.length_toList] at hsize
  refine ⟨read, shaped_iff.2 ⟨hsize, fun i hi => (hall i hi).1⟩, fun i hi => (hall i hi).2,
    fun p => ?_⟩
  unfold ProcessImage.unpack
  rw [Device.direction_ownView]
  simp only [Device.checkSize_ownView.2 hframe]
  rw [show (d.ownView dir order).device = d from rfl, hread]

/-- Frames of another length are refused, whatever is to be done with them. -/
theorem checkSize_ownView_eq_error {order : ByteOrder} {frame : Bytes}
    (h : frame.size ≠ d.frameSize dir) :
    (d.ownView dir order).checkSize frame = .error .frameSize := by
  unfold FrameView.checkSize Device.ownView
  rw [FrameMap.size_ofDevice, if_pos h]

/-- **A frame that is refused is left as it is.** -/
theorem pack_ownView_of_ne {order : ByteOrder} (p : ProcessImage) {frame : Bytes}
    (h : frame.size ≠ d.frameSize dir) :
    p.pack (d.ownView dir order) frame = (.error .frameSize, frame) := by
  rw [ProcessImage.pack, Device.direction_ownView]
  simp only [checkSize_ownView_eq_error h]

/-- **A frame that is refused is not read.** -/
theorem unpack_ownView_of_ne {order : ByteOrder} (p : ProcessImage) {frame : Bytes}
    (h : frame.size ≠ d.frameSize dir) :
    p.unpack (d.ownView dir order) frame = .error .frameSize := by
  rw [ProcessImage.unpack, Device.direction_ownView]
  simp only [checkSize_ownView_eq_error h]

/-- **Which frames are packed.** -/
theorem exists_pack_ownView_iff (hd : d.Valid) {order : ByteOrder} {p : ProcessImage}
    (hp : Shaped d dir (p.slots dir)) {frame : Bytes} :
    (∃ packed, p.pack (d.ownView dir order) frame = (.ok (), packed)) ↔
      frame.size = d.frameSize dir := by
  constructor
  · rintro ⟨packed, h⟩
    apply Decidable.of_not_not
    intro hne
    rw [pack_ownView_of_ne p hne] at h
    cases h
  · intro hframe
    obtain ⟨packed, hpacked, -⟩ := pack_ownView hd order hp hframe
    exact ⟨packed, hpacked⟩

/-- **Which frames are unpacked.** -/
theorem exists_unpack_ownView_iff (hd : d.Valid) {order : ByteOrder} {p : ProcessImage}
    {frame : Bytes} :
    (∃ q, p.unpack (d.ownView dir order) frame = .ok q) ↔ frame.size = d.frameSize dir := by
  constructor
  · rintro ⟨q, h⟩
    apply Decidable.of_not_not
    intro hne
    rw [unpack_ownView_of_ne p hne] at h
    cases h
  · intro hframe
    obtain ⟨read, -, -, hread⟩ := unpack_ownView hd order hframe
    exact ⟨_, hread p⟩

/-- **Which signals are read from a frame.** -/
theorem exists_unpackSignal_ownView_iff {order : ByteOrder} {frame : Bytes}
    {slot signal : UInt16} :
    (∃ values, (d.ownView dir order).unpack frame slot signal = .ok values) ↔
      frame.size = d.frameSize dir ∧ ∃ x, d.signal dir slot signal = .ok x := by
  unfold FrameView.unpack
  by_cases hframe : frame.size = d.frameSize dir
  · rw [Device.checkSize_ownView.2 hframe]
    dsimp only [FrameView.unpackField]
    constructor
    · rintro ⟨values, h⟩
      refine ⟨hframe, ?_⟩
      cases hfield : (d.ownView dir order).field slot signal with
      | error e =>
        rw [hfield] at h
        cases h
      | ok f =>
        obtain ⟨s, x, hs, hx, -⟩ := Device.field_ownView.1 hfield
        exact ⟨x, Device.signal_eq_ok_iff.2 ⟨s, hs, hx⟩⟩
    · rintro ⟨-, x, hx⟩
      obtain ⟨s, hs, hx⟩ := Device.signal_eq_ok_iff.1 hx
      have hf : d.SignalAt dir slot.toNat signal.toNat _ := ⟨s, x, hs, hx, rfl⟩
      obtain ⟨values, hvalues, -⟩ := BitField.unpack_spec order (hf.fits hframe)
      refine ⟨values, ?_⟩
      rw [Device.field_ownView.2 hf]
      dsimp only
      rw [show (d.ownView dir order).order = order from rfl, hvalues]
      rfl
  · rw [checkSize_ownView_eq_error hframe]
    constructor
    · rintro ⟨values, h⟩
      cases h
    · exact fun h => absurd h.1 hframe

/-- Two frames that hold one image agree on all that it carries. -/
theorem FrameHolds.bitAt_eq {order : ByteOrder} {a b : Bytes} {slots : Array SlotImage}
    (ha : FrameHolds d dir order a slots) (hb : FrameHolds d dir order b slots)
    (hslots : Shaped d dir slots) {i p : Nat} (h : d.CarriesAt dir i p) :
    bitAt order a p = bitAt order b p := by
  obtain ⟨hsize, hfits⟩ := shaped_iff.1 hslots
  have hi : i < slots.size := by
    rw [hsize]
    rcases h with ⟨j, f, ⟨x, -, hx, -, -⟩, -⟩ | ⟨x, hx, -⟩ <;>
      exact (Array.getElem?_eq_some_iff.1 hx).1
  rcases h with ⟨j, f, hf, hp⟩ | ht
  · have hj := (hfits i hi).lt_size hf
    exact ((ha i hi).1 j hj f hf).bitAt_eq ((hb i hi).1 j hj f hf) hp
  · unfold bitAt
    rw [(ha i hi).2 _ ht, (hb i hi).2 _ ht]

/-- **Packing what a frame holds changes nothing.** -/
theorem FrameHolds.pack_self (hd : d.Valid) {order : ByteOrder} {p : ProcessImage}
    (hp : Shaped d dir (p.slots dir)) {frame : Bytes} (hframe : frame.size = d.frameSize dir)
    (h : FrameHolds d dir order frame (p.slots dir)) :
    p.pack (d.ownView dir order) frame = (.ok (), frame) := by
  obtain ⟨packed, hpacked, hsize, hholds, hout⟩ := pack_ownView hd order hp hframe
  have heq : packed = frame := by
    apply bytes_ext order hsize
    intro b _
    by_cases hb : ∃ i, d.CarriesAt dir i b
    · obtain ⟨i, hi⟩ := hb
      exact hholds.bitAt_eq h hp hi
    · exact hout b fun i hi => hb ⟨i, hi⟩
  rw [hpacked, heq]

end Image

/-! ## Padding

A position of a frame is in some byte of a signal or in a status byte; it carries nothing exactly if
it lies behind the last element of its signal. This is where the layout tiling the frame is used. -/

/-- A position in the last byte of a signal, behind its last element. -/
def FrameView.Padding (v : FrameView) (p : Nat) : Prop :=
  ∃ slot signal f, v.field slot signal = .ok f ∧ f.bit + f.length ≤ p ∧
    p < f.bit + 8 * f.byteLength

/-- **Padding is what carries nothing.** -/
theorem padding_ownView {d : Device} (hd : d.Valid) {dir : Direction} {order : ByteOrder} {p : Nat}
    (hp : p < 8 * d.frameSize dir) :
    (d.ownView dir order).Padding p ↔ ∀ i, ¬ d.CarriesAt dir i p := by
  constructor
  · rintro ⟨slot, signal, f, hfield, hle, hlt⟩ i hcarries
    have hf := Device.field_ownView.1 hfield
    have hocc : f.Occupies p := ⟨Nat.le_trans (Nat.le_add_right _ _) hle, hlt⟩
    -- so the position is in the bytes of this signal only, and past its elements
    rw [hcarries.inSlot.unique (hf.inSlot hocc)] at hcarries
    rcases hcarries with ⟨j, f', hf', hp'⟩ | ht
    · rw [hf'.eq_of_occupies hf hp'.occupies hocc] at hf'
      rw [hf'.unique hf] at hp'
      have := hp'.2
      omega
    · have := hf.lt_status hocc ht
      omega
  · intro h
    rcases Device.exists_place hp with ⟨i, j, f, hf, hle, hlt⟩ | ⟨i, ht⟩
    · refine ⟨UInt16.ofNat i, UInt16.ofNat j, f, field_ownView_ofNat hd order hf, ?_, hlt⟩
      rcases Nat.lt_or_ge p (f.bit + f.length) with hin | hout
      · exact absurd (Or.inl ⟨j, f, hf, hle, hin⟩) (h i)
      · exact hout
    · exact absurd (Or.inr ht) (h i)

end Fieldbus
