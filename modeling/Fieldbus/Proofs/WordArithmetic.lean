import Fieldbus.Proofs.GuardedFrames
import Fieldbus.Proofs.WordMemory
/-!
Words are enough.

What a valid device has is counted by words of sixteen bits: its slots, the signals and parameters
of a slot, the elements of a signal, the bytes of a parameter. So its frames and its parameter
memory have sizes that are bounded once and for all, and so has every position in them. The bounds
are far below the last word of 64 bits, and layouts, access to frames, parameter memories and stores
come out the same in words as in numbers.

One kind of sum does not fit its word. The counters that indices of slots and signals are taken from
go on behind the last index, and for a device with 65535 slots, or as many signals in a slot, there
is no word to go on to (`Device.Valid.stopsIf_packImage`, `Device.Valid.stopsIf_unpackImage`).

That sum is of no use to anybody: an iterator takes an index from its counter before it turns out
that there is no item for it, and so goes on once more than there are items. If sums wrap around the
counter is zero then and the loop ends. If they stop the
program, it stops after the last item.
-/

namespace Fieldbus

/-! ## Indices

A valid device has at most 65535 of everything, so an index that counts them is kept when it is cut
to sixteen bits; and what is looked up by the cut index is what lies there. -/

/-- Whatever a device has is counted by words of sixteen bits: an index that is cut to such a word
is kept, in an image of the device too, and what is found by it is what lies there. -/
structure Device.Countable (d : Device) : Prop where
  slot : ∀ i < d.slots.size, i < 65535 ∧ (UInt16.ofNat i).toNat = i
  signal : ∀ s ∈ d.slots, ∀ dir, ∀ j < (s.signals dir).size,
    j < 65535 ∧ (UInt16.ofNat j).toNat = j
  param : ∀ s ∈ d.slots, ∀ j < s.params.size, j < 65535 ∧ (UInt16.ofNat j).toNat = j
  image : ∀ dir slots, Shaped d dir slots → ∀ i (hi : i < slots.size),
    i < 65535 ∧ ∀ j < slots[i].signals.size, j < 65535
  field : ∀ dir order i j f, d.SignalAt dir i j f →
    (d.ownView dir order).field (UInt16.ofNat i) (UInt16.ofNat j) = .ok f
  signalOffset : ∀ dir i j f, d.SignalAt dir i j f →
    (FrameMap.ofDevice d dir).signalOffset (UInt16.ofNat i) (UInt16.ofNat j) = some (f.bit / 8)
  statusOffset : ∀ dir i t, d.StatusAt dir i t →
    (FrameMap.ofDevice d dir).statusOffset (UInt16.ofNat i) = some t

/-- **Valid devices are countable.** -/
theorem Device.Valid.countable {d : Device} (hd : d.Valid) : d.Countable := by
  have hkept : ∀ {i n : Nat}, i < n → n ≤ maxItems → i < 65535 ∧ (UInt16.ofNat i).toNat = i :=
    fun {i n} hi hn => ⟨Nat.lt_of_lt_of_le hi hn, toNat_ofNat_of_le (by omega)⟩
  have hsignals : ∀ s ∈ d.slots, ∀ dir, (s.signals dir).size ≤ maxItems :=
    fun s hs dir => signals_le_of_valid (hd.slots s hs) dir
  refine ⟨fun i hi => hkept hi hd.slots_le, fun s hs dir j hj => hkept hj (hsignals s hs dir),
    fun s hs j hj => hkept hj (hd.slots s hs).params_le, fun dir slots hslots i hi => ?_,
    fun dir order i j f hf => field_ownView_ofNat hd order hf, fun dir i j f hf => ?_,
    fun dir i t ht => ?_⟩
  · obtain ⟨hsize, hfits⟩ := shaped_iff.1 hslots
    have hi' : i < d.slots.size := by rw [← hsize]; exact hi
    refine ⟨(hkept hi' hd.slots_le).1, fun j hj => ?_⟩
    rw [(hfits i hi).size_signals (Array.getElem?_eq_getElem hi')] at hj
    exact (hkept hj (hsignals _ (Array.getElem_mem hi') dir)).1
  · obtain ⟨hi, hj⟩ := SignalAt.slot_le hd hf
    obtain ⟨s, x, hs, hx, rfl⟩ := hf
    rw [FrameMap.signalOffset_ofDevice, toNat_ofNat_of_le hi, toNat_ofNat_of_le hj, hs,
      Option.bind_some, hx, Option.map_some, Option.some_inj]
    exact (Nat.mul_div_cancel _ (by decide)).symm
  · obtain ⟨s, hs, rfl⟩ := ht
    have hi := (Array.getElem?_eq_some_iff.1 hs).1
    rw [FrameMap.statusOffset_ofDevice, (hkept hi hd.slots_le).2, hs, Option.map_some]

/-! ## Counters

Indices are taken from counters, and a counter goes on behind the last index too. That sum fits its
word for all devices but those that have as many slots, or signals in a slot, as can be counted.
What it gives is never looked up, so where sums wrap around nothing comes of it. -/

/-- As many slots as can be counted, or signals in a slot. -/
def Device.FillsCounter (d : Device) (dir : Direction) : Prop :=
  d.slots.size = maxItems ∨ ∃ s ∈ d.slots, (s.signals dir).size = maxItems

namespace WordView
variable {v : WordView} {frame frame' : Bytes}

/-- Writing a slot overflows its counter of signals if they are as many as can be counted. -/
theorem stopsIf_packSlot {slot : UInt16} {s : SlotImage} (hs : s.signals.size ≤ maxItems)
    (hok : v.packSlot .wraps slot s frame = some (.ok (), frame')) :
    Overflow.StopsIf (s.signals.size = maxItems) (v.packSlot .stops slot s frame)
      (v.packSlot .wraps slot s frame) := by
  unfold packSlot at hok ⊢
  rcases hsignals : v.packSignals .wraps slot 0 s.signals.toList frame with _ | ⟨_ | _, left⟩
  · rw [hsignals] at hok
    cases hok
  · rw [hsignals] at hok
    cases hok
  · have hcounter : Overflow.StopsIf (s.signals.size = maxItems)
        (v.packSignals .stops slot 0 s.signals.toList frame)
        (v.packSignals .wraps slot 0 s.signals.toList frame) :=
      Overflow.stopsIf_forEach_self hs hsignals
    rw [← hsignals]
    exact ⟨fun hfull => by rw [hcounter.stops hfull], fun hroom => by rw [hcounter.goesOn hroom]⟩

/-- Writing slots overflows a counter if they, or the signals of one of them, are as many as can be
counted. -/
theorem stopsIf_packSlots {slots : Array SlotImage} (hslots : slots.size ≤ maxItems)
    (hsignals : ∀ s ∈ slots, s.signals.size ≤ maxItems)
    (hok : v.packSlots .wraps 0 slots.toList frame = some (.ok (), frame')) :
    Overflow.StopsIf (slots.size = maxItems ∨ ∃ s ∈ slots, s.signals.size = maxItems)
      (v.packSlots .stops 0 slots.toList frame) (v.packSlots .wraps 0 slots.toList frame) := by
  refine (Overflow.stopsIf_forEach (P := fun s : SlotImage => s.signals.size = maxItems)
    (by simpa [maxItems] using hslots) hok fun s hs slot frame frame' h => ?_).congr (by simp [maxItems])
  exact stopsIf_packSlot (hsignals s (Array.mem_toList_iff.1 hs)) h

/-- Reading slots overflows a counter if they are as many as can be counted. -/
theorem stopsIf_unpackSlots {dir : Direction} {slots : Array Slot} {read read' : Array SlotImage}
    (hslots : slots.size ≤ maxItems)
    (hok : v.unpackSlots .wraps dir frame 0 slots.toList read = some (.ok (), read')) :
    Overflow.StopsIf (slots.size = maxItems) (v.unpackSlots .stops dir frame 0 slots.toList read)
      (v.unpackSlots .wraps dir frame 0 slots.toList read) :=
  Overflow.stopsIf_forEach_self hslots hok

end WordView

/-- The slots of a shaped image have as many signals as those of the device. -/
theorem Shaped.sizes_eq {d : Device} {dir : Direction} {slots : Array SlotImage}
    (h : Shaped d dir slots) :
    slots.map (·.signals.size) = d.slots.map fun s => (s.signals dir).size := by
  have hsizes := congrArg (Array.map Array.size) h
  simpa [Array.map_map, Function.comp_def, SlotImage.shape, Slot.shape] using hsizes

namespace Device
variable {d : Device} {dir : Direction} {frame : Bytes}

/-- The view of a device by its own layout, in words. -/
def ownWordView (d : Device) (dir : Direction) (order : ByteOrder) : WordView :=
  ⟨d, .ofDevice d dir, order⟩

theorem Valid.plain_ownWordView (hd : d.Valid) (dir : Direction) (order : ByteOrder) :
    (d.ownWordView dir order).plain = d.ownView dir order := by
  unfold ownWordView WordView.plain Device.ownView
  rw [WordFrameMap.plain_ofDevice hd dir]

theorem Valid.exact_ownWordView (hd : d.Valid) (dir : Direction) (order : ByteOrder) :
    (d.ownWordView dir order).Exact :=
  (WordView.sound_ofDevice hd dir d order).exact

/-- **Writing an image overflows a counter** exactly if the device has as many slots as can be
counted, or as many signals in a slot. -/
theorem Valid.stopsIf_packImage (hd : d.Valid) (order : ByteOrder) {p : ProcessImage}
    (hp : Shaped d dir (p.slots dir)) (hframe : frame.size = d.frameSize dir) :
    Overflow.StopsIf (d.FillsCounter dir) ((d.ownWordView dir order).packImageBy .stops p frame)
      ((d.ownWordView dir order).packImage p frame) := by
  have hslots := hd.slots_le
  rw [← hp.size_eq] at hslots
  have hsizes := hp.sizes_eq
  have hsignals : ∀ s ∈ p.slots dir, s.signals.size ≤ maxItems := by
    intro s hs
    have hmem := Array.mem_map_of_mem (f := fun s : SlotImage => s.signals.size) hs
    rw [hsizes] at hmem
    obtain ⟨x, hx, heq⟩ := Array.mem_map.1 hmem
    exact heq ▸ signals_le_of_valid (hd.slots x hx) dir
  have hfull : ((p.slots dir).size = maxItems ∨ ∃ s ∈ p.slots dir, s.signals.size = maxItems) ↔
      d.FillsCounter dir := by
    unfold FillsCounter
    rw [hp.size_eq, ← Array.mem_map (f := fun s : SlotImage => s.signals.size), hsizes,
      Array.mem_map]
  obtain ⟨packed, hpacked, -⟩ := pack_ownView hd order hp hframe
  have hok : (d.ownWordView dir order).packImage p frame = some (.ok (), packed) := by
    rw [(hd.exact_ownWordView dir order).packImage, hd.plain_ownWordView, hpacked]
  unfold WordView.packImage WordView.packImageBy at hok ⊢
  rw [hd.plain_ownWordView, direction_ownView] at hok ⊢
  simp only [checkSize_ownView.2 hframe] at hok ⊢
  exact (WordView.stopsIf_packSlots hslots hsignals hok).congr hfull

/-- **Reading a frame overflows a counter** exactly if the device has as many slots as can be
counted. -/
theorem Valid.stopsIf_unpackImage (hd : d.Valid) (order : ByteOrder) (p : ProcessImage)
    (hframe : frame.size = d.frameSize dir) :
    Overflow.StopsIf (d.slots.size = maxItems)
      ((d.ownWordView dir order).unpackImageBy .stops p frame)
      ((d.ownWordView dir order).unpackImage p frame) := by
  obtain ⟨read, -, -, hread⟩ := unpack_ownView hd order hframe
  have hok : (d.ownWordView dir order).unpackImage p frame =
      some (.ok (), p.withSlots dir read) := by
    rw [(hd.exact_ownWordView dir order).unpackImage, hd.plain_ownWordView, hread]
  unfold WordView.unpackImage WordView.unpackImageBy at hok ⊢
  rw [hd.plain_ownWordView, direction_ownView] at hok ⊢
  simp only [checkSize_ownView.2 hframe] at hok ⊢
  obtain ⟨⟨outcome, slots⟩, hslots, hanswer⟩ := Option.map_eq_some_iff.1 hok
  cases outcome with
  | error e => cases hanswer
  | ok _ => exact (WordView.stopsIf_unpackSlots hd.slots_le hslots).map _

end Device
/-- **Words of 64 and of 16 bits are enough for valid devices.** For a device that is accepted,

* each frame is at most as long as the largest one, so that positions in it are below `2 ^ 54`. All
  elements of its signals begin and end at such positions;
* the parameter memory has at most `65535 ^ 3` bytes, fewer than `2 ^ 48`;
* indices of slots, signals and parameters are kept when they are cut to words of sixteen bits;
* layouts are the same in words as in numbers, and so is all access to frames and images by them;
* so are the parameter memory and the parameter store, all access to them, and the length of a
  value, rounded up to bytes;
* the counters of slots and signals overflow behind the last index, and only for a device that has
  as many of these as can be counted. Where that does not stop the program, nothing comes of it. -/
theorem exact_word_arithmetic (d : Device) (hd : d.validate = .ok ()) :
    (∀ dir, (FrameMap.ofDevice d dir).size ≤ 65535 * (65535 * 524280 + 1) ∧
      (FrameMap.ofDevice d dir).size < 2 ^ 51 ∧ 8 * (FrameMap.ofDevice d dir).size < 2 ^ 54 ∧
      ∀ order slot signal f, (d.ownView dir order).field slot signal = .ok f →
        f.bit + f.bits * f.count ≤ 8 * (FrameMap.ofDevice d dir).size ∧
        ∀ k ≤ f.count, f.bit + k * f.bits ≤ 8 * (FrameMap.ofDevice d dir).size) ∧
    (∀ m, ParamMemory.allocate d = some m → m.data.size ≤ 65535 ^ 3 ∧ m.data.size < 2 ^ 48) ∧
    d.Countable ∧
    (∀ dir, (WordFrameMap.ofDevice d dir).plain = FrameMap.ofDevice d dir ∧
      ∀ order, WordView.Exact ⟨d, WordFrameMap.ofDevice d dir, order⟩) ∧
    ((WordMemory.allocate d).map (·.plain) = ParamMemory.allocate d ∧
      ∀ m : WordMemory, m.plain.Of d → m.Exact) ∧
    ((WordStore.ofDevice d).map (·.map WordStore.plain) = some (ParamStore.ofDevice d) ∧
      ∀ s : WordStore, s.plain.Of d → s.Exact d) ∧
    (∀ bits : UInt64, (wordBytesFor bits).toNat = bytesFor bits.toNat) ∧
    ∀ dir order p frame, frame.size = (FrameMap.ofDevice d dir).size →
      (Shaped d dir (p.slots dir) → Overflow.StopsIf (d.FillsCounter dir)
        ((d.ownWordView dir order).packImageBy .stops p frame)
        ((d.ownWordView dir order).packImage p frame)) ∧
      Overflow.StopsIf (d.slots.size = 65535)
        ((d.ownWordView dir order).unpackImageBy .stops p frame)
        ((d.ownWordView dir order).unpackImage p frame) := by
  have hv := (Device.validate_eq_ok_iff d).1 hd
  refine ⟨fun dir => ?_, fun m hm => ?_, hv.countable,
    fun dir => ⟨WordFrameMap.plain_ofDevice hv dir,
      fun order => (WordView.sound_ofDevice hv dir d order).exact⟩,
    ⟨WordMemory.plain_allocate hv, fun _ => WordMemory.exact_of hv⟩,
    ⟨WordStore.plain_ofDevice hv, fun _ => WordStore.exact_of hv⟩, toNat_wordBytesFor,
    fun dir order p frame hframe => ?_⟩
  · have hle := hv.frameSize_le dir
    rw [FrameMap.size_ofDevice]
    refine ⟨hle, by omega, by omega, fun order slot signal f hf => ?_⟩
    have hfits := (Device.field_ownView.1 hf).fits (size_zeroBytes (d.frameSize dir))
    have hstop := hfits.stop_le
    rw [size_zeroBytes] at hstop
    refine ⟨hstop, fun k hk => ?_⟩
    -- an element that begins in the field begins before its end
    have hmul : k * f.bits ≤ f.bits * f.count := by
      rw [Nat.mul_comm f.bits]
      exact Nat.mul_le_mul_right _ hk
    unfold BitField.length at hstop
    omega
  · have hle := hv.paramSize_le
    rw [(ParamMemory.of_allocate hm).2, ParamMemory.fst_place]
    exact ⟨hle, by omega⟩
  · rw [FrameMap.size_ofDevice] at hframe
    exact ⟨fun hp => hv.stopsIf_packImage order hp hframe, hv.stopsIf_unpackImage order p hframe⟩

/-- A device with one signal of as many words as an array can have. -/
def wideDevice : Device where
  name := "wide"
  slots := #[{ name := "only", inputs := #[⟨"words", .uint64, some 65535⟩] }]

/-- The frame of the widest signal, in words, with the byte behind its last element. -/
theorem exact_word_arithmetic_wide :
    wideDevice.validate = .ok () ∧ (WordFrameMap.ofDevice wideDevice .tx).size.toNat = 524281 ∧
      ∀ f, (wideDevice.ownView .tx .big).field 0 0 = .ok f →
        f.bit + f.bits * f.count ≤ 8 * 524281 := by
  have hvalid : wideDevice.validate = .ok () := by
    simp [Device.validate, validateSlots, Slot.validate, wideDevice, maxItems]
  obtain ⟨hframes, -, -, hwords, -⟩ := exact_word_arithmetic wideDevice hvalid
  have hsize : (FrameMap.ofDevice wideDevice .tx).size = 524281 := by decide +kernel
  refine ⟨hvalid, (congrArg FrameMap.size (hwords .tx).1).trans hsize, fun f hf => ?_⟩
  rw [← hsize]
  exact ((hframes .tx).2.2.2 _ _ _ f hf).1

/-- A device with as many slots as can be counted, all of them empty. -/
def crowdedDevice : Device where
  name := "crowded"
  slots := Array.replicate maxItems { name := "empty" }

/-- **Not every device that is accepted has counters that fit their words:** behind the last of as
many slots as can be counted there is no index to go on to. -/
theorem not_all_counters_fit :
    ¬ ∀ d : Device, d.validate = .ok () → ∀ dir order p frame, Shaped d dir (p.slots dir) →
      frame.size = (FrameMap.ofDevice d dir).size →
        ∃ written, (d.ownWordView dir order).packImageBy .stops p frame = some written := by
  intro h
  have hvalid : crowdedDevice.Valid := by
    refine ⟨Nat.le_of_eq Array.size_replicate, fun s hs => ?_⟩
    rw [(Array.mem_replicate.1 hs).2]
    exact (Slot.validate_eq_ok_iff _).1 (by decide +kernel)
  have hshaped := shaped_zero crowdedDevice .tx
  have hframe : (zeroBytes (crowdedDevice.frameSize .tx)).size =
      (FrameMap.ofDevice crowdedDevice .tx).size := by
    rw [size_zeroBytes, FrameMap.size_ofDevice]
  have hstops := (hvalid.stopsIf_packImage .little hshaped (size_zeroBytes _)).stops
    (Or.inl Array.size_replicate)
  obtain ⟨written, hwritten⟩ := h crowdedDevice ((Device.validate_eq_ok_iff _).2 hvalid) .tx
    .little _ _ hshaped hframe
  rw [hstops] at hwritten
  cases hwritten

end Fieldbus
