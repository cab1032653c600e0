import Fieldbus.Proofs.FrameContent
/-!
Lengths and shapes.

What stays whatever the layout of a view is, be it for the device in the view or for another one.
Writing never changes the length of a frame, whether it succeeds or not. And what was read without
an error has the shape of the device: it is the device that tells how many signals there are and how
many elements each has, never the layout (`FrameView.shaped_of_unpack`).

Both are inductions along the loops of packing and unpacking, without any hypothesis on where the
fields lie: a field that leaves the buffer is an error like others, and what was written until then
is written. So they hold also where nothing is known of device and layout together, as for layouts
of another device.
-/

namespace Fieldbus

/-! ## Writing keeps the length

From the bottom up: one value, the elements of a field, a signal, a slot, a frame. Each step either
leaves the buffer or replaces bits of it, so nothing ever grows. -/

theorem BitField.size_writeElements (order : ByteOrder) (bits bit : Nat) (values : List UInt64)
    (data : Bytes) : (writeElements order bits bit values data).2.size = data.size := by
  induction values generalizing bit data with
  | nil => rfl
  | cons value rest ih =>
    unfold writeElements
    split
    · rfl
    · rw [ih, size_placeBits]

theorem BitField.size_pack (f : BitField) (order : ByteOrder) (data : Bytes)
    (values : Array UInt64) : (f.pack order data values).2.size = data.size := by
  unfold pack
  split
  · rfl
  · exact size_writeElements ..

theorem BitField.size_of_set {f : BitField} {order : ByteOrder} {data out : Bytes} {index : Nat}
    {value : UInt64} (h : f.set order data index value = .ok out) : out.size = data.size := by
  unfold set writeBits at h
  split at h
  · cases h
  · split at h
    · cases h
    · cases h
      exact size_placeBits ..

namespace FrameView

theorem size_packField (v : FrameView) (frame : Bytes) (slot signal : UInt16)
    (values : Array UInt64) : (v.packField frame slot signal values).2.size = frame.size := by
  unfold packField
  split
  · rfl
  · next f _ => exact f.size_pack v.order frame values

/-- Writing a signal never changes the length of the frame, whether it fails or not. -/
theorem size_pack (v : FrameView) (frame : Bytes) (slot signal : UInt16)
    (values : Array UInt64) : (v.pack frame slot signal values).2.size = frame.size := by
  unfold pack
  split
  · rfl
  · exact v.size_packField frame slot signal values

/-- Writing an element never changes the length of the frame. -/
theorem size_of_set {v : FrameView} {frame : Bytes} {slot signal : UInt16} {element : Nat}
    {value : Value} {out : Bytes} (h : v.set frame slot signal element value = .ok out) :
    out.size = frame.size := by
  unfold set at h
  split at h
  · cases h
  · split at h
    · cases h
    · next f _ =>
      cases hset : f.set v.order frame element value.toRaw with
      | error e =>
        rw [hset] at h
        cases h
      | ok written =>
        rw [hset] at h
        cases h
        exact BitField.size_of_set hset

end FrameView

namespace ProcessImage
variable {v : FrameView}

theorem size_packSignals (slot : UInt16) (rest : List (Array UInt64)) (signal : Nat)
    (frame : Bytes) : (packSignals v slot signal rest frame).2.size = frame.size := by
  induction rest generalizing signal frame with
  | nil => rfl
  | cons values rest ih =>
    have hsize := v.size_packField frame slot (UInt16.ofNat signal) values
    unfold packSignals
    split
    · next heq => rwa [heq] at hsize
    · next heq =>
      rw [heq] at hsize
      rw [ih, hsize]

theorem size_packSlots (rest : List SlotImage) (slot : Nat) (frame : Bytes) :
    (packSlots v slot rest frame).2.size = frame.size := by
  induction rest generalizing slot frame with
  | nil => rfl
  | cons s rest ih =>
    have hsize := size_packSignals (v := v) (UInt16.ofNat slot) s.signals.toList 0 frame
    unfold packSlots
    split
    · next heq => rwa [heq] at hsize
    · next heq =>
      rw [heq] at hsize
      split
      · exact hsize
      · rw [ih, Array.size_setIfInBounds, hsize]

/-- Writing an image never changes the length of the frame, whether it fails or not. -/
theorem size_pack (p : ProcessImage) (frame : Bytes) : (p.pack v frame).2.size = frame.size := by
  unfold pack
  split
  · rfl
  · split
    · rfl
    · exact size_packSlots ..

end ProcessImage

/-! ## What is read has the shape of the device

A signal is asked for as many elements as the device says, and they are read until one is refused.
So where no error comes, each list is as long as wanted, and the slots are as many as the device
has. -/

namespace BitField

/-- As many values as are asked for, behind those already read. -/
theorem size_of_readElements {order : ByteOrder} {data : Bytes} {bits count : Nat} :
    ∀ {bit : Nat} {read values : Array UInt64},
      readElements order data bits bit count read = .ok values →
        values.size = read.size + count := by
  induction count with
  | zero =>
    intro bit read values h
    cases h
    rfl
  | succ count ih =>
    intro bit read values h
    unfold readElements at h
    split at h
    · cases h
    · rw [ih h, Array.size_push]
      omega

/-- A field that is read has one value per element, wherever it lies. -/
theorem size_of_unpack {f : BitField} {order : ByteOrder} {data : Bytes} {values : Array UInt64}
    (h : f.unpack order data = .ok values) : values.size = f.count := by
  rw [size_of_readElements h]
  exact Nat.zero_add _

end BitField

namespace FrameView
variable {v : FrameView} {dir : Direction} {frame : Bytes}

theorem direction_eq_ok_iff : v.direction = .ok dir ↔ v.map.direction = some dir := by
  unfold direction
  cases v.map.direction <;> simp

/-- A field has as many elements as the signal has in the device, wherever the layout has it. -/
theorem count_of_field (hdir : v.direction = .ok dir) {slot signal : UInt16} {f : BitField}
    (h : v.field slot signal = .ok f) :
    ∃ x, v.device.signal dir slot signal = .ok x ∧ f.count = x.elements := by
  unfold field FrameView.signal at h
  rw [hdir] at h
  dsimp only at h
  split at h
  · cases h
  · next x hx =>
    split at h
    · cases h
    · cases h
      exact ⟨x, hx, rfl⟩

/-- A signal that is read has one value per element that it has in the device. -/
theorem size_of_unpackField (hdir : v.direction = .ok dir) {slot signal : UInt16}
    {values : Array UInt64} (h : v.unpackField frame slot signal = .ok values) :
    ∃ x, v.device.signal dir slot signal = .ok x ∧ values.size = x.elements := by
  unfold unpackField at h
  split at h
  · cases h
  · next f hf =>
    obtain ⟨x, hx, hcount⟩ := count_of_field hdir hf
    cases hunpack : f.unpack v.order frame with
    | error e =>
      rw [hunpack] at h
      cases h
    | ok read =>
      rw [hunpack] at h
      cases h
      exact ⟨x, hx, (BitField.size_of_unpack hunpack).trans hcount⟩

/-- Signals that are read, from the next one on, have their values. -/
theorem haveElements_of_unpackSignals (hdir : v.direction = .ok dir) {slot : UInt16} {s : Slot}
    (hs : v.device.slots[slot.toNat]? = some s) (hle : (s.signals dir).size ≤ maxItems)
    {count : Nat} : ∀ {read all : Array (Array UInt64)},
      read.size + count = (s.signals dir).size → HaveElements s dir read →
      ProcessImage.unpackSignals v frame slot read.size count read = .ok all →
        all.size = (s.signals dir).size ∧ HaveElements s dir all := by
  induction count with
  | zero =>
    intro read all hsize hread h
    cases h
    exact ⟨hsize, hread⟩
  | succ count ih =>
    intro read all hsize hread h
    unfold ProcessImage.unpackSignals at h
    split at h
    · cases h
    · next values hvalues =>
      obtain ⟨x, hx, hlen⟩ := size_of_unpackField hdir hvalues
      obtain ⟨s', hs', hsignal⟩ := Device.signal_eq_ok_iff.1 hx
      cases hs.symm.trans hs'
      rw [toNat_ofNat_of_le (by omega)] at hsignal
      rw [← Array.size_push values] at h
      exact ih (by rw [Array.size_push]; omega)
        (forall_push (P := fun j (a : Array UInt64) =>
          ∃ x, (s.signals dir)[j]? = some x ∧ a.size = x.elements) hread ⟨x, hsignal, hlen⟩) h

/-- Slots that are read, from the next one on, have the shape of the device. -/
theorem fitsAt_of_unpackSlots (hd : v.device.Valid) (hdir : v.direction = .ok dir)
    {rest : List Slot} : ∀ {read all : Array SlotImage},
      (∀ k (hk : k < rest.length), v.device.slots[read.size + k]? = some rest[k]) →
      (∀ i (hi : i < read.size), read[i].FitsAt v.device dir i) →
      ProcessImage.unpackSlots v dir frame read.size rest read = .ok all →
        all.size = read.size + rest.length ∧
          ∀ i (hi : i < all.size), all[i].FitsAt v.device dir i := by
  induction rest with
  | nil =>
    intro read all _ hread h
    cases h
    exact ⟨rfl, hread⟩
  | cons s rest ih =>
    intro read all hslots hread h
    have hs : v.device.slots[read.size]? = some s := hslots 0 (Nat.zero_lt_succ _)
    have hlt := (Array.getElem?_eq_some_iff.1 hs).1
    -- the index is cut to sixteen bits, and kept by that
    have hindex : (UInt16.ofNat read.size).toNat = read.size :=
      toNat_ofNat_of_le (Nat.le_trans (Nat.le_of_lt hlt) hd.slots_le)
    unfold ProcessImage.unpackSlots at h
    split at h
    · cases h
    · next signals hsignals =>
      have hnone : HaveElements s dir #[] := fun j hj => absurd hj (Nat.not_lt_zero j)
      obtain ⟨hsize, hall⟩ := haveElements_of_unpackSignals hdir (by rw [hindex, hs])
        (signals_le_of_valid (hd.slots s (Array.mem_of_getElem? hs)) dir) (Nat.zero_add _) hnone
        hsignals
      split at h
      · cases h
      · next status _ =>
        -- the slots that are left are looked for one index further on
        have hrest : ∀ k (hk : k < rest.length),
            v.device.slots[(read.push ⟨signals, status⟩).size + k]? = some rest[k] := by
          intro k hk
          rw [Array.size_push, show read.size + 1 + k = read.size + (k + 1) by omega]
          exact hslots (k + 1) (Nat.succ_lt_succ hk)
        rw [← Array.size_push ⟨signals, status⟩] at h
        obtain ⟨hlen, hfits⟩ := ih hrest
          (forall_push (P := fun i (a : SlotImage) => a.FitsAt v.device dir i) hread
            (hall.fitsAt hs hsize)) h
        refine ⟨?_, hfits⟩
        rw [hlen, Array.size_push, List.length_cons]
        omega

/-- **What was read without an error has the shape of the device,** whatever the layout is for; it
is the direction of the layout that was read, and no other. -/
theorem shaped_of_unpack (hd : v.device.Valid) {p q : ProcessImage}
    (h : p.unpack v frame = .ok q) : ∃ dir, v.map.direction = some dir ∧
      Shaped v.device dir (q.slots dir) ∧ ∀ other, other ≠ dir → q.slots other = p.slots other := by
  have hread := h
  unfold ProcessImage.unpack at h
  split at h
  · cases h
  · next dir hdir =>
    refine ⟨dir, direction_eq_ok_iff.1 hdir, ?_,
      fun other hne => ProcessImage.slots_unpack_of_ne hread hdir hne⟩
    split at h
    · cases h
    · split at h
      · cases h
      · next slots hslots =>
        cases h
        have hall : ∀ k (hk : k < v.device.slots.toList.length),
            v.device.slots[(#[] : Array SlotImage).size + k]? =
              some v.device.slots.toList[k] := by
          intro k hk
          rw [Array.size_empty, Nat.zero_add, ← Array.getElem?_toList,
            List.getElem?_eq_getElem hk]
        obtain ⟨hsize, hfits⟩ := fitsAt_of_unpackSlots hd hdir hall
          (fun i hi => absurd hi (Nat.not_lt_zero i)) hslots
        rw [ProcessImage.slots_withSlots]
        rw [Array.size_empty, Nat.zero_add, Array.length_toList] at hsize
        exact shaped_iff.2 ⟨hsize, hfits⟩

end FrameView

end Fieldbus
