import Fieldbus.Frame.View
import Fieldbus.Proofs.FieldAccess
/-!
Where things lie that are laid out one after the other.

Several loops of this library place things back to back: the signals of a slot, the slots of a
frame, the parameters of a slot, the slots of a parameter memory. Each remembers where it stands and
what it has placed so far. `Placing` is what they have in common, and `Placing.placed_foldl` is what
they do: item `i` is put at the sum of the sizes before it (`offset`).

For frames, this says where each signal and status byte lies (`Device.field_ownView`,
`Device.statusOffset_ownView`). From there on nothing looks at the loops again: what is used is that
these places follow each other in order, lie in the frame, and leave no gap.

Parameters have no bits and no padding, and use of this module only the offsets and the loops.
-/

namespace Fieldbus

/-! ## Offsets

Sums of the first sizes. They grow, they end with the sum of all, and every place before the end is
in one item, so things laid out one behind the other neither overlap nor leave a gap; that is
arithmetic, and the rest of the library goes by it. -/

/-- Where item `i` starts, if items of the given sizes are laid out from zero on. -/
def offset (sizes : List Nat) (i : Nat) : Nat := (sizes.take i).sum

theorem offset_zero (sizes : List Nat) : offset sizes 0 = 0 := rfl

theorem offset_cons_succ (n : Nat) (rest : List Nat) (i : Nat) :
    offset (n :: rest) (i + 1) = n + offset rest i := rfl

/-- The end of the last item is the sum of all sizes. -/
theorem offset_length (sizes : List Nat) : offset sizes sizes.length = sizes.sum := by
  rw [offset, List.take_length]

/-- Each item starts where the one before it ends. -/
theorem offset_succ {sizes : List Nat} {i n : Nat} (h : sizes[i]? = some n) :
    offset sizes (i + 1) = offset sizes i + n := by
  rw [offset, List.take_add_one, h, List.sum_append]
  simp [offset]

theorem offset_mono (sizes : List Nat) {i j : Nat} (h : i ≤ j) :
    offset sizes i ≤ offset sizes j := by
  induction h with
  | refl => exact Nat.le_refl _
  | @step k _ ih =>
    cases hk : sizes[k]? with
    | none =>
      have hlen : sizes.length ≤ k := List.getElem?_eq_none_iff.1 hk
      have hall : offset sizes (k + 1) = offset sizes k := by
        rw [offset, offset, List.take_of_length_le hlen, List.take_of_length_le (by omega)]
      rw [hall]
      exact ih
    | some n =>
      rw [offset_succ hk]
      omega

theorem offset_le_sum (sizes : List Nat) (i : Nat) : offset sizes i ≤ sizes.sum := by
  rcases Nat.le_total i sizes.length with h | h
  · rw [← offset_length]
    exact offset_mono sizes h
  · have hall : offset sizes i = sizes.sum := by rw [offset, List.take_of_length_le h]
    exact Nat.le_of_eq hall

/-- **Items do not overlap**: one ends before any later one starts. -/
theorem offset_add_le {sizes : List Nat} {i j n : Nat} (h : sizes[i]? = some n) (hij : i < j) :
    offset sizes i + n ≤ offset sizes j := by
  rw [← offset_succ h]
  exact offset_mono sizes hij

/-- Every item ends within the whole. -/
theorem offset_add_le_sum {sizes : List Nat} {i n : Nat} (h : sizes[i]? = some n) :
    offset sizes i + n ≤ sizes.sum := by
  rw [← offset_succ h]
  exact offset_le_sum sizes (i + 1)

/-- **Items leave no gap**: every place before the end is in one of them. -/
theorem exists_offset_le {sizes : List Nat} {b : Nat} (h : b < sizes.sum) :
    ∃ i n, sizes[i]? = some n ∧ offset sizes i ≤ b ∧ b < offset sizes i + n := by
  induction sizes generalizing b with
  | nil => exact absurd h (Nat.not_lt_zero b)
  | cons m rest ih =>
    rw [List.sum_cons] at h
    rcases Nat.lt_or_ge b m with hb | hb
    · exact ⟨0, m, rfl, Nat.zero_le b, by rw [offset_zero]; omega⟩
    · obtain ⟨i, n, hi, hle, hlt⟩ := ih (b := b - m) (by omega)
      refine ⟨i + 1, n, hi, ?_, ?_⟩ <;> rw [offset_cons_succ] <;> omega

/-! ## Loops that place

`Placing` has the state of such a loop in two parts, where it stands and what it has placed, and
asks what one turn does to each. The law of a whole loop is then one induction for all of them. -/

/-- A loop that puts one thing behind the other. -/
structure Placing (α β σ : Type) where
  /-- One turn of the loop. -/
  step : σ → α → σ
  /-- Where the loop stands. -/
  stop : σ → Nat
  /-- What it has placed. -/
  placed : σ → Array β
  /-- The room a thing takes. -/
  size : α → Nat
  /-- A thing put at a place. -/
  put : Nat → α → β
  stop_step : ∀ st x, stop (step st x) = stop st + size x
  placed_step : ∀ st x, placed (step st x) = (placed st).push (put (stop st) x)

namespace Placing
variable {α β σ : Type} (P : Placing α β σ)

/-- The loop ends where all things end. -/
theorem stop_foldl (xs : List α) (st : σ) :
    P.stop (xs.foldl P.step st) = P.stop st + (xs.map P.size).sum := by
  induction xs generalizing st with
  | nil => rfl
  | cons x rest ih =>
    rw [List.foldl_cons, ih, P.stop_step, List.map_cons, List.sum_cons]
    omega

/-- **Each thing is put at its offset.** -/
theorem placed_foldl (xs : List α) (st : σ) :
    (P.placed (xs.foldl P.step st)).toList = (P.placed st).toList ++
      xs.mapIdx fun i x => P.put (P.stop st + offset (xs.map P.size) i) x := by
  induction xs generalizing st with
  | nil => simp
  | cons x rest ih =>
    rw [List.foldl_cons, ih, P.placed_step, P.stop_step, List.mapIdx_cons, Array.toList_push,
      List.append_assoc]
    simp only [List.map_cons, offset_zero, offset_cons_succ, Nat.add_assoc, Nat.add_zero,
      List.singleton_append]

/-- What a loop has placed that started with nothing, by index. -/
theorem getElem?_placed_foldl {st : σ} (h : P.placed st = #[]) (xs : Array α) (i : Nat) :
    (P.placed (xs.foldl P.step st))[i]? =
      xs[i]?.map fun x => P.put (P.stop st + offset (xs.toList.map P.size) i) x := by
  rw [← Array.foldl_toList, ← Array.getElem?_toList, P.placed_foldl, h, List.nil_append,
    List.getElem?_mapIdx, Array.getElem?_toList]

/-- A loop that started with nothing places as much as there is. -/
theorem size_placed_foldl {st : σ} (h : P.placed st = #[]) (xs : Array α) :
    (P.placed (xs.foldl P.step st)).size = xs.size := by
  rw [← Array.length_toList, ← Array.foldl_toList, P.placed_foldl, h, List.nil_append,
    List.length_mapIdx, Array.length_toList]

end Placing

/-! ## Signals in a slot, slots in a frame

The two loops of a layout as placings. A slot takes the bytes of its signals and one for its status,
so the sizes of slots are sums of sizes of signals, and the start of a signal is the start of its
slot with an offset within. -/

/-- The bytes of each signal of a slot. -/
def Slot.signalSizes (s : Slot) (dir : Direction) : List Nat :=
  (s.signals dir).toList.map Signal.byteSize

/-- The bytes of a slot in a frame: its signals and the status byte. -/
def Slot.frameSize (s : Slot) (dir : Direction) : Nat := (s.signalSizes dir).sum + 1

/-- The bytes of each slot in a frame. -/
def Device.slotSizes (d : Device) (dir : Direction) : List Nat :=
  d.slots.toList.map (·.frameSize dir)

/-- The bytes of a frame. -/
def Device.frameSize (d : Device) (dir : Direction) : Nat := (d.slotSizes dir).sum

/-- The signals of a slot are placed one behind the other. -/
def SlotMap.placing : Placing Signal Nat SlotMap where
  step := place
  stop := status
  placed := signals
  size := Signal.byteSize
  put at_ _ := at_
  stop_step _ _ := rfl
  placed_step _ _ := rfl

theorem SlotMap.status_ofSignals (start : Nat) (signals : Array Signal) :
    (ofSignals start signals).status = start + (signals.toList.map Signal.byteSize).sum := by
  unfold ofSignals
  rw [← Array.foldl_toList]
  exact placing.stop_foldl signals.toList (opened start)

theorem SlotMap.getElem?_signals_ofSignals (start : Nat) (signals : Array Signal) (j : Nat) :
    (ofSignals start signals).signals[j]? =
      signals[j]?.map fun _ => start + offset (signals.toList.map Signal.byteSize) j :=
  placing.getElem?_placed_foldl (show placing.placed (opened start) = #[] from rfl) signals j

/-- The slots of a frame are placed one behind the other. -/
def FrameMap.placing (dir : Direction) : Placing Slot SlotMap FrameMap where
  step m s := m.place dir s
  stop := size
  placed := slots
  size s := s.frameSize dir
  put at_ s := SlotMap.ofSignals at_ (s.signals dir)
  stop_step m s := by
    show (SlotMap.ofSignals m.size (s.signals dir)).status + 1 = _
    rw [SlotMap.status_ofSignals, Slot.frameSize, Slot.signalSizes]
    omega
  placed_step _ _ := rfl

/-- The length of a frame is the sum of its slots. -/
theorem FrameMap.size_ofDevice (d : Device) (dir : Direction) :
    (ofDevice d dir).size = d.frameSize dir := by
  unfold ofDevice
  rw [← Array.foldl_toList]
  have h := (placing dir).stop_foldl d.slots.toList { direction := some dir }
  rw [show (placing dir).stop { direction := some dir } = 0 from rfl, Nat.zero_add] at h
  exact h

/-- Each slot lies at its offset. -/
theorem FrameMap.getElem?_slots_ofDevice (d : Device) (dir : Direction) (i : Nat) :
    (ofDevice d dir).slots[i]? =
      d.slots[i]?.map fun s => SlotMap.ofSignals (offset (d.slotSizes dir) i) (s.signals dir) := by
  have h := (placing dir).getElem?_placed_foldl
    (show (placing dir).placed { direction := some dir } = #[] from rfl) d.slots i
  simp only [show (placing dir).stop { direction := some dir } = 0 from rfl, Nat.zero_add] at h
  exact h

theorem Slot.getElem?_signalSizes {s : Slot} {dir : Direction} {j : Nat} {x : Signal}
    (h : (s.signals dir)[j]? = some x) : (s.signalSizes dir)[j]? = some x.byteSize := by
  rw [signalSizes, List.getElem?_map, Array.getElem?_toList, h, Option.map_some]

theorem Device.getElem?_slotSizes {d : Device} {dir : Direction} {i : Nat} {s : Slot}
    (h : d.slots[i]? = some s) : (d.slotSizes dir)[i]? = some (s.frameSize dir) := by
  rw [slotSizes, List.getElem?_map, Array.getElem?_toList, h, Option.map_some]

/-- Where slot `i` starts in a frame. -/
def Device.slotStart (d : Device) (dir : Direction) (i : Nat) : Nat := offset (d.slotSizes dir) i

namespace FrameMap

/-- Look-ups of slots, in terms of what is before them. -/
theorem slotOffset_ofDevice (d : Device) (dir : Direction) (slot : UInt16) :
    (ofDevice d dir).slotOffset slot =
      d.slots[slot.toNat]?.map fun _ => d.slotStart dir slot.toNat := by
  rw [slotOffset, getElem?_slots_ofDevice, Option.map_map]
  congr 1
  funext s
  exact SlotMap.ofSignals_start _ _

/-- Look-ups of status bytes, in terms of what is before them. -/
theorem statusOffset_ofDevice (d : Device) (dir : Direction) (slot : UInt16) :
    (ofDevice d dir).statusOffset slot =
      d.slots[slot.toNat]?.map fun s => d.slotStart dir slot.toNat + (s.signalSizes dir).sum := by
  rw [statusOffset, getElem?_slots_ofDevice, Option.map_map]
  congr 1
  funext s
  exact SlotMap.status_ofSignals _ _

/-- Look-ups of signals, in terms of what is before them. -/
theorem signalOffset_ofDevice (d : Device) (dir : Direction) (slot signal : UInt16) :
    (ofDevice d dir).signalOffset slot signal =
      d.slots[slot.toNat]?.bind fun s => (s.signals dir)[signal.toNat]?.map fun _ =>
        d.slotStart dir slot.toNat + offset (s.signalSizes dir) signal.toNat := by
  rw [signalOffset, getElem?_slots_ofDevice]
  cases d.slots[slot.toNat]? with
  | none => rfl
  | some s => exact SlotMap.getElem?_signals_ofSignals _ _ _

end FrameMap

/-! ## The places of a frame

The look-ups of a layout are by index, in slots and signals that may not be there, and by direction.
`Device.SignalAt` and `Device.StatusAt` say the same of the device, with no layout in it. -/

namespace Device

/-- The frames of a device in one direction, as its own layout has them. -/
def ownView (d : Device) (dir : Direction) (order : ByteOrder) : FrameView :=
  ⟨d, FrameMap.ofDevice d dir, order⟩

/-- The elements of signal `j` of slot `i` lie in the field `f`. -/
def SignalAt (d : Device) (dir : Direction) (i j : Nat) (f : BitField) : Prop :=
  ∃ s x, d.slots[i]? = some s ∧ (s.signals dir)[j]? = some x ∧
    f = ⟨(d.slotStart dir i + offset (s.signalSizes dir) j) * 8, x.width, x.elements⟩

/-- The status byte of slot `i` is byte `t`. -/
def StatusAt (d : Device) (dir : Direction) (i t : Nat) : Prop :=
  ∃ s, d.slots[i]? = some s ∧ t = d.slotStart dir i + (s.signalSizes dir).sum

variable {d : Device} {dir : Direction} {i j : Nat} {f : BitField} {t : Nat}

/-! ### What the layout says

Here look-ups and places are brought together, as equivalences, so they can be used in both
directions: what is found is at that place, and what has a place is found. -/

theorem direction_ownView (d : Device) (dir : Direction) (order : ByteOrder) :
    (d.ownView dir order).direction = .ok dir := by
  unfold FrameView.direction ownView
  rw [FrameMap.ofDevice_direction]

theorem checkSize_ownView {order : ByteOrder} {frame : Bytes} :
    (d.ownView dir order).checkSize frame = .ok () ↔ frame.size = d.frameSize dir := by
  unfold FrameView.checkSize ownView
  rw [FrameMap.size_ofDevice]
  split
  · next h => exact ⟨fun e => (nomatch e), fun e => absurd e h⟩
  · next h => exact ⟨fun _ => Decidable.not_not.1 h, fun _ => rfl⟩

/-- **Where the layout says a signal is.** -/
theorem field_ownView {order : ByteOrder} {slot signal : UInt16} :
    (d.ownView dir order).field slot signal = .ok f ↔
      d.SignalAt dir slot.toNat signal.toNat f := by
  have hdir := d.direction_ownView dir order
  unfold FrameView.field FrameView.signal
  rw [hdir]
  unfold SignalAt
  dsimp only [ownView]
  cases hs : d.signal dir slot signal with
  -- an index that leads nowhere has no place
  | error e =>
    refine ⟨fun h => (nomatch h), ?_⟩
    rintro ⟨s, x, hslot, hsignal, -⟩
    rw [signal_eq_ok_iff.2 ⟨s, hslot, hsignal⟩] at hs
    cases hs
  | ok x =>
    obtain ⟨s, hslot, hsignal⟩ := signal_eq_ok_iff.1 hs
    -- the layout has an offset for every signal of its device
    have hoff : (FrameMap.ofDevice d dir).signalOffset slot signal =
        some (d.slotStart dir slot.toNat + offset (s.signalSizes dir) signal.toNat) := by
      rw [FrameMap.signalOffset_ofDevice, hslot, Option.bind_some, hsignal, Option.map_some]
    rw [hoff]
    constructor
    · intro h
      cases h
      exact ⟨s, x, hslot, hsignal, rfl⟩
    · rintro ⟨s', x', hslot', hsignal', rfl⟩
      rw [hslot] at hslot'
      cases hslot'
      rw [hsignal] at hsignal'
      cases hsignal'
      rfl

/-- **Where the layout says a status byte is.** -/
theorem statusOffset_ownView {order : ByteOrder} {slot : UInt16} :
    (d.ownView dir order).map.statusOffset slot = some t ↔ d.StatusAt dir slot.toNat t := by
  unfold ownView StatusAt
  rw [FrameMap.statusOffset_ofDevice, Option.map_eq_some_iff]
  simp only [eq_comm]

/-! ### The order of the places

What comes before what. Signals of a slot come in order, then its status byte, then the next slot.
Bytes matter here and not only bits, as a signal that ends within a byte has all of it; its last
bits are nobody's. -/

theorem SignalAt.unique {f' : BitField} (h : d.SignalAt dir i j f) (h' : d.SignalAt dir i j f') :
    f = f' := by
  obtain ⟨s, x, hs, hx, rfl⟩ := h
  obtain ⟨s', x', hs', hx', rfl⟩ := h'
  rw [hs] at hs'
  cases hs'
  rw [hx] at hx'
  cases hx'
  rfl

theorem StatusAt.unique {t' : Nat} (h : d.StatusAt dir i t) (h' : d.StatusAt dir i t') :
    t = t' := by
  obtain ⟨s, hs, rfl⟩ := h
  obtain ⟨s', hs', rfl⟩ := h'
  rw [hs] at hs'
  cases hs'
  rfl

/-- The elements of a signal have a width that values can have. -/
theorem SignalAt.bits_bounds (h : d.SignalAt dir i j f) : 1 ≤ f.bits ∧ f.bits ≤ 64 := by
  obtain ⟨s, x, -, -, rfl⟩ := h
  exact x.type.width_bounds

theorem SignalAt.slotStart_le (h : d.SignalAt dir i j f) : 8 * d.slotStart dir i ≤ f.bit := by
  obtain ⟨s, x, -, -, rfl⟩ := h
  show 8 * d.slotStart dir i ≤ (d.slotStart dir i + _) * 8
  omega

/-- A signal ends before any later one of its slot starts. -/
theorem SignalAt.stop_le_of_lt {j' : Nat} {f' : BitField} (h : d.SignalAt dir i j f)
    (h' : d.SignalAt dir i j' f') (hj : j < j') : f.bit + 8 * f.byteLength ≤ f'.bit := by
  obtain ⟨s, x, hs, hx, rfl⟩ := h
  obtain ⟨s', x', hs', -, rfl⟩ := h'
  rw [hs] at hs'
  cases hs'
  have hle := offset_add_le (Slot.getElem?_signalSizes hx) hj
  show _ * 8 + 8 * x.byteSize ≤ _ * 8
  omega

/-- A signal ends before the status byte of its slot. -/
theorem SignalAt.stop_le_status (h : d.SignalAt dir i j f) (ht : d.StatusAt dir i t) :
    f.bit + 8 * f.byteLength ≤ 8 * t := by
  obtain ⟨s, x, hs, hx, rfl⟩ := h
  obtain ⟨s', hs', rfl⟩ := ht
  rw [hs] at hs'
  cases hs'
  have hle := offset_add_le_sum (Slot.getElem?_signalSizes hx)
  show _ * 8 + 8 * x.byteSize ≤ _
  omega

theorem SignalAt.exists_status (h : d.SignalAt dir i j f) : ∃ t, d.StatusAt dir i t := by
  obtain ⟨s, -, hs, -, -⟩ := h
  exact ⟨_, s, hs, rfl⟩

theorem StatusAt.slotStart_le (h : d.StatusAt dir i t) : d.slotStart dir i ≤ t := by
  obtain ⟨s, -, rfl⟩ := h
  exact Nat.le_add_right _ _

/-- The status byte is the last of its slot. -/
theorem StatusAt.succ_eq (h : d.StatusAt dir i t) : t + 1 = d.slotStart dir (i + 1) := by
  obtain ⟨s, hs, rfl⟩ := h
  rw [slotStart, slotStart, offset_succ (getElem?_slotSizes hs), Slot.frameSize]
  omega

/-- The status byte lies in the frame. -/
theorem StatusAt.lt_frameSize (h : d.StatusAt dir i t) : t < d.frameSize dir := by
  have hle : d.slotStart dir (i + 1) ≤ d.frameSize dir := offset_le_sum _ _
  have hsucc := h.succ_eq
  omega

end Device

/-- The bytes of a field, as a range of positions. -/
def BitField.Occupies (f : BitField) (p : Nat) : Prop := f.bit ≤ p ∧ p < f.bit + 8 * f.byteLength

/-- The bytes of a field have room for it. -/
theorem BitField.length_le_byteLength (f : BitField) : f.length ≤ 8 * f.byteLength := by
  unfold byteLength bytesFor
  omega

theorem BitField.Covers.occupies {f : BitField} {p : Nat} (h : f.Covers p) : f.Occupies p := by
  obtain ⟨hle, hlt⟩ := h
  have hlen := f.length_le_byteLength
  exact ⟨hle, by omega⟩

namespace Device
variable {d : Device} {dir : Direction} {i j : Nat} {f : BitField} {t : Nat}

/-- **Every signal fits in the frame.** -/
theorem SignalAt.fits (h : d.SignalAt dir i j f) {frame : Bytes}
    (hsize : frame.size = d.frameSize dir) : f.Fits frame := by
  obtain ⟨t, ht⟩ := h.exists_status
  have hstop := h.stop_le_status ht
  have hlt := ht.lt_frameSize
  have hlen := f.length_le_byteLength
  exact ⟨h.bits_bounds.1, h.bits_bounds.2, by rw [hsize]; omega⟩

/-- A position lies in the bytes of slot `i`. -/
def InSlot (d : Device) (dir : Direction) (i p : Nat) : Prop :=
  8 * d.slotStart dir i ≤ p ∧ p < 8 * d.slotStart dir (i + 1)

theorem SignalAt.inSlot {p : Nat} (h : d.SignalAt dir i j f) (hp : f.Occupies p) :
    d.InSlot dir i p := by
  obtain ⟨hle, hlt⟩ := hp
  obtain ⟨t, ht⟩ := h.exists_status
  have hstart := h.slotStart_le
  have hstop := h.stop_le_status ht
  have hsucc := ht.succ_eq
  exact ⟨by omega, by omega⟩

theorem StatusAt.inSlot {p : Nat} (h : d.StatusAt dir i (p / 8)) : d.InSlot dir i p := by
  have hstart := h.slotStart_le
  have hsucc := h.succ_eq
  exact ⟨by omega, by omega⟩

/-- **No position is in two slots.** -/
theorem InSlot.unique {p i' : Nat} (h : d.InSlot dir i p) (h' : d.InSlot dir i' p) : i = i' := by
  obtain ⟨hle, hlt⟩ := h
  obtain ⟨hle', hlt'⟩ := h'
  rcases Nat.lt_trichotomy i i' with hi | hi | hi
  · have hmono : d.slotStart dir (i + 1) ≤ d.slotStart dir i' := offset_mono _ hi
    omega
  · exact hi
  · have hmono : d.slotStart dir (i' + 1) ≤ d.slotStart dir i := offset_mono _ hi
    omega

/-- **No position is in the bytes of two signals of a slot.** -/
theorem SignalAt.eq_of_occupies {j' p : Nat} {f' : BitField} (h : d.SignalAt dir i j f)
    (h' : d.SignalAt dir i j' f') (hp : f.Occupies p) (hp' : f'.Occupies p) : j = j' := by
  obtain ⟨hle, hlt⟩ := hp
  obtain ⟨hle', hlt'⟩ := hp'
  rcases Nat.lt_trichotomy j j' with hj | hj | hj
  · have hstop := h.stop_le_of_lt h' hj
    omega
  · exact hj
  · have hstop := h'.stop_le_of_lt h hj
    omega

/-- No position in the bytes of a signal is in the status byte of its slot. -/
theorem SignalAt.lt_status {p : Nat} (h : d.SignalAt dir i j f) (hp : f.Occupies p)
    (ht : d.StatusAt dir i t) : p < 8 * t := by
  have hstop := h.stop_le_status ht
  have hlt := hp.2
  omega

/-- A position that carries something of slot `i`: a bit of an element, or of the status byte. -/
def CarriesAt (d : Device) (dir : Direction) (i p : Nat) : Prop :=
  (∃ j f, d.SignalAt dir i j f ∧ f.Covers p) ∨ d.StatusAt dir i (p / 8)

theorem CarriesAt.inSlot {p : Nat} (h : d.CarriesAt dir i p) : d.InSlot dir i p := by
  rcases h with ⟨j, f, hf, hp⟩ | ht
  · exact hf.inSlot hp.occupies
  · exact ht.inSlot

/-- **The places leave no gap**: every position of a frame is in the bytes of a signal or in a
status byte. -/
theorem exists_place {p : Nat} (h : p < 8 * d.frameSize dir) :
    (∃ i j f, d.SignalAt dir i j f ∧ f.Occupies p) ∨
      ∃ i, d.StatusAt dir i (p / 8) := by
  -- first the slot that the byte is in, then the signal, or else the status byte behind them
  obtain ⟨i, n, hi, hle, hlt⟩ :=
    @exists_offset_le (d.slotSizes dir) (p / 8) (show p / 8 < d.frameSize dir by omega)
  rw [slotSizes, List.getElem?_map, Array.getElem?_toList] at hi
  obtain ⟨s, hs, rfl⟩ := Option.map_eq_some_iff.1 hi
  change d.slotStart dir i ≤ p / 8 at hle
  change p / 8 < d.slotStart dir i + ((s.signalSizes dir).sum + 1) at hlt
  rcases Nat.lt_or_ge (p / 8) (d.slotStart dir i + (s.signalSizes dir).sum) with hin | hout
  · obtain ⟨j, m, hj, hle', hlt'⟩ := @exists_offset_le (s.signalSizes dir)
      (p / 8 - d.slotStart dir i) (by omega)
    rw [Slot.signalSizes, List.getElem?_map, Array.getElem?_toList] at hj
    obtain ⟨x, hx, rfl⟩ := Option.map_eq_some_iff.1 hj
    refine Or.inl ⟨i, j, _, ⟨s, x, hs, hx, rfl⟩, ?_, ?_⟩
    · show (d.slotStart dir i + offset (s.signalSizes dir) j) * 8 ≤ p
      omega
    · show p < (d.slotStart dir i + offset (s.signalSizes dir) j) * 8 + 8 * x.byteSize
      omega
  · exact Or.inr ⟨i, s, hs, by omega⟩

end Device
end Fieldbus
