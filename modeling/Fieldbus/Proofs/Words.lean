import Fieldbus.Proofs.FrameContent
import Fieldbus.Proofs.ParamCells
/-!
Places in words.

Lengths and offsets are numbers here, without a bound. A machine has words of 64 bits for them, and
sums and products that do not fit wrap around. In this file frames are laid out once more, with
words in the place of numbers.

To add words is to add the numbers and to cut the sum. So a layout in words is always the layout in
numbers, cut (`WordFrameMap.ofDevice_eq_cut`), whatever the device. What is left to see is that
nothing is lost by cutting: all places of a layout lie within its size
(`FrameMap.inBounds_ofDevice`), and the size of a frame of a valid device is far below the last word
(`Device.Valid.frameSize_le`).

It is the sum of all sizes that has to be bounded and not each of them. A slot has at most 65535
signals, each of at most 65535 elements of eight bytes, and there are at most 65535 slots; the
product is below `2 ^ 51` bytes, so that positions of bits are far below `2 ^ 64`, with room for the
sums that are computed on the way to a check.
-/

namespace Fieldbus

/-! ## Words

Adding and multiplying words is exact below the last one. Rounding bits up to bytes is written with
a division and a remainder, so it does not wrap around for any word. -/

theorem toNat_word_add {a b : UInt64} (h : a.toNat + b.toNat < 2 ^ 64) :
    (a + b).toNat = a.toNat + b.toNat := by
  rw [UInt64.toNat_add, Nat.mod_eq_of_lt h]

theorem toNat_word_mul {a b : UInt64} (h : a.toNat * b.toNat < 2 ^ 64) :
    (a * b).toNat = a.toNat * b.toNat := by
  rw [UInt64.toNat_mul, Nat.mod_eq_of_lt h]

/-- A number below the last word is kept. -/
theorem toNat_word {n : Nat} (h : n < 2 ^ 64) : (UInt64.ofNat n).toNat = n :=
  UInt64.toNat_ofNat_of_lt' h

/-- The number of whole bytes that hold `bits` bits. -/
def wordBytesFor (bits : UInt64) : UInt64 := bits / 8 + (if bits % 8 = 0 then 0 else 1)

/-- **Rounding up to bytes goes right for every word,** the last ones too. -/
theorem toNat_wordBytesFor (bits : UInt64) :
    (wordBytesFor bits).toNat = bytesFor bits.toNat := by
  have hlt := bits.toNat_lt
  have hzero : bits % 8 = 0 ↔ bits.toNat % 8 = 0 := by
    rw [← UInt64.toNat_inj, UInt64.toNat_mod]
    rfl
  have hrest : (if bits % 8 = 0 then (0 : UInt64) else 1).toNat =
      if bits.toNat % 8 = 0 then 0 else 1 := by
    by_cases h : bits.toNat % 8 = 0
    · rw [if_pos (hzero.2 h), if_pos h]
      rfl
    · rw [if_neg (mt hzero.1 h), if_neg h]
      rfl
  have hdiv : (bits / 8).toNat = bits.toNat / 8 := UInt64.toNat_div bits 8
  rw [wordBytesFor, toNat_word_add, hdiv, hrest, bytesFor]
  · split <;> omega
  · rw [hdiv, hrest]
    split <;> omega

/-! ## Sizes

From the bottom up: elements, bits and bytes of a signal, bytes of a slot, bytes of a frame. The
status bytes are counted in. -/

/-- No signal has more elements than a word of sixteen bits can tell. -/
theorem Signal.elements_le (s : Signal) : s.elements ≤ 65535 := by
  unfold elements
  split
  · decide
  · next n _ => exact Nat.le_of_lt_succ n.toNat_lt

theorem Signal.bitSize_le (s : Signal) : s.bitSize ≤ 64 * 65535 :=
  Nat.mul_le_mul s.type.width_bounds.2 s.elements_le

theorem Signal.byteSize_le (s : Signal) : s.byteSize ≤ 524280 := by
  have hbits := s.bitSize_le
  unfold byteSize bytesFor
  omega

/-- So many things of at most that size. -/
theorem sum_le_mul {sizes : List Nat} {n b : Nat} (hlen : sizes.length ≤ n)
    (h : ∀ x ∈ sizes, x ≤ b) : sizes.sum ≤ n * b := by
  induction sizes generalizing n with
  | nil => exact Nat.zero_le _
  | cons x rest ih =>
    obtain ⟨k, rfl⟩ : ∃ k, n = k + 1 := ⟨n - 1, by rw [List.length_cons] at hlen; omega⟩
    have hx := h x List.mem_cons_self
    have hrest := ih (Nat.le_of_succ_le_succ hlen) fun y hy => h y (List.mem_cons_of_mem x hy)
    rw [List.sum_cons, Nat.succ_mul]
    omega

/-- **The largest frame of a valid device.** -/
theorem Device.Valid.frameSize_le {d : Device} (hd : d.Valid) (dir : Direction) :
    d.frameSize dir ≤ 65535 * (65535 * 524280 + 1) := by
  apply sum_le_mul
  · rw [slotSizes, List.length_map, Array.length_toList]
    exact hd.slots_le
  · intro n hn
    obtain ⟨s, hs, rfl⟩ := List.mem_map.1 hn
    refine Nat.succ_le_succ (sum_le_mul ?_ ?_)
    · rw [Slot.signalSizes, List.length_map, Array.length_toList]
      exact signals_le_of_valid (hd.slots s (Array.mem_toList_iff.1 hs)) dir
    · intro n hn
      obtain ⟨x, -, rfl⟩ := List.mem_map.1 hn
      exact x.byteSize_le

/-- **The largest parameter memory of a valid device.** -/
theorem Device.Valid.paramSize_le {d : Device} (hd : d.Valid) :
    d.paramSizes.sum ≤ 65535 * (65535 * 65535) := by
  apply sum_le_mul
  · rw [paramSizes, List.length_map, Array.length_toList]
    exact hd.slots_le
  · intro n hn
    obtain ⟨s, hs, rfl⟩ := List.mem_map.1 hn
    apply sum_le_mul
    · rw [Slot.paramSizes, List.length_map, Array.length_toList]
      exact (hd.slots s (Array.mem_toList_iff.1 hs)).params_le
    · intro n hn
      obtain ⟨p, -, rfl⟩ := List.mem_map.1 hn
      exact Nat.le_of_lt_succ p.byteLength.toNat_lt

/-! ## Layouts

The definitions follow those in numbers, with words for offsets, and `plain` forgets that they are
words. -/

/-- The bytes of a signal in a frame. -/
def Signal.wordSize (s : Signal) : UInt64 :=
  wordBytesFor (UInt64.ofNat s.width * UInt64.ofNat s.elements)

theorem Signal.wordSize_eq (s : Signal) : s.wordSize = UInt64.ofNat s.byteSize := by
  have hbits := s.bitSize_le
  have hbytes := s.byteSize_le
  apply UInt64.toNat_inj.1
  rw [wordSize, toNat_wordBytesFor, ← UInt64.ofNat_mul, toNat_word (n := s.byteSize) (by omega),
    toNat_word (n := s.width * s.elements) (Nat.lt_of_le_of_lt hbits (by decide))]
  rfl

/-- The byte offsets of one slot. -/
structure WordSlotMap where
  start : UInt64
  signals : Array UInt64
  status : UInt64
deriving DecidableEq, Repr

namespace WordSlotMap

/-- Places one more signal behind those already placed. -/
def place (m : WordSlotMap) (s : Signal) : WordSlotMap :=
  { m with signals := m.signals.push m.status, status := m.status + s.wordSize }

/-- Where a slot at `start` has its signals and status byte. -/
def ofSignals (start : UInt64) (signals : Array Signal) : WordSlotMap :=
  signals.foldl place ⟨start, #[], start⟩

/-- The same offsets as numbers. -/
def plain (m : WordSlotMap) : SlotMap := ⟨m.start.toNat, m.signals.map UInt64.toNat, m.status.toNat⟩

end WordSlotMap

/-- The byte offsets of everything in the frame of one direction. -/
structure WordFrameMap where
  direction : Option Direction := none
  size : UInt64 := 0
  slots : Array WordSlotMap := #[]
deriving DecidableEq, Repr

namespace WordFrameMap

/-- Places one more slot behind those already placed. -/
def place (m : WordFrameMap) (dir : Direction) (s : Slot) : WordFrameMap :=
  let slot := WordSlotMap.ofSignals m.size (s.signals dir)
  { m with slots := m.slots.push slot, size := slot.status + 1 }

/-- The layout of a device's frame of one direction. -/
def ofDevice (d : Device) (dir : Direction) : WordFrameMap :=
  d.slots.foldl (fun m s => m.place dir s) { direction := some dir }

/-- Where a slot's status byte is. -/
def statusOffset (m : WordFrameMap) (slot : UInt16) : Option UInt64 :=
  (m.slots[slot.toNat]?).map (·.status)

/-- Where a signal starts. -/
def signalOffset (m : WordFrameMap) (slot signal : UInt16) : Option UInt64 :=
  match m.slots[slot.toNat]? with
  | none => none
  | some s => s.signals[signal.toNat]?

/-- The same offsets as numbers. -/
def plain (m : WordFrameMap) : FrameMap := ⟨m.direction, m.size.toNat, m.slots.map (·.plain)⟩

theorem statusOffset_plain (m : WordFrameMap) (slot : UInt16) :
    m.plain.statusOffset slot = (m.statusOffset slot).map UInt64.toNat := by
  rw [FrameMap.statusOffset, statusOffset, plain, Array.getElem?_map, Option.map_map,
    Option.map_map]
  rfl

theorem signalOffset_plain (m : WordFrameMap) (slot signal : UInt16) :
    m.plain.signalOffset slot signal = (m.signalOffset slot signal).map UInt64.toNat := by
  unfold FrameMap.signalOffset signalOffset plain
  rw [Array.getElem?_map]
  cases m.slots[slot.toNat]? with
  | none => rfl
  | some s => exact Array.getElem?_map ..

end WordFrameMap

/-! ### Cutting layouts

Each turn of a loop commutes with cutting, so the loops do, for any device. -/

/-- The offsets of a slot, cut to words. -/
def SlotMap.cut (m : SlotMap) : WordSlotMap :=
  ⟨UInt64.ofNat m.start, m.signals.map UInt64.ofNat, UInt64.ofNat m.status⟩

/-- The offsets of a frame, cut to words. -/
def FrameMap.cut (m : FrameMap) : WordFrameMap :=
  ⟨m.direction, UInt64.ofNat m.size, m.slots.map (·.cut)⟩

theorem SlotMap.place_cut (m : SlotMap) (s : Signal) : m.cut.place s = (m.place s).cut := by
  rw [WordSlotMap.place, SlotMap.cut, SlotMap.cut, SlotMap.place, Array.map_push, s.wordSize_eq,
    UInt64.ofNat_add]

theorem SlotMap.ofSignals_cut (start : Nat) (signals : Array Signal) :
    WordSlotMap.ofSignals (UInt64.ofNat start) signals = (SlotMap.ofSignals start signals).cut := by
  have hopened : (opened start).cut = ⟨UInt64.ofNat start, #[], UInt64.ofNat start⟩ := by
    rw [cut, opened, Array.map_empty]
  rw [WordSlotMap.ofSignals, SlotMap.ofSignals, ← Array.foldl_hom SlotMap.cut SlotMap.place_cut,
    hopened]

theorem FrameMap.place_cut (m : FrameMap) (dir : Direction) (s : Slot) :
    m.cut.place dir s = (m.place dir s).cut := by
  unfold WordFrameMap.place FrameMap.place FrameMap.cut
  dsimp only
  rw [SlotMap.ofSignals_cut, Array.map_push, SlotMap.stop, UInt64.ofNat_add]
  rfl

/-- **A layout in words is the layout, cut.** -/
theorem WordFrameMap.ofDevice_eq_cut (d : Device) (dir : Direction) :
    ofDevice d dir = (FrameMap.ofDevice d dir).cut := by
  have hempty : (FrameMap.mk (some dir) 0 #[]).cut = ⟨some dir, 0, #[]⟩ := by
    rw [FrameMap.cut, Array.map_empty]
    rfl
  have hfold : d.slots.foldl (fun m s => place m dir s) (FrameMap.mk (some dir) 0 #[]).cut =
      (d.slots.foldl (fun m s => FrameMap.place m dir s) ⟨some dir, 0, #[]⟩).cut :=
    Array.foldl_hom FrameMap.cut fun m s => m.place_cut dir s
  rw [hempty] at hfold
  exact hfold

/-! ### Places within the size

Every place in a layout is below its size, so if the size is kept by cutting, all of it is. That
places are below the size holds of a layout while it is made: what is placed next only makes it
larger. -/

/-- The places of a slot lie within a frame of the given size, the status byte last. -/
structure SlotMap.Within (m : SlotMap) (size : Nat) : Prop where
  start_le : m.start ≤ m.status
  signals_le : ∀ at_ ∈ m.signals, at_ ≤ m.status
  status_lt : m.status < size

/-- All places of a frame lie within it. -/
def FrameMap.InBounds (m : FrameMap) : Prop := ∀ s ∈ m.slots, s.Within m.size

/-- **In the layout of a device all places lie within the frame.** -/
theorem FrameMap.inBounds_ofDevice (d : Device) (dir : Direction) : (ofDevice d dir).InBounds := by
  intro m hm
  obtain ⟨i, hi⟩ := Array.mem_iff_getElem?.1 hm
  rw [getElem?_slots_ofDevice] at hi
  obtain ⟨s, hs, rfl⟩ := Option.map_eq_some_iff.1 hi
  have hsize : (d.slotSizes dir)[i]? = some (s.frameSize dir) := Device.getElem?_slotSizes hs
  have hstop := offset_add_le_sum hsize
  refine ⟨?_, fun at_ hat => ?_, ?_⟩
  · rw [SlotMap.ofSignals_start, SlotMap.status_ofSignals]
    exact Nat.le_add_right _ _
  · obtain ⟨j, hj⟩ := Array.mem_iff_getElem?.1 hat
    rw [SlotMap.getElem?_signals_ofSignals] at hj
    obtain ⟨x, -, rfl⟩ := Option.map_eq_some_iff.1 hj
    rw [SlotMap.status_ofSignals]
    exact Nat.add_le_add_left (offset_le_sum _ j) _
  · rw [SlotMap.status_ofSignals, size_ofDevice]
    unfold Slot.frameSize Slot.signalSizes at hstop
    unfold Device.frameSize
    omega

theorem FrameMap.InBounds.status_lt {m : FrameMap} (h : m.InBounds) {slot : UInt16} {t : Nat}
    (ht : m.statusOffset slot = some t) : t < m.size := by
  obtain ⟨s, hs, rfl⟩ := Option.map_eq_some_iff.1 ht
  exact (h s (Array.mem_of_getElem? hs)).status_lt

theorem FrameMap.InBounds.signal_lt {m : FrameMap} (h : m.InBounds) {slot signal : UInt16}
    {at_ : Nat} (hat : m.signalOffset slot signal = some at_) : at_ < m.size := by
  unfold signalOffset at hat
  split at hat
  · cases hat
  · next s hs =>
    have hs := h s (Array.mem_of_getElem? hs)
    exact Nat.lt_of_le_of_lt (hs.signals_le at_ (Array.mem_of_getElem? hat)) hs.status_lt

/-- Cutting loses nothing of the places of a slot in a frame that a word can tell the size of, -/
theorem SlotMap.Within.plain_cut {m : SlotMap} {size : Nat} (h : m.Within size)
    (hsize : size < 2 ^ 64) : m.cut.plain = m := by
  have hstatus := h.status_lt
  have hstart := h.start_le
  have hsignals : (m.signals.map UInt64.ofNat).map UInt64.toNat = m.signals := by
    rw [Array.map_map]
    calc m.signals.map (UInt64.toNat ∘ UInt64.ofNat)
        = m.signals.map id := Array.map_congr_left fun at_ hat =>
          toNat_word (Nat.lt_of_le_of_lt (h.signals_le at_ hat) (by omega))
      _ = m.signals := Array.map_id _
  rw [WordSlotMap.plain, cut, hsignals, toNat_word (n := m.start) (by omega),
    toNat_word (n := m.status) (by omega)]

/-- and nothing of such a frame. -/
theorem FrameMap.InBounds.plain_cut {m : FrameMap} (h : m.InBounds) (hsize : m.size < 2 ^ 64) :
    m.cut.plain = m := by
  have hslots : (m.slots.map (·.cut)).map (·.plain) = m.slots := by
    rw [Array.map_map]
    calc m.slots.map ((·.plain) ∘ (·.cut))
        = m.slots.map id := Array.map_congr_left fun s hs => (h s hs).plain_cut hsize
      _ = m.slots := Array.map_id _
  rw [WordFrameMap.plain, cut, hslots, toNat_word hsize]

/-- **The layout of a valid device is the same in words and in numbers.** -/
theorem WordFrameMap.plain_ofDevice {d : Device} (hd : d.Valid) (dir : Direction) :
    (ofDevice d dir).plain = FrameMap.ofDevice d dir := by
  rw [ofDevice_eq_cut]
  apply (FrameMap.inBounds_ofDevice d dir).plain_cut
  rw [FrameMap.size_ofDevice]
  exact Nat.lt_of_le_of_lt (hd.frameSize_le dir) (by decide)

end Fieldbus
