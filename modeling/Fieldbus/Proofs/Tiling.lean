import Fieldbus.Proofs.FrameContent
/-!
The layout tiles the frame.

A frame consists of ranges of bytes: for each slot, in declaration order, one for each of its
signals and one for its status byte. Each of them starts where the one before it ends, the first
one at zero, and the last one ends with the frame (`Tiles`). What the look-ups of a layout say is
exactly this list (`FrameMap.ranges_ofDevice`), provided that every index is one they can be asked
for, as it is in a device that passes validation.

Both levels are loops that put one thing behind the other, so there is one induction for both
(`tiles_placed`): over the things placed, with the place of the first as the moving part. The rest
of the file is what follows from tiling alone, and how a field lies in the range of its signal.

Bytes are what is tiled, and not bits. A signal whose elements end within a byte has the whole byte,
and the bits behind its last element are padding in its own range; that its field lies there, and
ends in the last byte, is the last part of the law.

The look-ups take indices of sixteen bits and may be asked for anything. In a valid device there are
no more slots and signals than such indices, and that is all that validation is needed for here.
-/

namespace Fieldbus

/-! ## Ranges that follow each other

`Tiles` is about a list of ranges from one place to another. Lists that follow each other can be
joined, so the law for loops is: if each thing tiles the room that it takes, all of them do. That
ranges are disjoint and leave nothing out is counted: every byte between the ends is in exactly one
range. -/

/-- Whether a byte lies in a range. -/
def Interval.has (r : Interval) (b : Nat) : Bool := decide (r.start ≤ b ∧ b < r.stop)

namespace Tiles
variable {start mid stop : Nat} {l l' : List Interval}

theorem append (h : Tiles start l mid) (h' : Tiles mid l' stop) : Tiles start (l ++ l') stop := by
  induction l generalizing start with
  | nil =>
    cases h
    exact h'
  | cons r rest ih =>
    obtain ⟨hstart, hle, hrest⟩ := h
    exact ⟨hstart, hle, ih hrest⟩

/-- None of the ranges starts before the first place. -/
theorem le_start (h : Tiles start l stop) : ∀ r ∈ l, start ≤ r.start := by
  induction l generalizing start with
  | nil =>
    intro r hr
    cases hr
  | cons r rest ih =>
    obtain ⟨rfl, hle, hrest⟩ := h
    intro r' hr'
    rcases List.mem_cons.1 hr' with rfl | hmem
    · exact Nat.le_refl _
    · exact Nat.le_trans hle (ih hrest r' hmem)

/-- **Ranges that follow each other are disjoint**: each ends before all later ones start. -/
theorem pairwise (h : Tiles start l stop) : l.Pairwise fun r r' => r.stop ≤ r'.start := by
  induction l generalizing start with
  | nil => exact List.Pairwise.nil
  | cons r rest ih =>
    obtain ⟨-, -, hrest⟩ := h
    exact List.pairwise_cons.2 ⟨hrest.le_start, ih hrest⟩

/-- A byte before the first range is in none. -/
theorem countP_eq_zero (h : Tiles start l stop) {b : Nat} (hb : b < start) :
    l.countP (·.has b) = 0 := by
  rw [List.countP_eq_zero]
  intro r hr
  have hle := h.le_start r hr
  simp only [Interval.has, decide_eq_true_eq]
  omega

/-- **Ranges that follow each other have every byte between their ends, and have it once.** -/
theorem countP_eq_one (h : Tiles start l stop) {b : Nat} (hstart : start ≤ b) (hstop : b < stop) :
    l.countP (·.has b) = 1 := by
  induction l generalizing start with
  | nil =>
    cases h
    omega
  | cons r rest ih =>
    obtain ⟨rfl, hle, hrest⟩ := h
    rw [List.countP_cons]
    rcases Nat.lt_or_ge b r.stop with hb | hb
    · have hin : r.has b = true := decide_eq_true ⟨hstart, hb⟩
      rw [hrest.countP_eq_zero hb, hin]
      rfl
    · have hout : r.has b = false := decide_eq_false fun hhas => by omega
      rw [ih hrest hb, hout]
      rfl

end Tiles

/-- **What is put one behind the other tiles**, if each thing tiles the room it takes. -/
theorem tiles_placed {α : Type} {size : α → Nat} {put : Nat → α → List Interval}
    (h : ∀ at_ x, Tiles at_ (put at_ x) (at_ + size x)) (xs : List α) (start : Nat) :
    Tiles start (xs.mapIdx fun i x => put (start + offset (xs.map size) i) x).flatten
      (start + (xs.map size).sum) := by
  induction xs generalizing start with
  | nil => rfl
  | cons x rest ih =>
    have hrest := ih (start + size x)
    rw [List.mapIdx_cons, List.flatten_cons, List.map_cons, List.sum_cons, ← Nat.add_assoc]
    simp only [offset_cons_succ, offset_zero, ← Nat.add_assoc]
    exact (h start x).append hrest

/-- Joining each thing with what was made of it by its index. -/
theorem zipWith_mapIdx_self {α β γ : Type} (f : β → α → γ) (g : Nat → α → β) (xs : List α) :
    List.zipWith f (xs.mapIdx g) xs = xs.mapIdx fun i x => f (g i x) x := by
  apply List.ext_getElem?
  intro i
  rw [List.getElem?_zipWith, List.getElem?_mapIdx, List.getElem?_mapIdx]
  cases xs[i]? <;> rfl

/-- Lists of one element each, put together. -/
theorem flatten_mapIdx_singleton {α β : Type} (f : Nat → α → β) (xs : List α) :
    (xs.mapIdx fun i x => [f i x]).flatten = xs.mapIdx f := by
  induction xs generalizing f with
  | nil => rfl
  | cons x rest ih =>
    rw [List.mapIdx_cons, List.flatten_cons, ih, List.mapIdx_cons]
    rfl

/-! ## The ranges of a slot

The signals in their order and the status byte behind the last of them. -/

namespace SlotMap

/-- The ranges of a slot, by the offsets of its signals. -/
theorem intervals_ofSignals (start : Nat) (signals : Array Signal) :
    (ofSignals start signals).intervals signals =
      (signals.toList.mapIdx fun j x =>
        let at_ := start + offset (signals.toList.map Signal.byteSize) j
        (⟨at_, at_ + x.byteSize⟩ : Interval)) ++
      [(let at_ := start + (signals.toList.map Signal.byteSize).sum
        ⟨at_, at_ + 1⟩)] := by
  have hplaced : (ofSignals start signals).signals.toList =
      signals.toList.mapIdx fun j _ => start + offset (signals.toList.map Signal.byteSize) j := by
    unfold ofSignals
    rw [← Array.foldl_toList]
    exact placing.placed_foldl signals.toList (opened start)
  rw [intervals, hplaced, zipWith_mapIdx_self, status_ofSignals]

/-- **The ranges of a slot tile it.** -/
theorem tiles_ofSignals (start : Nat) (signals : Array Signal) :
    Tiles start ((ofSignals start signals).intervals signals)
      (start + ((signals.toList.map Signal.byteSize).sum + 1)) := by
  have hsignals := @tiles_placed _ Signal.byteSize
    (fun at_ x => [⟨at_, at_ + x.byteSize⟩])
    (fun at_ x => ⟨rfl, Nat.le_add_right _ _, rfl⟩) signals.toList start
  rw [flatten_mapIdx_singleton] at hsignals
  rw [intervals_ofSignals]
  exact hsignals.append ⟨rfl, Nat.le_add_right _ _, rfl⟩

end SlotMap

/-! ## The ranges of a frame

The slots in their order. The room that a slot takes is what its ranges tile. -/

namespace FrameMap

/-- The ranges of a frame, by the offsets of its slots. -/
theorem intervals_ofDevice (d : Device) (dir : Direction) :
    (ofDevice d dir).intervals d dir =
      (d.slots.toList.mapIdx fun i s =>
        (SlotMap.ofSignals (d.slotStart dir i) (s.signals dir)).intervals
          (s.signals dir)).flatten := by
  have hplaced : (ofDevice d dir).slots.toList = d.slots.toList.mapIdx fun i s =>
      SlotMap.ofSignals (d.slotStart dir i) (s.signals dir) := by
    apply List.ext_getElem?
    intro i
    rw [Array.getElem?_toList, getElem?_slots_ofDevice, List.getElem?_mapIdx, Array.getElem?_toList]
    rfl
  rw [intervals, hplaced, zipWith_mapIdx_self]

/-- **The ranges of a frame tile it.** -/
theorem tiles_ofDevice (d : Device) (dir : Direction) :
    Tiles 0 ((ofDevice d dir).intervals d dir) (ofDevice d dir).size := by
  have hslots := @tiles_placed _ (fun s : Slot => s.frameSize dir)
    (fun at_ s => (SlotMap.ofSignals at_ (s.signals dir)).intervals (s.signals dir))
    (fun at_ s => SlotMap.tiles_ofSignals at_ (s.signals dir)) d.slots.toList 0
  rw [intervals_ofDevice, size_ofDevice]
  simp only [Nat.zero_add] at hslots
  exact hslots

/-! ## What the look-ups say

From ranges as they were placed to ranges as they are found. A look-up answers with a place or with
nothing, and for what the device has it answers with a place; so the list of all answers is the list
of ranges, each of them present. -/

/-- The bytes of a signal, from where the layout says it starts. -/
def signalRange (m : FrameMap) (slot signal : Nat) (x : Signal) : Option Interval :=
  (m.signalOffset (.ofNat slot) (.ofNat signal)).map fun at_ => ⟨at_, at_ + x.byteSize⟩

/-- The status byte of a slot, where the layout says it is. -/
def statusRange (m : FrameMap) (slot : Nat) : Option Interval :=
  (m.statusOffset (.ofNat slot)).map fun at_ => ⟨at_, at_ + 1⟩

/-- The bytes of everything in a slot: its signals in order, then its status byte. -/
def slotRanges (m : FrameMap) (dir : Direction) (slot : Nat) (s : Slot) : List (Option Interval) :=
  (s.signals dir).toList.mapIdx (m.signalRange slot) ++ [m.statusRange slot]

/-- The bytes of everything in a frame, slot by slot. -/
def ranges (m : FrameMap) (d : Device) (dir : Direction) : List (Option Interval) :=
  (d.slots.toList.mapIdx (m.slotRanges dir)).flatten

variable {d : Device} {dir : Direction}

/-- The look-ups of a slot say what the layout placed. -/
theorem slotRanges_ofDevice {i : Nat} {s : Slot} (hs : d.slots[i]? = some s)
    (hi : i ≤ maxItems) (hsize : (s.signals dir).size ≤ maxItems) :
    (ofDevice d dir).slotRanges dir i s =
      ((SlotMap.ofSignals (d.slotStart dir i) (s.signals dir)).intervals
        (s.signals dir)).map some := by
  have hslot : d.slots[(UInt16.ofNat i).toNat]? = some s := by rw [toNat_ofNat_of_le hi, hs]
  have hstatus : (ofDevice d dir).statusRange i =
      some ⟨d.slotStart dir i + (s.signalSizes dir).sum,
        d.slotStart dir i + (s.signalSizes dir).sum + 1⟩ := by
    rw [statusRange, statusOffset_ofDevice, hslot, toNat_ofNat_of_le hi]
    rfl
  have hsignal : ∀ (j : Nat) (x : Signal), (s.signals dir)[j]? = some x →
      (ofDevice d dir).signalRange i j x =
        some ⟨d.slotStart dir i + offset (s.signalSizes dir) j,
          d.slotStart dir i + offset (s.signalSizes dir) j + x.byteSize⟩ := by
    intro j x hx
    have hj : j ≤ maxItems := by
      have hlt := (Array.getElem?_eq_some_iff.1 hx).1
      omega
    rw [signalRange, signalOffset_ofDevice, hslot, toNat_ofNat_of_le hi, Option.bind_some,
      toNat_ofNat_of_le hj, hx]
    rfl
  -- signals first and then the status byte, in both lists
  rw [SlotMap.intervals_ofSignals, slotRanges, hstatus, List.map_append]
  congr 1
  apply List.ext_getElem?
  intro j
  rw [List.getElem?_map, List.getElem?_mapIdx, List.getElem?_mapIdx, Array.getElem?_toList]
  cases hx : (s.signals dir)[j]? with
  | none => rfl
  | some x => exact congrArg some (hsignal j x hx)

/-- **The look-ups of a valid device's layout say what it placed**, everything in its order. -/
theorem ranges_ofDevice (hd : d.Valid) (dir : Direction) :
    (ofDevice d dir).ranges d dir = ((ofDevice d dir).intervals d dir).map some := by
  rw [intervals_ofDevice, List.map_flatten, ranges]
  congr 1
  apply List.ext_getElem?
  intro i
  rw [List.getElem?_map, List.getElem?_mapIdx, List.getElem?_mapIdx, Array.getElem?_toList]
  cases hs : d.slots[i]? with
  | none => rfl
  | some s =>
    have hi : i ≤ maxItems := by
      have hlt := (Array.getElem?_eq_some_iff.1 hs).1
      have hle := hd.slots_le
      omega
    have hsize := signals_le_of_valid (hd.slots s (Array.mem_of_getElem? hs)) dir
    exact congrArg some (slotRanges_ofDevice hs hi hsize)

/-- A slot starts where the first of its ranges does, also one that has only a status byte. -/
theorem exists_head_slotRanges (hd : d.Valid) (dir : Direction) {slot : UInt16} {s : Slot}
    (hs : d.slots[slot.toNat]? = some s) :
    ∃ r, ((ofDevice d dir).slotRanges dir slot.toNat s).head? = some (some r) ∧
      (ofDevice d dir).slotOffset slot = some r.start := by
  have hslot : slot.toNat ≤ maxItems := by
    have hlt := (Array.getElem?_eq_some_iff.1 hs).1
    have hle := hd.slots_le
    omega
  have hsize := signals_le_of_valid (hd.slots s (Array.mem_of_getElem? hs)) dir
  have htiles := SlotMap.tiles_ofSignals (d.slotStart dir slot.toNat) (s.signals dir)
  rw [slotRanges_ofDevice hs hslot hsize, slotOffset_ofDevice, hs, Option.map_some, List.head?_map]
  -- the status byte is there in any case, so there is a first range
  cases hranges : (SlotMap.ofSignals (d.slotStart dir slot.toNat) (s.signals dir)).intervals
      (s.signals dir) with
  | nil => exact absurd hranges (by simp [SlotMap.intervals])
  | cons r rest =>
    rw [hranges] at htiles
    exact ⟨r, rfl, congrArg some htiles.1.symm⟩

theorem isSome_slotOffset (d : Device) (dir : Direction) (slot : UInt16) :
    ((ofDevice d dir).slotOffset slot).isSome ↔ slot.toNat < d.slots.size := by
  simp [slotOffset_ofDevice]

theorem isSome_statusOffset (d : Device) (dir : Direction) (slot : UInt16) :
    ((ofDevice d dir).statusOffset slot).isSome ↔ slot.toNat < d.slots.size := by
  simp [statusOffset_ofDevice]

theorem isSome_signalOffset (d : Device) (dir : Direction) (slot signal : UInt16) :
    ((ofDevice d dir).signalOffset slot signal).isSome ↔
      ∃ s, d.slots[slot.toNat]? = some s ∧ signal.toNat < (s.signals dir).size := by
  rw [signalOffset_ofDevice]
  cases d.slots[slot.toNat]? with
  | none => exact ⟨fun h => (nomatch h), fun ⟨_, h, _⟩ => (nomatch h)⟩
  | some s => simp

end FrameMap

/-- The bytes taken by a list of signals are those of each. -/
theorem totalByteSize_eq_sum (signals : Array Signal) :
    totalByteSize signals = (signals.toList.map Signal.byteSize).sum := by
  rw [totalByteSize, ← Array.foldl_toList, List.sum_eq_foldl, List.foldl_map]

/-- The field of a signal starts with its range and ends in its last byte. -/
theorem exists_field_of_signal {d : Device} {dir : Direction} {slot signal : UInt16} {x : Signal}
    (h : d.signal dir slot signal = .ok x) (order : ByteOrder) :
    ∃ at_ f, (FrameMap.ofDevice d dir).signalOffset slot signal = some at_ ∧
      (d.ownView dir order).field slot signal = .ok f ∧
      f.bit = 8 * at_ ∧ f.bits = x.width ∧ f.count = x.elements ∧
      f.bit + f.length ≤ 8 * (at_ + x.byteSize) ∧
      8 * (at_ + x.byteSize) < f.bit + f.length + 8 := by
  obtain ⟨s, hslot, hsignal⟩ := Device.signal_eq_ok_iff.1 h
  refine ⟨d.slotStart dir slot.toNat + offset (s.signalSizes dir) signal.toNat, _, ?_,
    Device.field_ownView.2 ⟨s, x, hslot, hsignal, rfl⟩, Nat.mul_comm _ _, rfl, rfl, ?_⟩
  · rw [FrameMap.signalOffset_ofDevice, hslot, Option.bind_some, hsignal, Option.map_some]
  · have hround := le_bytesFor x.bitSize
    simp only [BitField.length, Signal.byteSize]
    rw [show x.width * x.elements = x.bitSize from rfl]
    omega

/-- **The layout of a valid device tiles its frames.** In either direction,

* what the look-ups say of all signals and status bytes, in the order of their declaration, is a
  list of ranges that follow each other from zero to the end of the frame;
* so these ranges are disjoint, every byte of the frame is in exactly one of them, and the frame is
  as long as its signals and one byte more for each slot;
* a slot starts with the first of its ranges, whether it has signals or not;
* the look-ups know exactly the slots and signals that there are;
* the field of a signal starts with its range, ends in it, and leaves less than a byte of it. -/
theorem layout_tiles_frame (d : Device) (hd : d.validate = .ok ()) (dir : Direction) :
    let m := FrameMap.ofDevice d dir
    (m.ranges d dir = (m.intervals d dir).map some ∧ Tiles 0 (m.intervals d dir) m.size) ∧
    (((m.intervals d dir).Pairwise fun r r' => r.stop ≤ r'.start) ∧
      (∀ b < m.size, (m.intervals d dir).countP (·.has b) = 1) ∧
      m.size = (d.slots.toList.map fun s => totalByteSize (s.signals dir) + 1).sum) ∧
    (∀ (slot : UInt16) (s : Slot), d.slots[slot.toNat]? = some s →
      ∃ r, (m.slotRanges dir slot.toNat s).head? = some (some r) ∧
        m.slotOffset slot = some r.start) ∧
    (∀ slot signal : UInt16,
      ((m.slotOffset slot).isSome ↔ slot.toNat < d.slots.size) ∧
      ((m.statusOffset slot).isSome ↔ slot.toNat < d.slots.size) ∧
      ((m.signalOffset slot signal).isSome ↔
        ∃ s, d.slots[slot.toNat]? = some s ∧ signal.toNat < (s.signals dir).size)) ∧
    ∀ (slot signal : UInt16) (x : Signal) (order : ByteOrder), d.signal dir slot signal = .ok x →
      ∃ at_ f, m.signalOffset slot signal = some at_ ∧
        (FrameView.mk d m order).field slot signal = .ok f ∧
        f.bit = 8 * at_ ∧ f.bits = x.width ∧ f.count = x.elements ∧
        f.bit + f.length ≤ 8 * (at_ + x.byteSize) ∧
        8 * (at_ + x.byteSize) < f.bit + f.length + 8 := by
  have hv : d.Valid := (Device.validate_eq_ok_iff d).1 hd
  have htiles := FrameMap.tiles_ofDevice d dir
  refine ⟨⟨FrameMap.ranges_ofDevice hv dir, htiles⟩,
    ⟨htiles.pairwise, fun b hb => htiles.countP_eq_one (Nat.zero_le b) hb, ?_⟩,
    fun slot s hs => FrameMap.exists_head_slotRanges hv dir hs,
    fun slot signal => ⟨FrameMap.isSome_slotOffset d dir slot,
      FrameMap.isSome_statusOffset d dir slot, FrameMap.isSome_signalOffset d dir slot signal⟩,
    fun slot signal x order hx => exists_field_of_signal hx order⟩
  -- the length of the frame is a sum over slots in both spellings
  rw [FrameMap.size_ofDevice, Device.frameSize, Device.slotSizes]
  simp only [Slot.frameSize, Slot.signalSizes, totalByteSize_eq_sum]

/-- A device with values of odd lengths, a type that is not known, and a slot without signals. -/
def mixedDevice : Device where
  name := "mixed"
  slots := #[
    { name := "odd",
      inputs := #[⟨"thirteens", .bitfield 13, some 3⟩, ⟨"strange", .unknown 9, some 9⟩] },
    { name := "bare" },
    { name := "plain", inputs := #[⟨"flag", .bool, none⟩, ⟨"long", .int64, none⟩] }]

theorem layout_tiles_frame_mixed :
    mixedDevice.validate = .ok () ∧
      (FrameMap.ofDevice mixedDevice .tx).ranges mixedDevice .tx =
        [some ⟨0, 5⟩, some ⟨5, 7⟩, some ⟨7, 8⟩, some ⟨8, 9⟩, some ⟨9, 10⟩, some ⟨10, 18⟩,
          some ⟨18, 19⟩] ∧
      ∀ b < 19, ((FrameMap.ofDevice mixedDevice .tx).intervals mixedDevice .tx).countP
        (·.has b) = 1 := by
  have hvalid : mixedDevice.validate = .ok () := by
    simp [Device.validate, validateSlots, Slot.validate, mixedDevice, maxItems]
  obtain ⟨⟨hranges, -⟩, ⟨-, hcover, -⟩, -⟩ := layout_tiles_frame mixedDevice hvalid .tx
  refine ⟨hvalid, hranges.trans ?_, hcover⟩
  decide +kernel

end Fieldbus
