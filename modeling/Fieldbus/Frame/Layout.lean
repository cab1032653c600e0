import Fieldbus.Device.Basic
import Fieldbus.Text.Quoted
/-!
Frame layouts: where the signals and status bytes of a device lie in its frames.

A frame carries one direction. For each slot, in declaration order, it holds the slot's signals in
declaration order, each on whole bytes, then exactly one status byte. `FrameMap` records the byte
offset of each of these; it is built by placing one signal, and one slot, after the other, so each
thing starts where the one before it ends. `FrameMap.intervals` lists what it places, for laws
about the frame as a whole.
-/

namespace Fieldbus

/-! ## One slot

Signals in declaration order, then the status byte. The slot ends behind that, so even a slot
without signals takes a byte. -/

/-- The byte offsets of one slot. -/
structure SlotMap where
  /-- Where the slot starts. -/
  start : Nat
  /-- Where each signal starts. -/
  signals : Array Nat
  /-- Where the status byte is, right behind the last signal. -/
  status : Nat
deriving DecidableEq, Repr

namespace SlotMap

/-- A slot at `start` with no signal placed yet. -/
def opened (start : Nat) : SlotMap := ⟨start, #[], start⟩

/-- Places one more signal behind those already placed. -/
def place (m : SlotMap) (s : Signal) : SlotMap :=
  { m with signals := m.signals.push m.status, status := m.status + s.byteSize }

/-- Where a slot at `start` has its signals and status byte. -/
def ofSignals (start : Nat) (signals : Array Signal) : SlotMap := signals.foldl place (opened start)

/-- The first byte behind the slot. -/
def stop (m : SlotMap) : Nat := m.status + 1

end SlotMap

/-! ## One frame

What is looked up by index is an offset or nothing. A layout that was never computed maps no frame,
and has nothing to be looked up. -/

/-- The byte offsets of everything in the frame of one direction; the default maps no frame. -/
structure FrameMap where
  /-- The direction of the frame, none if the map is not the map of any frame. -/
  direction : Option Direction := none
  /-- Bytes of the whole frame. -/
  size : Nat := 0
  slots : Array SlotMap := #[]
deriving DecidableEq, Repr, Inhabited

namespace FrameMap

/-- Places one more slot behind those already placed. -/
def place (m : FrameMap) (dir : Direction) (s : Slot) : FrameMap :=
  let slot := SlotMap.ofSignals m.size (s.signals dir)
  { m with slots := m.slots.push slot, size := slot.stop }

/-- The layout of a device's frame of one direction. -/
def ofDevice (d : Device) (dir : Direction) : FrameMap :=
  d.slots.foldl (fun m s => m.place dir s) { direction := some dir }

/-- Where a slot starts. -/
def slotOffset (m : FrameMap) (slot : UInt16) : Option Nat :=
  (m.slots[slot.toNat]?).map (·.start)

/-- Where a slot's status byte is. -/
def statusOffset (m : FrameMap) (slot : UInt16) : Option Nat :=
  (m.slots[slot.toNat]?).map (·.status)

/-- Where a signal starts. -/
def signalOffset (m : FrameMap) (slot signal : UInt16) : Option Nat :=
  match m.slots[slot.toNat]? with
  | none => none
  | some s => s.signals[signal.toNat]?

end FrameMap

/-! ## What a frame is made of

The same places as a list of ranges, in the order of the frame. -/

/-- A half-open range of bytes. -/
structure Interval where
  start : Nat
  stop : Nat
deriving DecidableEq, Repr

/-- The byte ranges of a slot placed by `m`: its signals in order, then its status byte. -/
def SlotMap.intervals (m : SlotMap) (signals : Array Signal) : List Interval :=
  (List.zipWith (fun at_ (s : Signal) => ⟨at_, at_ + s.byteSize⟩) m.signals.toList signals.toList)
    ++ [⟨m.status, m.status + 1⟩]

/-- The byte ranges of a frame of `d` placed by `m`, slot by slot. -/
def FrameMap.intervals (m : FrameMap) (d : Device) (dir : Direction) : List Interval :=
  (List.zipWith (fun (p : SlotMap) (s : Slot) => p.intervals (s.signals dir))
    m.slots.toList d.slots.toList).flatten

/-- Whether ranges follow each other without gap or overlap from `start` to `stop`. -/
def Tiles : Nat → List Interval → Nat → Prop
  | start, [], stop => start = stop
  | start, i :: rest, stop => i.start = start ∧ i.start ≤ i.stop ∧ Tiles i.stop rest stop

/-! ## Both directions

Each direction has a frame of its own, with a layout of its own. -/

/-- The layouts of both frames of a device. -/
structure DeviceLayout where
  /-- Inputs, sent to the controller. -/
  tx : FrameMap
  /-- Outputs, received from the controller. -/
  rx : FrameMap
deriving DecidableEq, Repr

namespace DeviceLayout

/-- The layouts of a device. -/
def ofDevice (d : Device) : DeviceLayout := ⟨FrameMap.ofDevice d .tx, FrameMap.ofDevice d .rx⟩

/-- The layout of one direction. -/
def frame (l : DeviceLayout) : Direction → FrameMap
  | .tx => l.tx
  | .rx => l.rx

end DeviceLayout

/-! ## Small laws

What placing keeps. -/

theorem SlotMap.foldl_place_start (signals : List Signal) (m : SlotMap) :
    (signals.foldl SlotMap.place m).start = m.start := by
  induction signals generalizing m with
  | nil => rfl
  | cons s rest ih => exact ih _

/-- A slot starts where it is put. -/
theorem SlotMap.ofSignals_start (start : Nat) (signals : Array Signal) :
    (SlotMap.ofSignals start signals).start = start := by
  unfold SlotMap.ofSignals
  rw [← Array.foldl_toList, SlotMap.foldl_place_start]
  rfl

theorem FrameMap.foldl_place_direction (dir : Direction) (slots : List Slot) (m : FrameMap) :
    (slots.foldl (fun m s => m.place dir s) m).direction = m.direction := by
  induction slots generalizing m with
  | nil => rfl
  | cons s rest ih => exact ih _

/-- The layout of a device's frame knows its direction. -/
theorem FrameMap.ofDevice_direction (d : Device) (dir : Direction) :
    (FrameMap.ofDevice d dir).direction = some dir := by
  unfold FrameMap.ofDevice
  rw [← Array.foldl_toList, FrameMap.foldl_place_direction]

end Fieldbus
