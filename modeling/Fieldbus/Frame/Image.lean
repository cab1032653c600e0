import Fieldbus.Frame.View
/-!
The process image: the current value of every signal of a device.

The tx side holds what is to be sent to the controller, the rx side what was last received from it.
An image has one entry per slot and direction, with the elements of each signal and the slot's
status byte. It is written to and read from whole frames.

Elements are words here, each of 64 bits, whatever the type of their signal. An image says nothing
of types and widths; these come in where it is written to a frame or read by the types of a device.
-/

namespace Fieldbus

/-- Signal values and status of one slot in one direction. -/
structure SlotImage where
  /-- Elements of each signal. -/
  signals : Array (Array UInt64) := #[]
  status : UInt8 := 0
deriving DecidableEq, Repr, Inhabited

/-- A slot with all elements zero. -/
def SlotImage.zero (signals : Array Signal) : SlotImage where
  signals := signals.map fun s => Array.replicate s.elements 0
  status := 0

/-- Signal values and status of all slots in both directions. -/
structure ProcessImage where
  tx : Array SlotImage := #[]
  rx : Array SlotImage := #[]
deriving DecidableEq, Repr, Inhabited

namespace ProcessImage

/-- The image of a device with all values zero. -/
def zero (d : Device) : ProcessImage where
  tx := d.slots.map fun s => .zero s.inputs
  rx := d.slots.map fun s => .zero s.outputs

/-- The slots of one direction. -/
def slots (p : ProcessImage) : Direction → Array SlotImage
  | .tx => p.tx
  | .rx => p.rx

/-- The image with the slots of one direction replaced. -/
def withSlots (p : ProcessImage) (dir : Direction) (slots : Array SlotImage) : ProcessImage :=
  match dir with
  | .tx => { p with tx := slots }
  | .rx => { p with rx := slots }

@[simp] theorem slots_withSlots (p : ProcessImage) (dir : Direction) (slots : Array SlotImage) :
    (p.withSlots dir slots).slots dir = slots := by cases dir <;> rfl

theorem slots_withSlots_of_ne (p : ProcessImage) {dir other : Direction} (h : other ≠ dir)
    (slots : Array SlotImage) : (p.withSlots dir slots).slots other = p.slots other := by
  cases dir <;> cases other <;> first | rfl | exact absurd rfl h

/-- The slot at an index. -/
def slot (p : ProcessImage) (dir : Direction) (slot : UInt16) : Except Error SlotImage :=
  match (p.slots dir)[slot.toNat]? with
  | none => .error .noSlot
  | some s => .ok s

/-- The image with one slot replaced. -/
def setSlot (p : ProcessImage) (dir : Direction) (slot : UInt16) (s : SlotImage) : ProcessImage :=
  p.withSlots dir ((p.slots dir).setIfInBounds slot.toNat s)

/-! ## Values

Single signals and elements are addressed by index, and their number is kept: a signal takes as many
values as it has. A value for an element is stored as its bits, also when it is of another type. -/

/-- All elements of a signal. -/
def get (p : ProcessImage) (dir : Direction) (slot signal : UInt16) :
    Except Error (Array UInt64) :=
  match p.slot dir slot with
  | .error e => .error e
  | .ok s =>
    match s.signals[signal.toNat]? with
    | none => .error .noSignal
    | some values => .ok values

/-- The image with all elements of a signal replaced, whatever their number. -/
def setSignal (p : ProcessImage) (dir : Direction) (slot signal : UInt16)
    (values : Array UInt64) : ProcessImage :=
  match p.slot dir slot with
  | .error _ => p
  | .ok s => p.setSlot dir slot { s with signals := s.signals.setIfInBounds signal.toNat values }

/-- Replaces all elements of a signal; exactly one value per element is wanted. -/
def set (p : ProcessImage) (dir : Direction) (slot signal : UInt16) (values : Array UInt64) :
    Except Error ProcessImage :=
  match p.get dir slot signal with
  | .error e => .error e
  | .ok old =>
    if old.size ≠ values.size then .error .elementCount
    else .ok (p.setSignal dir slot signal values)

/-- One element of a signal, by its type in the device. -/
def value (p : ProcessImage) (d : Device) (dir : Direction) (slot signal : UInt16)
    (element : Nat) : Except Error Value :=
  match d.signal dir slot signal with
  | .error e => .error e
  | .ok s =>
    match p.get dir slot signal with
    | .error e => .error e
    | .ok values =>
      match values[element]? with
      | none => .error .noElement
      | some word => .ok (.ofRaw s.type word)

/-- Replaces one element of a signal by the bits of a value. -/
def setValue (p : ProcessImage) (dir : Direction) (slot signal : UInt16) (element : Nat)
    (value : Value) : Except Error ProcessImage :=
  match p.get dir slot signal with
  | .error e => .error e
  | .ok values =>
    if values.size ≤ element then .error .noElement
    else .ok (p.setSignal dir slot signal (values.setIfInBounds element value.toRaw))

/-- The status byte of a slot. -/
def status (p : ProcessImage) (dir : Direction) (slot : UInt16) : Except Error UInt8 :=
  match p.slot dir slot with
  | .error e => .error e
  | .ok s => .ok s.status

/-- Replaces the status byte of a slot. -/
def setStatus (p : ProcessImage) (dir : Direction) (slot : UInt16) (status : UInt8) :
    Except Error ProcessImage :=
  match p.slot dir slot with
  | .error e => .error e
  | .ok s => .ok (p.setSlot dir slot { s with status })

/-! ## Whole frames

An image is packed signal by signal, each followed by the next, and the status byte at the end of
its slot. The loops go by what the image has when writing and by what the device has when reading;
so an image of the wrong shape is found out while it is written, and what is read has the right one. -/

/-- Writes the signals of the slot at index `slot`, from index `signal` on. -/
def packSignals (v : FrameView) (slot : UInt16) :
    (signal : Nat) → List (Array UInt64) → Bytes → Written Error
  | _, [], frame => (.ok (), frame)
  | signal, values :: rest, frame =>
    match v.packField frame slot (UInt16.ofNat signal) values with
    | (.error e, frame) => (.error e, frame)
    | (.ok (), frame) => packSignals v slot (signal + 1) rest frame

/-- Writes slots from index `slot` on: the signals of each, then its status byte. -/
def packSlots (v : FrameView) : (slot : Nat) → List SlotImage → Bytes → Written Error
  | _, [], frame => (.ok (), frame)
  | slot, s :: rest, frame =>
    match packSignals v (UInt16.ofNat slot) 0 s.signals.toList frame with
    | (.error e, frame) => (.error e, frame)
    | (.ok (), frame) =>
      match v.statusPlace frame (UInt16.ofNat slot) with
      | .error e => (.error e, frame)
      | .ok offset => packSlots v (slot + 1) rest (frame.setIfInBounds offset s.status)

/-- Writes the side of the image that the layout is for into a frame. -/
def pack (p : ProcessImage) (v : FrameView) (frame : Bytes) : Written Error :=
  match v.direction with
  | .error e => (.error e, frame)
  | .ok dir =>
    match v.checkSize frame with
    | .error e => (.error e, frame)
    | .ok () => packSlots v 0 (p.slots dir).toList frame

/-- Reads `count` signals of the slot at index `slot`, from index `signal` on. -/
def unpackSignals (v : FrameView) (frame : Bytes) (slot : UInt16) :
    (signal count : Nat) → Array (Array UInt64) → Except Error (Array (Array UInt64))
  | _, 0, read => .ok read
  | signal, count + 1, read =>
    match v.unpackField frame slot (UInt16.ofNat signal) with
    | .error e => .error e
    | .ok values => unpackSignals v frame slot (signal + 1) count (read.push values)

/-- Reads slots from index `slot` on, in the shape that the device gives them. -/
def unpackSlots (v : FrameView) (dir : Direction) (frame : Bytes) :
    (slot : Nat) → List Slot → Array SlotImage → Except Error (Array SlotImage)
  | _, [], read => .ok read
  | slot, s :: rest, read =>
    match unpackSignals v frame (UInt16.ofNat slot) 0 (s.signals dir).size #[] with
    | .error e => .error e
    | .ok signals =>
      match v.status frame (UInt16.ofNat slot) with
      | .error e => .error e
      | .ok status => unpackSlots v dir frame (slot + 1) rest (read.push ⟨signals, status⟩)

/-- Reads a frame into the side of the image that the layout is for. -/
def unpack (p : ProcessImage) (v : FrameView) (frame : Bytes) : Except Error ProcessImage :=
  match v.direction with
  | .error e => .error e
  | .ok dir =>
    match v.checkSize frame with
    | .error e => .error e
    | .ok () =>
      match unpackSlots v dir frame 0 v.device.slots.toList #[] with
      | .error e => .error e
      | .ok slots => .ok (p.withSlots dir slots)

/-- Reading a frame leaves the other direction alone. -/
theorem slots_unpack_of_ne {p q : ProcessImage} {v : FrameView} {frame : Bytes} {dir : Direction}
    (h : p.unpack v frame = .ok q) (hv : v.direction = .ok dir) {other : Direction}
    (hne : other ≠ dir) : q.slots other = p.slots other := by
  unfold unpack at h
  rw [hv] at h
  dsimp only at h
  split at h
  · cases h
  · split at h
    · cases h
    · cases h
      exact slots_withSlots_of_ne p hne _

end ProcessImage
end Fieldbus
