import Fieldbus.Bits.Field
import Fieldbus.Frame.Layout
import Fieldbus.Frame.Value
/-!
Access to single signals of a frame.

A `FrameView` joins a device with the layout of a frame. Each access first checks that the frame is
exactly as long as the layout says, so a frame of another length is refused; of frames of the right
length none is, whatever device or direction they were made for. Then the signal is looked up in the
device, and its place in the layout. Device and layout may come from different models: what they
disagree on ends in an error.

The order of these steps decides which error is reported where several things are wrong: the length
of the frame first, then a layout without direction, then indices the device does not have, and in
the end what the layout lacks.
-/

namespace Fieldbus

/-- A device, the layout of a frame of it, and the order of the bits in that frame. -/
structure FrameView where
  device : Device
  map : FrameMap
  order : ByteOrder

namespace FrameView

/-- The direction of the frame; a layout that maps no frame has none. -/
def direction (v : FrameView) : Except Error Direction :=
  match v.map.direction with
  | none => .error .noLayout
  | some dir => .ok dir

/-- Refuses frames that are longer or shorter than the layout says. -/
def checkSize (v : FrameView) (frame : Bytes) : Except Error Unit :=
  if frame.size ≠ v.map.size then .error .frameSize else .ok ()

/-- The signal at the given indices, in the direction of the frame. -/
def signal (v : FrameView) (slot signal : UInt16) : Except Error Signal :=
  match v.direction with
  | .error e => .error e
  | .ok dir => v.device.signal dir slot signal

/-- Where the elements of a signal lie. -/
def field (v : FrameView) (slot signal : UInt16) : Except Error BitField :=
  match v.signal slot signal with
  | .error e => .error e
  | .ok s =>
    match v.map.signalOffset slot signal with
    | none => .error .foreignLayout
    | some offset => .ok ⟨offset * 8, s.width, s.elements⟩

/-! ## Whole signals

The two functions without a check of the length are those that whole frames are packed and read
with, where it is checked once. -/

/-- Reads all elements of a signal, without looking at the length of the frame. -/
def unpackField (v : FrameView) (frame : Bytes) (slot signal : UInt16) :
    Except Error (Array UInt64) :=
  match v.field slot signal with
  | .error e => .error e
  | .ok f => (f.unpack v.order frame).mapError .ofAccess

/-- Writes all elements of a signal, without looking at the length of the frame. -/
def packField (v : FrameView) (frame : Bytes) (slot signal : UInt16) (values : Array UInt64) :
    Written Error :=
  match v.field slot signal with
  | .error e => (.error e, frame)
  | .ok f =>
    let (outcome, frame) := f.pack v.order frame values
    (outcome.mapError .ofAccess, frame)

/-- Reads all elements of a signal. -/
def unpack (v : FrameView) (frame : Bytes) (slot signal : UInt16) : Except Error (Array UInt64) :=
  match v.checkSize frame with
  | .error e => .error e
  | .ok () => v.unpackField frame slot signal

/-- Writes all elements of a signal; exactly one value per element is wanted. -/
def pack (v : FrameView) (frame : Bytes) (slot signal : UInt16) (values : Array UInt64) :
    Written Error :=
  match v.checkSize frame with
  | .error e => (.error e, frame)
  | .ok () => v.packField frame slot signal values

/-! ## Single elements

One element is addressed by its index in the signal. Its type is that of the signal. -/

/-- Reads one element as a value of the signal's type. -/
def get (v : FrameView) (frame : Bytes) (slot signal : UInt16) (element : Nat) :
    Except Error Value :=
  match v.checkSize frame with
  | .error e => .error e
  | .ok () =>
    match v.signal slot signal, v.field slot signal with
    | .error e, _ => .error e
    | _, .error e => .error e
    | .ok s, .ok f =>
      match f.get v.order frame element with
      | .error e => .error (.ofAccess e)
      | .ok word => .ok (.ofRaw s.type word)

/-- Writes one element; the value may be of any variant, its bits are what is written. -/
def set (v : FrameView) (frame : Bytes) (slot signal : UInt16) (element : Nat) (value : Value) :
    Except Error Bytes :=
  match v.checkSize frame with
  | .error e => .error e
  | .ok () =>
    match v.field slot signal with
    | .error e => .error e
    | .ok f => (f.set v.order frame element value.toRaw).mapError .ofAccess

/-! ## Status bytes

A status byte is looked up in the layout alone; there is nothing in the device that would say more. -/

/-- Where the status byte of a slot is. -/
def statusPlace (v : FrameView) (frame : Bytes) (slot : UInt16) : Except Error Nat :=
  match v.checkSize frame with
  | .error e => .error e
  | .ok () =>
    match v.map.statusOffset slot with
    | none => .error .noSlot
    | some offset => .ok offset

/-- The status byte of a slot. -/
def status (v : FrameView) (frame : Bytes) (slot : UInt16) : Except Error UInt8 :=
  match v.statusPlace frame slot with
  | .error e => .error e
  | .ok offset => .ok (frame.getD offset 0)

/-- Replaces the status byte of a slot. -/
def setStatus (v : FrameView) (frame : Bytes) (slot : UInt16) (status : UInt8) :
    Except Error Bytes :=
  match v.statusPlace frame slot with
  | .error e => .error e
  | .ok offset => .ok (frame.setIfInBounds offset status)

/-- Writing a status byte never changes the length of the frame. -/
theorem size_of_setStatus {v : FrameView} {frame frame' : Bytes} {slot : UInt16} {status : UInt8}
    (h : v.setStatus frame slot status = .ok frame') : frame'.size = frame.size := by
  unfold setStatus at h
  split at h
  · cases h
  · cases h; simp

end FrameView
end Fieldbus
