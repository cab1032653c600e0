import Fieldbus.Bits.Cursor
import Fieldbus.Bits.Field
import Fieldbus.Device.Basic
/-!
Parameter memory: one flat buffer with the current value of every parameter of a device.

The parameters lie back to back, in slot then parameter order. Where each lies is decided when the
memory is allocated; the defaults are written by a cursor that runs through the buffer in the same
order.
-/

namespace Fieldbus

/-- A half-open range of bytes that a parameter occupies. -/
structure ByteRange where
  start : Nat
  stop : Nat
deriving DecidableEq, Repr

/-- The number of bytes in a range. -/
def ByteRange.length (r : ByteRange) : Nat := r.stop - r.start

/-- The values of all parameters, and where each lies. -/
structure ParamMemory where
  data : Bytes
  /-- Ranges of the parameters, by slot, then parameter. -/
  ranges : Array (Array ByteRange)
deriving DecidableEq, Repr

namespace ParamMemory

/-! ## Allocation

A parameter of no bytes has a range too, and it is empty. A device that has no parameter at all has
no memory. -/

/-- Gives a parameter the bytes behind those already given. -/
def placeParam : Nat × Array ByteRange → Parameter → Nat × Array ByteRange
  | (stop, ranges), p => (stop + p.byteLength.toNat, ranges.push ⟨stop, stop + p.byteLength.toNat⟩)

/-- Gives the parameters of a slot the bytes behind those already given. -/
def placeSlot : Nat × Array (Array ByteRange) → Slot → Nat × Array (Array ByteRange)
  | (stop, slots), s =>
    let (stop, ranges) := s.params.foldl placeParam (stop, #[])
    (stop, slots.push ranges)

/-- The total length of a device's parameters, and the range of each. -/
def place (d : Device) : Nat × Array (Array ByteRange) := d.slots.foldl placeSlot (0, #[])

/-- A memory of zeros for all parameters of a device; none if it has no parameter. -/
def allocate (d : Device) : Option ParamMemory :=
  if d.paramCount = 0 then none
  else
    let (size, ranges) := place d
    some ⟨zeroBytes size, ranges⟩

/-! ## Access

Look-ups are by index. To read and to write takes the range as it was found. -/

/-- The range of a parameter. -/
def locate (m : ParamMemory) (slot param : UInt16) : Option ByteRange :=
  match m.ranges[slot.toNat]? with
  | none => none
  | some ranges => ranges[param.toNat]?

/-- The bytes in a range. -/
def slice (m : ParamMemory) (r : ByteRange) : Bytes := m.data.extract r.start r.stop

/-- The memory with the bytes from `start` on replaced. -/
def write (m : ParamMemory) (start : Nat) (value : Bytes) : ParamMemory :=
  { m with data := ByteCursor.overwrite m.data start value }

/-! ## Defaults

The device whose defaults are written is given, and is compared with the memory by its counts. The
cursor knows nothing of the ranges. -/

/-- Writes the defaults of parameters behind the cursor, as long as each has its own length. -/
def writeDefaults : List Parameter → ByteCursor → Bytes → Except Error Unit × ByteCursor × Bytes
  | [], c, data => (.ok (), c, data)
  | p :: rest, c, data =>
    if p.default.size ≠ p.byteLength.toNat then (.error .defaultLength, c, data)
    else
      match c.checkRoom data p.default.size with
      | .error e => (.error (.ofAccess e), c, data)
      | .ok () =>
        writeDefaults rest (c.skip p.default.size) (ByteCursor.overwrite data c.position p.default)

/-- Writes the defaults of slots behind the cursor, as long as each has as many parameters as the
memory was allocated for. -/
def writeSlots : List (Slot × Array ByteRange) → ByteCursor → Bytes → Written Error
  | [], _, data => (.ok (), data)
  | (s, ranges) :: rest, c, data =>
    if s.params.size ≠ ranges.size then (.error .foreignMemory, data)
    else
      match writeDefaults s.params.toList c data with
      | (.error e, _, data) => (.error e, data)
      | (.ok (), c, data) => writeSlots rest c data

/-- Writes the default of every parameter of a device; what was written before a failure stays. -/
def initDefaults (m : ParamMemory) (d : Device) : Except Error Unit × ParamMemory :=
  if d.slots.size ≠ m.ranges.size then (.error .foreignMemory, m)
  else
    let (outcome, data) := writeSlots (d.slots.toList.zip m.ranges.toList) {} m.data
    (outcome, { m with data })

/-- Each default is written by the cursor, where it has the length of its parameter. -/
theorem writeDefaults_cons {p : Parameter} (h : p.default.size = p.byteLength.toNat)
    (rest : List Parameter) (c : ByteCursor) (data : Bytes) :
    writeDefaults (p :: rest) c data =
      match c.write data p.default with
      | .error e => (.error (.ofAccess e), c, data)
      | .ok (c, data) => writeDefaults rest c data := by
  simp only [writeDefaults, h, ne_eq, not_true_eq_false, if_false, ByteCursor.write]
  cases c.checkRoom data p.byteLength.toNat <;> rfl

end ParamMemory
end Fieldbus
