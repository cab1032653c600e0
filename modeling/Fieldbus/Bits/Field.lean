import Fieldbus.Bits.Access
/-!
Fields: arrays of equally long values laid out back to back in a buffer.

A field holds no data, only where its elements lie, so it can be applied to any buffer; every
access is checked against the buffer it is applied to. Packing writes the elements in order and
stops at the first that does not fit, keeping those before it.

Because the elements before the one that does not fit are kept, packing gives a buffer also when it
fails. That is why a write is an outcome together with a buffer, and not one or the other.
-/

namespace Fieldbus

/-- The outcome of a write of several values, with the buffer as the write left it: on failure the
values before the one that failed are in place. -/
abbrev Written (ε : Type) := Except ε Unit × Bytes

/-- `count` elements of `bits` bits each, from position `bit` on. -/
structure BitField where
  /-- Position of the first element. -/
  bit : Nat
  /-- Length of one element. -/
  bits : Nat
  /-- Number of elements. -/
  count : Nat
deriving DecidableEq, Repr

namespace BitField

/-- The field of one element that starts at byte `byte`. -/
def scalar (byte bits : Nat) : BitField := ⟨byte * 8, bits, 1⟩

/-- The length of the whole field in bits. -/
def length (f : BitField) : Nat := f.bits * f.count

/-- The bytes the field occupies. -/
def byteLength (f : BitField) : Nat := bytesFor f.length

/-- Where element `index` starts. -/
def start (f : BitField) (index : Nat) : Nat := f.bit + index * f.bits

/-- The field as it appears in messages: its position, then count and length of its elements. -/
def text (f : BitField) : String := s!"BitField\x7b{f.bit}, {f.count}x{f.bits}\x7d"

/-! ## One element

An index is compared with the number of elements first, and only then the place in the buffer is
looked at; so an element that is in the buffer but not in the field is refused. -/

/-- Reads the element at `index`. -/
def get (f : BitField) (order : ByteOrder) (data : Bytes) (index : Nat) :
    Except AccessError UInt64 :=
  if f.count ≤ index then .error (.noElement f.count)
  else readBits order data (f.start index) f.bits

/-- Replaces the element at `index`. -/
def set (f : BitField) (order : ByteOrder) (data : Bytes) (index : Nat) (value : UInt64) :
    Except AccessError Bytes :=
  if f.count ≤ index then .error (.noElement f.count)
  else writeBits order data (f.start index) f.bits value

/-! ## All elements

A field with no element takes an empty list, wherever it lies. The number of values is compared
before anything is written. -/

/-- Reads `count` values of `bits` bits from position `bit` on, behind those already read. -/
def readElements (order : ByteOrder) (data : Bytes) (bits : Nat) :
    (bit count : Nat) → Array UInt64 → Except AccessError (Array UInt64)
  | _, 0, read => .ok read
  | bit, count + 1, read =>
    match readBits order data bit bits with
    | .error e => .error e
    | .ok value => readElements order data bits (bit + bits) count (read.push value)

/-- Writes values of `bits` bits from position `bit` on, until one does not fit. -/
def writeElements (order : ByteOrder) (bits : Nat) :
    (bit : Nat) → List UInt64 → Bytes → Written AccessError
  | _, [], data => (.ok (), data)
  | bit, value :: rest, data =>
    match checkRange data bit bits with
    | .error e => (.error e, data)
    | .ok () => writeElements order bits (bit + bits) rest (placeBits order data bit bits value)

/-- Reads all elements. -/
def unpack (f : BitField) (order : ByteOrder) (data : Bytes) : Except AccessError (Array UInt64) :=
  readElements order data f.bits f.bit f.count #[]

/-- Writes all elements; exactly one value per element is wanted. -/
def pack (f : BitField) (order : ByteOrder) (data : Bytes) (values : Array UInt64) :
    Written AccessError :=
  if values.size ≠ f.count then (.error (.wrongCount values.size), data)
  else writeElements order f.bits f.bit values.toList data

/-- With the wrong number of values, packing writes nothing. -/
theorem pack_of_size_ne {f : BitField} {values : Array UInt64} (h : values.size ≠ f.count)
    (order : ByteOrder) (data : Bytes) :
    f.pack order data values = (.error (.wrongCount values.size), data) := by
  simp [pack, h]

/-- A field of no element reads as no value from any buffer. -/
theorem unpack_of_count_eq_zero {f : BitField} (h : f.count = 0) (order : ByteOrder)
    (data : Bytes) : f.unpack order data = .ok #[] := by
  simp [unpack, h, readElements]

example : (BitField.mk 4 4 2).pack .big #[0, 0] #[0xA, 0xB] = (.ok (), #[0x0A, 0xB0]) := rfl
example : (BitField.mk 4 4 4).pack .big #[0, 0] #[0xA, 0xB, 0xC, 0xD] =
    (.error (.tooShort 2), #[0x0A, 0xBC]) := rfl

end BitField
end Fieldbus
