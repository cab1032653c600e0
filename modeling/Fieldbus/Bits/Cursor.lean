import Fieldbus.Bits.Access
/-!
Cursors: positions that move through a buffer as values are read or written one after the other.

A cursor holds its position only; the buffer is given to each step. A step that fails moves
nothing.

Skipping and aligning move without looking at the buffer and may leave it behind; it is the next
read or write that finds the end. So moving never fails, and where a cursor stands says nothing of
the buffer.
-/

namespace Fieldbus

/-! ## By bytes

What is written is copied as a whole or not at all, and the rest of the buffer is as it was. -/

/-- A position in a buffer, counted in bytes. -/
structure ByteCursor where
  /-- Bytes already written. -/
  position : Nat := 0
deriving DecidableEq, Repr

namespace ByteCursor

/-- `data` with the bytes from `start` on replaced by `value`, as far as the buffer reaches. -/
def overwrite (data : Bytes) (start : Nat) (value : Bytes) : Bytes :=
  (value.foldl (fun (d, i) byte => (Array.setIfInBounds d i byte, i + 1)) (data, start)).1

/-- Moves on by `n` bytes. -/
def skip (c : ByteCursor) (n : Nat) : ByteCursor := ⟨c.position + n⟩

/-- Refuses `n` more bytes where the buffer ends before them. -/
def checkRoom (c : ByteCursor) (data : Bytes) (n : Nat) : Except AccessError Unit :=
  if data.size < c.position + n then .error (.noRoom data.size) else .ok ()

/-- Copies `value` to the current position and moves past it. -/
def write (c : ByteCursor) (data : Bytes) (value : Bytes) :
    Except AccessError (ByteCursor × Bytes) :=
  match c.checkRoom data value.size with
  | .error e => .error e
  | .ok () => .ok (c.skip value.size, overwrite data c.position value)

/-- The bytes not written yet. -/
def remaining (c : ByteCursor) (data : Bytes) : Bytes := data.extract c.position data.size

end ByteCursor

/-! ## By bits

The order in which positions are numbered belongs to the cursor, since it decides where the next bit
is. -/

/-- A position in a buffer, counted in bits, with the order in which they are numbered. -/
structure BitCursor where
  /-- Current position. -/
  position : Nat
  /-- Numbering of the bits. -/
  order : ByteOrder
deriving DecidableEq, Repr

namespace BitCursor

/-- The byte that holds the current bit. -/
def byte (c : BitCursor) : Nat := c.position / 8

/-- The current bit's offset in its byte. -/
def bit (c : BitCursor) : Nat := c.position % 8

/-- Moves on by `bits` bits. -/
def skip (c : BitCursor) (bits : Nat) : BitCursor := { c with position := c.position + bits }

/-- Moves to the next byte boundary, unless already on one. -/
def align (c : BitCursor) : BitCursor := { c with position := bytesFor c.position * 8 }

/-- Reads the next `bits` bits and moves past them. -/
def read (c : BitCursor) (data : Bytes) (bits : Nat) : Except AccessError (UInt64 × BitCursor) :=
  match readBits c.order data c.position bits with
  | .error e => .error e
  | .ok value => .ok (value, c.skip bits)

/-- Writes the `bits` lowest bits of `value` and moves past them. -/
def write (c : BitCursor) (data : Bytes) (value : UInt64) (bits : Nat) :
    Except AccessError (BitCursor × Bytes) :=
  match writeBits c.order data c.position bits value with
  | .error e => .error e
  | .ok data => .ok (c.skip bits, data)

/-- Aligning goes to the least byte boundary that is not behind. -/
theorem align_position (c : BitCursor) :
    c.align.position % 8 = 0 ∧ c.position ≤ c.align.position ∧ c.align.position < c.position + 8 := by
  have := le_bytesFor c.position
  simp only [align]; omega

/-! ### Streams of steps

A stream is a list of steps, of which the values have a length each. A writer and a reader that go
through the same list are two programs on one type. -/

/-- One step of a stream that is written and then read back. -/
inductive Step where
  /-- A value of the given length. -/
  | value (bits : Nat) (value : UInt64)
  /-- Bits left alone. -/
  | skip (bits : Nat)
  /-- On to the next byte boundary. -/
  | align
deriving DecidableEq, Repr

/-- Runs a stream as a writer, until a value does not fit. -/
def writeAll : BitCursor → Bytes → List Step → Except AccessError Unit × BitCursor × Bytes
  | c, data, [] => (.ok (), c, data)
  | c, data, .value bits value :: rest =>
    match c.write data value bits with
    | .error e => (.error e, c, data)
    | .ok (c, data) => writeAll c data rest
  | c, data, .skip bits :: rest => writeAll (c.skip bits) data rest
  | c, data, .align :: rest => writeAll c.align data rest

/-- Runs the same stream as a reader, giving the values read and where it stopped. -/
def readAll : BitCursor → Bytes → List Step → Except AccessError (List UInt64 × BitCursor)
  | c, _, [] => .ok ([], c)
  | c, data, .value bits _ :: rest =>
    match c.read data bits with
    | .error e => .error e
    | .ok (value, c) => (readAll c data rest).map fun (values, c) => (value :: values, c)
  | c, data, .skip bits :: rest => readAll (c.skip bits) data rest
  | c, data, .align :: rest => readAll c.align data rest

end BitCursor

example : (ByteCursor.mk 1).write #[1, 2, 3] #[9, 8] = .ok (⟨3⟩, #[1, 9, 8]) := rfl
example : (BitCursor.mk 9 .little).align = ⟨16, .little⟩ := rfl

end Fieldbus
