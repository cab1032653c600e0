/-!
Bits of a byte buffer.

A process data frame is a sequence of bytes, and a value in it may start and end anywhere in a
byte. This file numbers the bits of a buffer, once for each byte order, and says how one bit is
read (`bitAt`) and written (`setBit`). Everything that reads or writes wider values agrees with
these two.

Two conventions are in use for frames, and both are needed. In the one, positions count from the
least significant bit of each byte, and the first byte of a value is its least significant; in the
other both are the other way round. `ByteOrder` stands for the pair, since they come together.
-/

namespace Fieldbus

/-- A buffer of bytes: a frame, a parameter value, a whole parameter frame. -/
abbrev Bytes := Array UInt8

/-- A buffer of `n` zero bytes. -/
def zeroBytes (n : Nat) : Bytes := Array.replicate n 0

/-- The order in which the bits of a buffer are numbered, and with them the bytes of a value. -/
inductive ByteOrder where
  /-- Least significant byte first; the bits of a byte are numbered from its least significant. -/
  | little
  /-- Most significant byte first; the bits of a byte are numbered from its most significant. -/
  | big
deriving DecidableEq, Repr, Inhabited

/-- The number of whole bytes that hold `bits` bits. -/
def bytesFor (bits : Nat) : Nat := (bits + 7) / 8

/-- Values have at most this many bits. -/
def maxWidth : Nat := 64

/-- The word whose `bits` lowest bits are set, all of them from 64 bits on. -/
def lowMask (bits : Nat) : UInt64 :=
  if maxWidth ≤ bits then UInt64.ofNat (UInt64.size - 1) else UInt64.ofNat (Nat.pow 2 bits - 1)

/-! ## Single bits

A position is a byte and a bit in it. Positions past the end read as clear and are not written to,
so that these functions are total and laws about them need no bounds. -/

/-- Where position `p` of a buffer lies in its byte, counted from the least significant bit. -/
def ByteOrder.bitInByte : ByteOrder → Nat → Nat
  | .little, p => p % 8
  | .big, p => 7 - p % 8

/-- The rank of the `i`-th of `n` consecutive units of a value, counted from its least
significant one: units are bits in a bit run and bytes in a byte run. -/
def ByteOrder.rank : ByteOrder → Nat → Nat → Nat
  | .little, _, i => i
  | .big, n, i => n - 1 - i

/-- The bit of `data` at position `p`; positions past the end read as clear. -/
def bitAt (order : ByteOrder) (data : Bytes) (p : Nat) : Bool :=
  (data.getD (p / 8) 0).toNat.testBit (order.bitInByte p)

/-- The byte in which bit `k` alone is set. -/
def oneBit (k : Nat) : UInt8 := 1 <<< UInt8.ofNat k

/-- `data` with the bit at position `p` replaced by `b`; positions past the end are ignored. -/
def setBit (order : ByteOrder) (data : Bytes) (p : Nat) (b : Bool) : Bytes :=
  data.modify (p / 8) fun byte =>
    let m := oneBit (order.bitInByte p)
    if b then byte ||| m else byte &&& ~~~m

@[simp] theorem size_zeroBytes (n : Nat) : (zeroBytes n).size = n := by simp [zeroBytes]

@[simp] theorem size_setBit (order : ByteOrder) (data : Bytes) (p : Nat) (b : Bool) :
    (setBit order data p b).size = data.size := by simp [setBit]

theorem ByteOrder.bitInByte_lt (order : ByteOrder) (p : Nat) : order.bitInByte p < 8 := by
  cases order <;> simp only [ByteOrder.bitInByte] <;> omega

theorem ByteOrder.rank_lt (order : ByteOrder) {n i : Nat} (h : i < n) : order.rank n i < n := by
  cases order <;> simp only [ByteOrder.rank] <;> omega

/-- `bytesFor` rounds up: its bytes hold the bits, and one byte fewer does not. -/
theorem le_bytesFor (bits : Nat) : bits ≤ 8 * bytesFor bits ∧ 8 * bytesFor bits < bits + 8 := by
  simp only [bytesFor]; omega

/-! ## Refused accesses

Each has a number to report and a text. They are made here and nowhere else, so that one cause has
one text. -/

/-- Why an access to a buffer was refused. -/
inductive AccessError where
  /-- The buffer, or the list of values, does not have the size needed; holds that size. -/
  | badSize (size : Nat) (text : String)
  /-- The bit length is not supported; holds that length. -/
  | badLength (bits : Nat) (text : String)
deriving DecidableEq, Repr

namespace AccessError

/-- What went wrong, in words. -/
def text : AccessError → String
  | .badSize _ t => t
  | .badLength _ t => t

/-- The number the error reports. -/
def number : AccessError → Nat
  | .badSize n _ => n
  | .badLength n _ => n

/-- A value cannot be `bits` long. -/
def width (bits : Nat) : AccessError := .badLength bits "values must be 1 to 64 bits long"

/-- A buffer of `size` bytes ends before the value does. -/
def tooShort (size : Nat) : AccessError := .badSize size "not enough bytes for value"

/-- A field of `count` elements has no element at the index asked for. -/
def noElement (count : Nat) : AccessError := .badSize count "element index out of field"

/-- `given` values were supplied to a field with another number of elements. -/
def wrongCount (given : Nat) : AccessError := .badSize given "wrong number of elements for field"

/-- A buffer of `size` bytes has no room left for the bytes to append. -/
def noRoom (size : Nat) : AccessError := .badSize size "not enough bytes left in buffer"

end AccessError

example : bitAt .little #[0x05] 2 = true ∧ bitAt .big #[0x05] 2 = false := by decide
example : setBit .big #[0x00, 0x00] 8 true = #[0x00, 0x80] := by decide

end Fieldbus
