import Fieldbus.Bits.Basic
/-!
Reading and writing values of 1 to 64 bits at any bit position of a buffer.

Values that start on a byte and take whole bytes are copied byte by byte, all others bit by bit.
Both ways place bit `order.rank bits i` of the value at position `bit + i` of the buffer. A
refused access changes nothing.

The range is checked first, against the lengths that values can have and then against the end of the
buffer, and by the same check for reading and for writing. After that nothing can go wrong.
-/

namespace Fieldbus

/-- The bit of a word at index `i`, counted from the least significant. -/
def wordBit (value : UInt64) (i : Nat) : Bool := value.toNat.testBit i

/-- Refuses lengths that no value has, and ranges that leave the buffer. -/
def checkRange (data : Bytes) (bit bits : Nat) : Except AccessError Unit :=
  if bits = 0 ∨ maxWidth < bits then .error (.width bits)
  else if data.size * 8 < bit + bits then .error (.tooShort data.size)
  else .ok ()

/-! ## Whole bytes

A value of whole bytes has its bytes in the order of the buffer, by rank: the first is the least
significant in one order and the most significant in the other. -/

/-- The value of `n` bytes from byte `start` on. -/
def readBytes (order : ByteOrder) (data : Bytes) (start n : Nat) : UInt64 :=
  let bytes := (data.extract start (start + n)).toList
  let value := match order with
    | .little => bytes.foldr (fun byte v => v * 256 + byte.toNat) 0
    | .big => bytes.foldl (fun v byte => v * 256 + byte.toNat) 0
  UInt64.ofNat value

/-- The byte of `value` that holds its bits of rank `8 * k` and up. -/
def wordByte (value : UInt64) (k : Nat) : UInt8 := UInt8.ofNat (value.toNat >>> (8 * k))

/-- `data` with `n` bytes from byte `start` on replaced by those of `value`. -/
def writeBytes (order : ByteOrder) (data : Bytes) (start n : Nat) (value : UInt64) : Bytes :=
  (List.range n).foldl
    (fun d i => d.setIfInBounds (start + i) (wordByte value (order.rank n i))) data

/-! ## Single bits

Each bit of the value goes to the position that its rank gives it, or comes from there. -/

/-- The value of `bits` bits from position `bit` on. -/
def readRun (order : ByteOrder) (data : Bytes) (bit bits : Nat) : UInt64 :=
  UInt64.ofNat <| (List.range bits).foldl
    (fun v i => v ||| (bitAt order data (bit + i)).toNat <<< order.rank bits i) 0

/-- `data` with the `bits` bits from position `bit` on replaced by those of `value`. -/
def writeRun (order : ByteOrder) (data : Bytes) (bit bits : Nat) (value : UInt64) : Bytes :=
  (List.range bits).foldl
    (fun d i => setBit order d (bit + i) (wordBit value (order.rank bits i))) data

/-! ## Values

Which of the two ways is taken is up to position and length; that this makes no difference is shown
further on. -/

/-- Whether a range starts and ends on byte boundaries. -/
def onBytes (bit bits : Nat) : Bool := bit % 8 = 0 && bits % 8 = 0

/-- Reads `bits` bits from position `bit` on. -/
def readBits (order : ByteOrder) (data : Bytes) (bit bits : Nat) : Except AccessError UInt64 :=
  match checkRange data bit bits with
  | .error e => .error e
  | .ok () =>
    if onBytes bit bits then .ok (readBytes order data (bit / 8) (bits / 8))
    else .ok (readRun order data bit bits)

/-- `data` with the `bits` lowest bits of `value` at position `bit`, a range that is not refused. -/
def placeBits (order : ByteOrder) (data : Bytes) (bit bits : Nat) (value : UInt64) : Bytes :=
  if onBytes bit bits then writeBytes order data (bit / 8) (bits / 8) value
  else writeRun order data bit bits value

/-- Writes the `bits` lowest bits of `value` from position `bit` on; all other bits of the buffer
stay. -/
def writeBits (order : ByteOrder) (data : Bytes) (bit bits : Nat) (value : UInt64) :
    Except AccessError Bytes :=
  match checkRange data bit bits with
  | .error e => .error e
  | .ok () => .ok (placeBits order data bit bits value)

/-! ## Which accesses are refused

An access is refused for its range only, so for no value and for no content of the buffer. -/

theorem checkRange_eq_ok_iff {data : Bytes} {bit bits : Nat} :
    checkRange data bit bits = .ok () ↔ (1 ≤ bits ∧ bits ≤ 64) ∧ bit + bits ≤ 8 * data.size := by
  unfold checkRange maxWidth
  split
  · next h => simp; omega
  · next h =>
    split
    · next h' => simp; omega
    · next h' => simp; omega

/-- A buffer refuses to write exactly where it refuses to read, for the same reason. -/
theorem writeBits_eq_error_iff {order : ByteOrder} {data : Bytes} {bit bits : Nat} {value : UInt64}
    {e : AccessError} :
    writeBits order data bit bits value = .error e ↔ readBits order data bit bits = .error e := by
  unfold writeBits readBits
  cases checkRange data bit bits with
  | error e' => simp
  | ok _ => dsimp only; split <;> simp

/-- A write that is not refused places its value. -/
theorem writeBits_of_checkRange {data : Bytes} {bit bits : Nat}
    (h : checkRange data bit bits = .ok ()) (order : ByteOrder) (value : UInt64) :
    writeBits order data bit bits value = .ok (placeBits order data bit bits value) := by
  simp [writeBits, h]

example : readBits .little #[0x34, 0x12] 0 16 = .ok 0x1234 := rfl
example : readBits .big #[0x34, 0x12] 4 8 = .ok 0x41 := rfl
example : writeBits .big #[0, 0] 4 8 0xAB = .ok #[0x0A, 0xB0] := rfl

end Fieldbus
