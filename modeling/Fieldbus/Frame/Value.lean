import Fieldbus.Device.Basic
/-!
Typed values: how the raw bits of a signal element are understood.

An element travels as a word whose low bits are the element. `Value.ofRaw` reads that word by the
element's type, `Value.toRaw` gives the word back. Reals are kept as their bit patterns; comparing
them is the one place where their meaning counts.

Signed numbers of a width are carried by the bits of their two's complement in that width. A raw
field is the word as it is, so of all types it is the only one for which reading a word and cutting
it first are not the same.
-/

namespace Fieldbus

/-- A value of one signal element. -/
inductive Value where
  | bool (v : Bool)
  | int8 (v : Int8)
  | int16 (v : Int16)
  | int32 (v : Int32)
  | int64 (v : Int64)
  | uint8 (v : UInt8)
  | uint16 (v : UInt16)
  | uint32 (v : UInt32)
  | uint64 (v : UInt64)
  /-- A real of 32 bits, as its bit pattern. -/
  | real32 (bits : UInt32)
  /-- A real of 64 bits, as its bit pattern. -/
  | real64 (bits : UInt64)
  /-- The bits of a raw field or of a type that is not known. -/
  | raw (v : UInt64)
deriving DecidableEq, Repr

namespace Value

/-- Reads a word as an element of the given type; bits above the element are dropped, except for
raw fields, which keep the word as it is. -/
def ofRaw (type : DataType) (word : UInt64) : Value :=
  match type with
  | .bool => .bool (word &&& 1 != 0)
  | .int8 => .int8 word.toUInt8.toInt8
  | .int16 => .int16 word.toUInt16.toInt16
  | .int32 => .int32 word.toUInt32.toInt32
  | .int64 => .int64 word.toInt64
  | .uint8 => .uint8 word.toUInt8
  | .uint16 => .uint16 word.toUInt16
  | .uint32 => .uint32 word.toUInt32
  | .uint64 => .uint64 word
  | .real32 => .real32 word.toUInt32
  | .real64 => .real64 word
  | .bitfield _ | .unknown _ => .raw word

/-- The bits of a value; a negative number is not extended beyond its own width. -/
def toRaw : Value → UInt64
  | .bool v => if v then 1 else 0
  | .int8 v => v.toUInt8.toUInt64
  | .int16 v => v.toUInt16.toUInt64
  | .int32 v => v.toUInt32.toUInt64
  | .int64 v => v.toUInt64
  | .uint8 v => v.toUInt64
  | .uint16 v => v.toUInt64
  | .uint32 v => v.toUInt64
  | .uint64 v => v
  | .real32 bits => bits.toUInt64
  | .real64 bits => bits
  | .raw v => v

/-- Whether the values of a type are of a value's own variant. -/
def hasType : Value → DataType → Bool
  | .bool _, .bool => true
  | .int8 _, .int8 => true
  | .int16 _, .int16 => true
  | .int32 _, .int32 => true
  | .int64 _, .int64 => true
  | .uint8 _, .uint8 => true
  | .uint16 _, .uint16 => true
  | .uint32 _, .uint32 => true
  | .uint64 _, .uint64 => true
  | .real32 _, .real32 => true
  | .real64 _, .real64 => true
  | .raw _, .bitfield _ => true
  | .raw _, .unknown _ => true
  | _, _ => false

/-- A word read by any type has that type's variant. -/
theorem hasType_ofRaw (type : DataType) (word : UInt64) : (ofRaw type word).hasType type = true := by
  cases type <;> rfl

/-! ## Comparing

Equality of bit patterns is not equality of reals, and both are of use: a pattern that is no number
is kept by a frame like any other, and is different from itself. -/

/-- Equality of reals with `exponent` and `fraction` bits given as bit patterns: a pattern that is
not a number differs from all, the two zeros are equal, other patterns are equal to themselves. -/
def equalReals (exponent fraction a b : Nat) : Bool :=
  let magnitude (x : Nat) := x % Nat.pow 2 (exponent + fraction)
  let infinity := (Nat.pow 2 exponent - 1) * Nat.pow 2 fraction
  if infinity < magnitude a || infinity < magnitude b then false
  else if magnitude a = 0 && magnitude b = 0 then true
  else a = b

/-- Whether two values have the same variant and are equal in it. -/
def equal : Value → Value → Bool
  | .real32 a, .real32 b => equalReals 8 23 a.toNat b.toNat
  | .real64 a, .real64 b => equalReals 11 52 a.toNat b.toNat
  | a, b => a = b

example : (Value.real32 0x80000000).equal (.real32 0) = true := by decide
example : (Value.real32 0x7fc00000).equal (.real32 0x7fc00000) = false := by decide

end Value
end Fieldbus
