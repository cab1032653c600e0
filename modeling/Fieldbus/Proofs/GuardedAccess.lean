import Fieldbus.Proofs.Words
/-!
Access with guards.

A machine finds places by words, and looks at the length of a buffer before it touches a byte of it;
where the byte is outside, the program stops. This file has the access to bits and fields in this
form. Positions are words, every touch is guarded, and a stop is `none`.

The theorem about each operation is that it never stops and gives what the plain operation gives
(`..._eq`), as long as its positions are found without wrapping around. A field in a frame is
`WordField.Small`: it starts within the longest frame, and has no more and no longer elements than
a signal.

Two things could go wrong at each access: a position could wrap around and be taken for one at the
front of the buffer, or a check in words could let pass what the check in numbers refuses. So the
laws ask that the end of the range does not wrap around, and then both checks agree
(`Guarded.checkRange_eq`). It is the last element of a field that comes closest, and
`WordField.Small` leaves room for one element more, since the end of a range is computed before it
is compared.
-/

namespace Fieldbus

/-- A loop of which no turn stops is the plain loop. -/
theorem foldlM_eq_some {α β : Type} {f : α → β → Option α} {g : α → β → α} {P : α → Prop}
    {xs : List β} (h : ∀ a, P a → ∀ x ∈ xs, f a x = some (g a x) ∧ P (g a x)) {a : α} (ha : P a) :
    xs.foldlM f a = some (xs.foldl g a) := by
  induction xs generalizing a with
  | nil => rfl
  | cons x rest ih =>
    obtain ⟨hstep, hnext⟩ := h a ha x List.mem_cons_self
    rw [List.foldlM_cons, hstep, List.foldl_cons]
    exact ih (fun a ha y hy => h a ha y (List.mem_cons_of_mem x hy)) hnext

/-! ## Bits

Bits are read and written one at a time by a loop, with a guard in each turn, or in whole bytes,
with one guard for all of them. That a loop never stops is seen from each of its turns
(`foldlM_eq_some`): the position of each bit is in the buffer because the range is. -/

namespace Guarded

/-- The guard of one byte. -/
def reach (data : Bytes) (at_ : UInt64) : Option Unit :=
  if at_.toNat < data.size then some () else none

/-- The guard of `n` bytes that are taken at once. -/
def reachAll (data : Bytes) (start n : UInt64) : Option Unit :=
  if start.toNat ≤ data.size ∧ n.toNat ≤ data.size - start.toNat then some () else none

/-- Refuses lengths that no value has, and ranges that leave the buffer. -/
def checkRange (data : Bytes) (bit bits : UInt64) : Except AccessError Unit :=
  if bits = 0 ∨ 64 < bits then .error (.width bits.toNat)
  else if UInt64.ofNat data.size * 8 < bit + bits then .error (.tooShort data.size)
  else .ok ()

/-- Whether a range starts and ends on byte boundaries. -/
def onBytes (bit bits : UInt64) : Bool := bit % 8 = 0 && bits % 8 = 0

/-- The value of `bits` bits from position `bit` on. -/
def readRun (order : ByteOrder) (data : Bytes) (bit bits : UInt64) : Option UInt64 :=
  ((List.range bits.toNat).foldlM (fun v i =>
    let p := bit + UInt64.ofNat i
    (reach data (p / 8)).map fun _ =>
      v ||| (bitAt order data p.toNat).toNat <<< order.rank bits.toNat i) 0).map UInt64.ofNat

/-- `data` with the `bits` bits from position `bit` on replaced by those of `value`. -/
def writeRun (order : ByteOrder) (data : Bytes) (bit bits value : UInt64) : Option Bytes :=
  (List.range bits.toNat).foldlM (fun d i =>
    let p := bit + UInt64.ofNat i
    (reach d (p / 8)).map fun _ =>
      setBit order d p.toNat (wordBit value (order.rank bits.toNat i))) data

/-- Reads `bits` bits from position `bit` on. -/
def readBits (order : ByteOrder) (data : Bytes) (bit bits : UInt64) :
    Option (Except AccessError UInt64) :=
  match checkRange data bit bits with
  | .error e => some (.error e)
  | .ok () =>
    if onBytes bit bits then
      (reachAll data (bit / 8) (bits / 8)).map fun _ =>
        .ok (readBytes order data (bit / 8).toNat (bits / 8).toNat)
    else (readRun order data bit bits).map .ok

/-- `data` with the `bits` lowest bits of `value` at position `bit`, a range that is not refused. -/
def placeBits (order : ByteOrder) (data : Bytes) (bit bits value : UInt64) : Option Bytes :=
  if onBytes bit bits then
    (reachAll data (bit / 8) (bits / 8)).map fun _ =>
      writeBytes order data (bit / 8).toNat (bits / 8).toNat value
  else writeRun order data bit bits value

/-- Writes the `bits` lowest bits of `value` from position `bit` on. -/
def writeBits (order : ByteOrder) (data : Bytes) (bit bits value : UInt64) :
    Option (Except AccessError Bytes) :=
  match checkRange data bit bits with
  | .error e => some (.error e)
  | .ok () => (placeBits order data bit bits value).map .ok

section Bits
variable {data : Bytes} {bit bits : UInt64}

theorem reach_eq_some {at_ : UInt64} (h : at_.toNat < data.size) : reach data at_ = some () :=
  if_pos h

theorem reachAll_eq_some {start n : UInt64} (h : start.toNat + n.toNat ≤ data.size) :
    reachAll data start n = some () := if_pos ⟨by omega, by omega⟩

/-- **Ranges are refused as in numbers,** unless positions or the length wrap around. -/
theorem checkRange_eq (hsize : data.size * 8 < 2 ^ 64) (hend : bit.toNat + bits.toNat < 2 ^ 64) :
    checkRange data bit bits = Fieldbus.checkRange data bit.toNat bits.toNat := by
  have hlength : (UInt64.ofNat data.size * 8).toNat = data.size * 8 := by
    rw [show (8 : UInt64) = UInt64.ofNat 8 from rfl, ← UInt64.ofNat_mul, toNat_word hsize]
  have hzero : bits = 0 ↔ bits.toNat = 0 := UInt64.toNat_inj.symm
  have hlong : 64 < bits ↔ maxWidth < bits.toNat := UInt64.lt_iff_toNat_lt
  have hshort : UInt64.ofNat data.size * 8 < bit + bits ↔
      data.size * 8 < bit.toNat + bits.toNat := by
    rw [UInt64.lt_iff_toNat_lt, hlength, toNat_word_add hend]
  unfold checkRange Fieldbus.checkRange
  simp only [hzero, hlong, hshort]

theorem onBytes_eq : onBytes bit bits = Fieldbus.onBytes bit.toNat bits.toNat := by
  have hmod (word : UInt64) : word % 8 = 0 ↔ word.toNat % 8 = 0 := by
    rw [← UInt64.toNat_inj, UInt64.toNat_mod]
    rfl
  simp only [onBytes, Fieldbus.onBytes, hmod]

/-- The position of a bit of a range in the buffer, and the byte that it is in. -/
theorem position_spec (hsize : data.size * 8 < 2 ^ 64)
    (hrange : bit.toNat + bits.toNat ≤ 8 * data.size) {i : Nat} (hi : i ∈ List.range bits.toNat) :
    (bit + UInt64.ofNat i).toNat = bit.toNat + i ∧
      reach data ((bit + UInt64.ofNat i) / 8) = some () := by
  have hlt : i < bits.toNat := List.mem_range.1 hi
  have hword : (UInt64.ofNat i).toNat = i := toNat_word (by omega)
  have hposition : (bit + UInt64.ofNat i).toNat = bit.toNat + i := by
    rw [toNat_word_add (by omega), hword]
  refine ⟨hposition, reach_eq_some ?_⟩
  rw [UInt64.toNat_div, hposition, show (8 : UInt64).toNat = 8 from rfl]
  omega

theorem readRun_eq (order : ByteOrder) (hsize : data.size * 8 < 2 ^ 64)
    (hrange : bit.toNat + bits.toNat ≤ 8 * data.size) :
    readRun order data bit bits = some (Fieldbus.readRun order data bit.toNat bits.toNat) := by
  unfold readRun Fieldbus.readRun
  rw [foldlM_eq_some (P := fun _ => True) (g := fun v i =>
    v ||| (bitAt order data (bit.toNat + i)).toNat <<< order.rank bits.toNat i) _ trivial]
  · rfl
  · intro v _ i hi
    obtain ⟨hposition, hreach⟩ := position_spec hsize hrange hi
    dsimp only
    rw [hreach, hposition]
    exact ⟨rfl, trivial⟩

theorem writeRun_eq (order : ByteOrder) (hsize : data.size * 8 < 2 ^ 64)
    (hrange : bit.toNat + bits.toNat ≤ 8 * data.size) (value : UInt64) :
    writeRun order data bit bits value =
      some (Fieldbus.writeRun order data bit.toNat bits.toNat value) := by
  unfold writeRun Fieldbus.writeRun
  -- no bit that is set changes the length that the guards look at
  refine foldlM_eq_some (P := fun d => d.size = data.size) (fun d hd i hi => ?_) rfl
  rw [← hd] at hsize hrange
  obtain ⟨hposition, hreach⟩ := position_spec hsize hrange hi
  dsimp only
  rw [hreach, hposition]
  exact ⟨rfl, (size_setBit ..).trans hd⟩

/-- Bytes of a range in the buffer. -/
theorem reachAll_of_range (hon : Fieldbus.onBytes bit.toNat bits.toNat = true)
    (hrange : bit.toNat + bits.toNat ≤ 8 * data.size) :
    reachAll data (bit / 8) (bits / 8) = some () := by
  simp only [Fieldbus.onBytes, Bool.and_eq_true, decide_eq_true_eq] at hon
  apply reachAll_eq_some
  rw [UInt64.toNat_div, UInt64.toNat_div, show (8 : UInt64).toNat = 8 from rfl]
  omega

/-- **Reading never stops.** -/
theorem readBits_eq (order : ByteOrder) (hsize : data.size * 8 < 2 ^ 64)
    (hend : bit.toNat + bits.toNat < 2 ^ 64) :
    readBits order data bit bits =
      some (Fieldbus.readBits order data bit.toNat bits.toNat) := by
  unfold readBits Fieldbus.readBits
  rw [checkRange_eq hsize hend, onBytes_eq]
  cases hcheck : Fieldbus.checkRange data bit.toNat bits.toNat with
  | error e => rfl
  | ok _ =>
    have hrange := (checkRange_eq_ok_iff.1 hcheck).2
    dsimp only
    split
    · next hon =>
      rw [reachAll_of_range hon hrange, UInt64.toNat_div, UInt64.toNat_div]
      rfl
    · rw [readRun_eq order hsize hrange]
      rfl

theorem placeBits_eq (order : ByteOrder) (hsize : data.size * 8 < 2 ^ 64)
    (hrange : bit.toNat + bits.toNat ≤ 8 * data.size) (value : UInt64) :
    placeBits order data bit bits value =
      some (Fieldbus.placeBits order data bit.toNat bits.toNat value) := by
  unfold placeBits Fieldbus.placeBits
  rw [onBytes_eq]
  split
  · next hon =>
    rw [reachAll_of_range hon hrange, UInt64.toNat_div, UInt64.toNat_div]
    rfl
  · exact writeRun_eq order hsize hrange value

/-- **Writing never stops.** -/
theorem writeBits_eq (order : ByteOrder) (hsize : data.size * 8 < 2 ^ 64)
    (hend : bit.toNat + bits.toNat < 2 ^ 64) (value : UInt64) :
    writeBits order data bit bits value =
      some (Fieldbus.writeBits order data bit.toNat bits.toNat value) := by
  unfold writeBits Fieldbus.writeBits
  rw [checkRange_eq hsize hend]
  cases hcheck : Fieldbus.checkRange data bit.toNat bits.toNat with
  | error e => rfl
  | ok _ =>
    dsimp only
    rw [placeBits_eq order hsize (checkRange_eq_ok_iff.1 hcheck).2]
    rfl

end Bits

end Guarded

/-! ## Fields

A field is a position, a width and a number of elements, all words. Where an element starts is a
product and a sum, which are exact for small fields; then each operation on fields follows from that
on single values. -/

/-- `count` elements of `bits` bits each, from position `bit` on. -/
structure WordField where
  bit : UInt64
  bits : UInt64
  count : UInt64
deriving DecidableEq, Repr

namespace WordField

/-- The same field in numbers. -/
def plain (f : WordField) : BitField := ⟨f.bit.toNat, f.bits.toNat, f.count.toNat⟩

/-- Where element `index` starts. -/
def start (f : WordField) (index : UInt64) : UInt64 := f.bit + index * f.bits

/-- Reads the element at `index`. -/
def get (f : WordField) (order : ByteOrder) (data : Bytes) (index : UInt64) :
    Option (Except AccessError UInt64) :=
  if f.count ≤ index then some (.error (.noElement f.count.toNat))
  else Guarded.readBits order data (f.start index) f.bits

/-- Replaces the element at `index`. -/
def set (f : WordField) (order : ByteOrder) (data : Bytes) (index value : UInt64) :
    Option (Except AccessError Bytes) :=
  if f.count ≤ index then some (.error (.noElement f.count.toNat))
  else Guarded.writeBits order data (f.start index) f.bits value

/-- Reads `count` values of `bits` bits from position `bit` on, behind those already read. -/
def readElements (order : ByteOrder) (data : Bytes) (bits : UInt64) :
    (bit : UInt64) → (count : Nat) → Array UInt64 → Option (Except AccessError (Array UInt64))
  | _, 0, read => some (.ok read)
  | bit, count + 1, read =>
    match Guarded.readBits order data bit bits with
    | none => none
    | some (.error e) => some (.error e)
    | some (.ok value) => readElements order data bits (bit + bits) count (read.push value)

/-- Writes values of `bits` bits from position `bit` on, until one does not fit. -/
def writeElements (order : ByteOrder) (bits : UInt64) :
    (bit : UInt64) → List UInt64 → Bytes → Option (Written AccessError)
  | _, [], data => some (.ok (), data)
  | bit, value :: rest, data =>
    match Guarded.writeBits order data bit bits value with
    | none => none
    | some (.error e) => some (.error e, data)
    | some (.ok data) => writeElements order bits (bit + bits) rest data

/-- Reads all elements. -/
def unpack (f : WordField) (order : ByteOrder) (data : Bytes) :
    Option (Except AccessError (Array UInt64)) :=
  readElements order data f.bits f.bit f.count.toNat #[]

/-- Writes all elements; exactly one value per element is wanted. -/
def pack (f : WordField) (order : ByteOrder) (data : Bytes) (values : Array UInt64) :
    Option (Written AccessError) :=
  if values.size ≠ f.count.toNat then some (.error (.wrongCount values.size), data)
  else writeElements order f.bits f.bit values.toList data

/-- The positions of a field, and one element more, are told by words. -/
structure Small (f : WordField) : Prop where
  bit_le : f.bit.toNat ≤ 2 ^ 54
  bits_le : f.bits.toNat ≤ 64
  count_le : f.count.toNat ≤ 65535

variable {f : WordField} {data : Bytes}

/-- The elements of a small field, and their ends, are far from the last word. -/
theorem Small.mul_le (hf : f.Small) {k : Nat} (hk : k ≤ f.count.toNat) :
    k * f.bits.toNat ≤ 65535 * 64 :=
  Nat.mul_le_mul (Nat.le_trans hk hf.count_le) hf.bits_le

theorem Small.start_spec (hf : f.Small) {index : UInt64} (h : index.toNat < f.count.toNat) :
    (f.start index).toNat = f.plain.start index.toNat ∧
      (f.start index).toNat + f.bits.toNat < 2 ^ 64 := by
  have hmul := hf.mul_le (Nat.le_of_lt h)
  have hbit := hf.bit_le
  have hbits := hf.bits_le
  have hproduct : (index * f.bits).toNat = index.toNat * f.bits.toNat := toNat_word_mul (by omega)
  have hstart : (f.start index).toNat = f.bit.toNat + index.toNat * f.bits.toNat := by
    rw [start, toNat_word_add (by omega), hproduct]
  exact ⟨hstart, by omega⟩

theorem Small.get_eq (hf : f.Small) (order : ByteOrder) (hsize : data.size * 8 < 2 ^ 64)
    (index : UInt64) : f.get order data index = some (f.plain.get order data index.toNat) := by
  have hle : f.count ≤ index ↔ f.plain.count ≤ index.toNat := UInt64.le_iff_toNat_le
  by_cases h : f.plain.count ≤ index.toNat
  · rw [get, BitField.get, if_pos (hle.2 h), if_pos h]
    rfl
  · obtain ⟨hstart, hend⟩ := hf.start_spec (Nat.lt_of_not_le h)
    rw [get, BitField.get, if_neg (mt hle.1 h), if_neg h,
      Guarded.readBits_eq order hsize hend, hstart]
    rfl

theorem Small.set_eq (hf : f.Small) (order : ByteOrder) (hsize : data.size * 8 < 2 ^ 64)
    (index value : UInt64) :
    f.set order data index value = some (f.plain.set order data index.toNat value) := by
  have hle : f.count ≤ index ↔ f.plain.count ≤ index.toNat := UInt64.le_iff_toNat_le
  by_cases h : f.plain.count ≤ index.toNat
  · rw [set, BitField.set, if_pos (hle.2 h), if_pos h]
    rfl
  · obtain ⟨hstart, hend⟩ := hf.start_spec (Nat.lt_of_not_le h)
    rw [set, BitField.set, if_neg (mt hle.1 h), if_neg h,
      Guarded.writeBits_eq order hsize hend, hstart]
    rfl

theorem readElements_eq (order : ByteOrder) (hsize : data.size * 8 < 2 ^ 64) (bits : UInt64)
    (count : Nat) : ∀ (bit : UInt64) (read : Array UInt64),
      bit.toNat + count * bits.toNat < 2 ^ 64 →
      readElements order data bits bit count read =
        some (BitField.readElements order data bits.toNat bit.toNat count read) := by
  induction count with
  | zero => exact fun _ _ _ => rfl
  | succ count ih =>
    intro bit read hend
    rw [Nat.succ_mul] at hend
    have hnext : (bit + bits).toNat = bit.toNat + bits.toNat := toNat_word_add (by omega)
    rw [readElements, Guarded.readBits_eq order hsize (by omega), BitField.readElements]
    cases readBits order data bit.toNat bits.toNat with
    | error e => rfl
    | ok value =>
      dsimp only
      rw [ih (bit + bits) _ (by omega), hnext]

theorem writeElements_eq (order : ByteOrder) (bits : UInt64) (values : List UInt64) :
    ∀ (bit : UInt64) (data : Bytes), data.size * 8 < 2 ^ 64 →
      bit.toNat + values.length * bits.toNat < 2 ^ 64 →
      writeElements order bits bit values data =
        some (BitField.writeElements order bits.toNat bit.toNat values data) := by
  induction values with
  | nil => exact fun _ _ _ _ => rfl
  | cons value rest ih =>
    intro bit data hsize hend
    rw [List.length_cons, Nat.succ_mul] at hend
    have hnext : (bit + bits).toNat = bit.toNat + bits.toNat := toNat_word_add (by omega)
    rw [writeElements, Guarded.writeBits_eq order hsize (by omega), BitField.writeElements,
      writeBits]
    cases checkRange data bit.toNat bits.toNat with
    | error e => rfl
    | ok _ =>
      dsimp only
      rw [ih (bit + bits) _ (by rw [size_placeBits]; exact hsize) (by omega), hnext]

theorem Small.unpack_eq (hf : f.Small) (order : ByteOrder) (hsize : data.size * 8 < 2 ^ 64) :
    f.unpack order data = some (f.plain.unpack order data) := by
  have hmul := hf.mul_le (Nat.le_refl _)
  have hbit := hf.bit_le
  exact readElements_eq order hsize f.bits f.count.toNat f.bit #[] (by omega)

theorem Small.pack_eq (hf : f.Small) (order : ByteOrder) (hsize : data.size * 8 < 2 ^ 64)
    (values : Array UInt64) :
    f.pack order data values = some (f.plain.pack order data values) := by
  unfold pack BitField.pack
  by_cases h : values.size ≠ f.count.toNat
  · rw [if_pos h]
    exact congrArg some (if_pos h).symm
  · have hmul := hf.mul_le (Nat.le_of_eq (Decidable.not_not.1 h))
    have hbit := hf.bit_le
    rw [if_neg h, writeElements_eq order f.bits values.toList f.bit data hsize
      (by rw [Array.length_toList]; omega)]
    exact congrArg some (if_neg h).symm

end WordField

end Fieldbus
