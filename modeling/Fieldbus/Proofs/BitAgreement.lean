import Fieldbus.Bits.Field
import Fieldbus.Proofs.BitAccess
/-!
Whole bytes and single bits.

Values on byte boundaries are copied byte by byte, all others go bit by bit. This file shows that
nobody can tell: a bit run over whole bytes reads what the byte run reads (`readBytes_eq_readRun`)
and leaves the buffer that the byte run leaves (`writeBytes_eq_writeRun`). Both follow from what
was said of each alone, since a run of bits reads as one value only and a buffer is its bits. So
reading and writing are the bit runs wherever they are not refused, and one statement about the
bits of the buffer covers both ways, both orders and every alignment (`readBits_writeBits_bits`).

That there are two ways at all is a matter of speed. The faster one is taken where position and
length are multiples of eight, and it goes over the value byte by byte, from the end that the order
of bits has first.
-/

namespace Fieldbus

/-- The positions of whole bytes, in bytes. -/
theorem onBytes_iff {bit bits : Nat} :
    onBytes bit bits = true ↔ 8 * (bit / 8) = bit ∧ 8 * (bits / 8) = bits := by
  simp only [onBytes, Bool.and_eq_true, decide_eq_true_eq]
  omega

/-! ## Reading

Both give a value that the range reads as, and there is only one such value. -/

/-- **Reading whole bytes is reading their bits.** -/
theorem readBytes_eq_readRun (order : ByteOrder) {data : Bytes} {start n : Nat} (hn : n ≤ 8)
    (h : start + n ≤ data.size) :
    readBytes order data start n = readRun order data (8 * start) (8 * n) :=
  (readBytes_readsAs order hn h).unique (readRun_readsAs order data (8 * start) (by omega))

/-- A read that is not refused is a bit run. -/
theorem readBits_eq_readRun (order : ByteOrder) {data : Bytes} {bit bits : Nat}
    (h : checkRange data bit bits = .ok ()) :
    readBits order data bit bits = .ok (readRun order data bit bits) := by
  obtain ⟨⟨-, hle⟩, -⟩ := checkRange_eq_ok_iff.1 h
  obtain ⟨value, hread, has⟩ := readBits_eq_ok order h
  rw [hread, has.unique (readRun_readsAs order data bit hle)]

/-- On byte boundaries, a read that is not refused is a byte run as well. -/
theorem readBits_eq_readBytes (order : ByteOrder) {data : Bytes} {bit bits : Nat}
    (h : checkRange data bit bits = .ok ()) (hon : onBytes bit bits = true) :
    readBits order data bit bits = .ok (readBytes order data (bit / 8) (bits / 8)) := by
  obtain ⟨⟨-, hle⟩, hend⟩ := checkRange_eq_ok_iff.1 h
  obtain ⟨hbit, hbits⟩ := onBytes_iff.1 hon
  rw [readBits_eq_readRun order h, readBytes_eq_readRun order (by omega) (by omega), hbit, hbits]

/-! ## Writing

Both leave the same bits at every position, and buffers of one size with the same bits are the same. -/

/-- **Writing whole bytes is writing their bits.** -/
theorem writeBytes_eq_writeRun (order : ByteOrder) {data : Bytes} {start n : Nat}
    (value : UInt64) (h : start + n ≤ data.size) :
    writeBytes order data start n value = writeRun order data (8 * start) (8 * n) value := by
  have hon : onBytes (8 * start) (8 * n) = true := onBytes_iff.2 ⟨by omega, by omega⟩
  have hend : 8 * start + 8 * n ≤ 8 * data.size := by omega
  have hplace : placeBits order data (8 * start) (8 * n) value =
      writeBytes order data start n value := by
    rw [placeBits, if_pos hon, Nat.mul_div_cancel_left _ (by omega),
      Nat.mul_div_cancel_left _ (by omega)]
  apply bytes_ext order
  · rw [size_writeBytes, size_writeRun]
  · intro p _
    rw [← hplace, bitAt_placeBits order value hend, bitAt_writeRun order value hend]

/-- A value that is placed within the buffer is placed by a bit run. -/
theorem placeBits_eq_writeRun (order : ByteOrder) {data : Bytes} {bit bits : Nat} (value : UInt64)
    (h : bit + bits ≤ 8 * data.size) :
    placeBits order data bit bits value = writeRun order data bit bits value := by
  rw [placeBits]
  split
  · next hon =>
    obtain ⟨hbit, hbits⟩ := onBytes_iff.1 hon
    rw [writeBytes_eq_writeRun order value (by omega), hbit, hbits]
  · rfl

/-! ## Refusals

A range is refused for its length first and for its end after that. Which error comes is decided
before the two ways part. -/

/-- Why a range is refused: for its length, whatever the buffer, or else for where it ends. -/
theorem checkRange_eq_error {data : Bytes} {bit bits : Nat}
    (h : ¬ ((1 ≤ bits ∧ bits ≤ 64) ∧ bit + bits ≤ 8 * data.size)) :
    checkRange data bit bits =
      .error (if 1 ≤ bits ∧ bits ≤ 64 then .tooShort data.size else .width bits) := by
  unfold checkRange maxWidth
  by_cases hwidth : 1 ≤ bits ∧ bits ≤ 64
  · rw [if_neg (by omega), if_pos (by omega), if_pos hwidth]
  · rw [if_pos (by omega), if_neg hwidth]

/-! ## One account of both

What is left to be put together: the position of a bit in the buffer, its rank in the value, the
value that is read, the buffer that is left, and the two errors. -/

/-- **Reading and writing are told by the bits of the buffer.** Position `p` of a buffer is bit
`p % 8` of byte `p / 8` in one order and bit `7 - p % 8` in the other, and the bit of a value that
belongs to position `bit + i` is bit `i` in one order and bit `bits - 1 - i` in the other.

Where the length is 1 to 64 and the range ends within the buffer,

* what is read is below `2 ^ bits` and has the bits of the buffer;
* a write leaves a buffer of the same length, with the bits of the value in the range and those it
  had everywhere else;
* the bit runs do both, and on byte boundaries so do the byte runs.

Everywhere else both are refused for the same reason, and a buffer that is written to in place is
left as it is. -/
theorem readBits_writeBits_bits (order : ByteOrder) (data : Bytes) (bit bits : Nat) :
    ((1 ≤ bits ∧ bits ≤ 64) ∧ bit + bits ≤ 8 * data.size →
      (∃ read, readBits order data bit bits = .ok read ∧ read.toNat < 2 ^ bits ∧
        ∀ i < bits, read.toNat.testBit (order.rank bits i) = bitAt order data (bit + i)) ∧
      (readBits order data bit bits = .ok (readRun order data bit bits) ∧
        (onBytes bit bits = true →
          readBits order data bit bits = .ok (readBytes order data (bit / 8) (bits / 8)))) ∧
      ∀ value : UInt64,
        (∃ written, writeBits order data bit bits value = .ok written ∧
          BitField.writeElements order bits bit [value] data = (.ok (), written) ∧
          written.size = data.size ∧
          (∀ i < bits, bitAt order written (bit + i) =
            value.toNat.testBit (order.rank bits i)) ∧
          ∀ p, p < bit ∨ bit + bits ≤ p → bitAt order written p = bitAt order data p) ∧
        (writeBits order data bit bits value = .ok (writeRun order data bit bits value) ∧
          (onBytes bit bits = true → writeBits order data bit bits value =
            .ok (writeBytes order data (bit / 8) (bits / 8) value)))) ∧
    (¬ ((1 ≤ bits ∧ bits ≤ 64) ∧ bit + bits ≤ 8 * data.size) →
      ∃ e : AccessError,
        e = (if 1 ≤ bits ∧ bits ≤ 64 then .tooShort data.size else .width bits) ∧
        readBits order data bit bits = .error e ∧
        ∀ value : UInt64, writeBits order data bit bits value = .error e ∧
          BitField.writeElements order bits bit [value] data = (.error e, data)) := by
  constructor
  · intro h
    have hcheck : checkRange data bit bits = .ok () := checkRange_eq_ok_iff.2 h
    refine ⟨readBits_eq_ok order hcheck, ⟨readBits_eq_readRun order hcheck,
      readBits_eq_readBytes order hcheck⟩, fun value => ⟨?_, ?_, ?_⟩⟩
    · have hplaced := bitAt_placeBits order value h.2
      refine ⟨placeBits order data bit bits value, writeBits_of_checkRange hcheck order value, ?_,
        size_placeBits .., fun i hi => ?_, fun p hp => ?_⟩
      · rw [BitField.writeElements, hcheck]
        rfl
      · rw [hplaced, if_pos (by omega), Nat.add_sub_cancel_left]
        rfl
      · rw [hplaced, if_neg (by omega)]
    · rw [writeBits_of_checkRange hcheck, placeBits_eq_writeRun order value h.2]
    · intro hon
      rw [writeBits_of_checkRange hcheck, placeBits, if_pos hon]
  · intro h
    have hcheck := checkRange_eq_error h
    have hread : readBits order data bit bits =
        .error (if 1 ≤ bits ∧ bits ≤ 64 then .tooShort data.size else .width bits) := by
      rw [readBits, hcheck]
    refine ⟨_, rfl, hread, fun value => ⟨writeBits_eq_error_iff.2 hread, ?_⟩⟩
    rw [BitField.writeElements, hcheck]

-- a word of 64 bits that lies in nine bytes
example : writeBits .big (zeroBytes 9) 4 64 0x0123456789ABCDEF =
    .ok #[0x00, 0x12, 0x34, 0x56, 0x78, 0x9A, 0xBC, 0xDE, 0xF0] := by decide +kernel

end Fieldbus
