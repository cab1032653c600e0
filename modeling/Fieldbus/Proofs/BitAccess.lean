import Mathlib.Algebra.Ring.Nat
import Fieldbus.Bits.Access
/-!
Reading and writing one value, bit by bit.

A buffer is its size together with its bits (`bytes_ext`), so what a write does is said by the bit
at every position. There are two ways to write a value, byte by byte and bit by bit, and two ways
to read one; each pair is brought to one law here, and nothing above this file tells them apart:

* `bitAt_placeBits`: inside the range written, position `bit + i` holds the bit of the value whose
  rank is `order.rank bits i`; outside, nothing changes;
* `readBits_eq_ok`: what is read is below `2 ^ bits`, and its bit of rank `order.rank bits i` is the
  one at position `bit + i`.

Both orders are covered by `ByteOrder.rank`, which is its own inverse.

The laws are about all positions of the buffer at once, inside the range and outside. So none of
them needs a companion that says what is left alone, and two writes are compared by looking up one
bit in both. That a value is determined by what it reads as (`ReadsAs.unique`) is the counterpart
for reading; with the two, equality of buffers and equality of values are both questions about bits.

Whether bytes or bits are used depends on position and length only, which both must be multiples of
eight for bytes. No law here has that as a hypothesis; the case split is made in the proof of the
law about the operation and does not get out of it.
-/

namespace Fieldbus

/-! ## Bits of a buffer

A bit of a byte, a bit of a buffer, and the buffer given back by its bits. Byte order turns up in
one place, in which bit of its byte a position is, and that is a bijection for either order. -/

/-- A bit of a byte, as a bit of the vector the byte is. -/
theorem testBit_eq_getLsbD (byte : UInt8) (j : Nat) :
    byte.toNat.testBit j = byte.toBitVec.getLsbD j := rfl

theorem getLsbD_oneBit {k : Nat} (hk : k < 8) (j : Nat) :
    (oneBit k).toBitVec.getLsbD j = decide (j = k) := by
  have h : (oneBit k).toNat = 2 ^ k := by
    have : ∀ i : Fin 8, (oneBit i).toNat = 2 ^ (i : Nat) := by decide
    exact this ⟨k, hk⟩
  rw [← testBit_eq_getLsbD, h, Nat.testBit_two_pow]
  simp only [eq_comm]

/-- Replacing one bit of a byte replaces that bit and no other. -/
theorem testBit_replace (byte : UInt8) (b : Bool) {k j : Nat} (hk : k < 8) (hj : j < 8) :
    (if b then byte ||| oneBit k else byte &&& ~~~oneBit k).toNat.testBit j =
      if j = k then b else byte.toNat.testBit j := by
  rw [testBit_eq_getLsbD, testBit_eq_getLsbD]
  cases b with
  | true =>
    rw [if_pos rfl, UInt8.toBitVec_or, BitVec.getLsbD_or, getLsbD_oneBit hk]
    by_cases h : j = k <;> simp [h]
  | false =>
    rw [if_neg Bool.false_ne_true, UInt8.toBitVec_and, UInt8.toBitVec_not, BitVec.getLsbD_and,
      BitVec.getLsbD_not, getLsbD_oneBit hk]
    by_cases h : j = k <;> simp [h, hj]

/-- Two positions are the same when they are the same bit of the same byte. -/
theorem ByteOrder.eq_of_bitInByte_eq {order : ByteOrder} {p q : Nat} (hb : p / 8 = q / 8)
    (h : order.bitInByte p = order.bitInByte q) : p = q := by
  cases order <;> simp only [ByteOrder.bitInByte] at h <;> omega

/-- Setting a bit sets that bit and no other. -/
theorem bitAt_setBit (order : ByteOrder) (data : Bytes) (p q : Nat) (b : Bool)
    (hp : p < 8 * data.size) :
    bitAt order (setBit order data p b) q = if q = p then b else bitAt order data q := by
  have hk := order.bitInByte_lt p
  have hj := order.bitInByte_lt q
  have hlt : p / 8 < data.size := by omega
  unfold bitAt setBit
  rw [Array.getD_eq_getD_getElem?, Array.getD_eq_getD_getElem?, Array.getElem?_modify]
  -- within one byte, a position is told by its place there
  by_cases hbyte : p / 8 = q / 8
  · rw [if_pos hbyte, ← hbyte, Array.getElem?_eq_getElem hlt]
    simp only [Option.map_some, Option.getD_some]
    rw [testBit_replace _ _ hk hj]
    by_cases hq : q = p
    · rw [if_pos hq, if_pos (by rw [hq])]
    · have hne : order.bitInByte q ≠ order.bitInByte p := fun e =>
        hq (ByteOrder.eq_of_bitInByte_eq hbyte.symm e)
      rw [if_neg hq, if_neg hne]
  · have hq : q ≠ p := fun e => hbyte (by rw [e])
    rw [if_neg hbyte, if_neg hq]

/-- The position of bit `j` of byte `i`. -/
def ByteOrder.position (order : ByteOrder) (i j : Nat) : Nat := 8 * i + order.bitInByte j

/-- Every bit of every byte has a position. -/
theorem bitAt_position (order : ByteOrder) (data : Bytes) {i j : Nat} (hj : j < 8) :
    bitAt order data (order.position i j) = (data.getD i 0).toNat.testBit j := by
  have hlt := order.bitInByte_lt j
  have hi : order.position i j / 8 = i := by unfold ByteOrder.position; omega
  have hb : order.bitInByte (order.position i j) = j := by
    cases order <;> simp only [ByteOrder.position, ByteOrder.bitInByte] at hlt ⊢ <;> omega
  unfold bitAt
  rw [hi, hb]

/-- A byte has eight bits. -/
theorem testBit_byte_of_le (byte : UInt8) {j : Nat} (h : 8 ≤ j) : byte.toNat.testBit j = false :=
  Nat.testBit_lt_two_pow (Nat.lt_of_lt_of_le byte.toNat_lt (Nat.pow_le_pow_right (by omega) h))

/-- A byte is its eight bits. -/
theorem byte_ext {a b : UInt8} (h : ∀ j < 8, a.toNat.testBit j = b.toNat.testBit j) : a = b := by
  apply UInt8.toNat_inj.1
  apply Nat.eq_of_testBit_eq
  intro j
  rcases Nat.lt_or_ge j 8 with hj | hj
  · exact h j hj
  · rw [testBit_byte_of_le a hj, testBit_byte_of_le b hj]

/-- Buffers with the same bits at the positions of a byte have the same byte there. -/
theorem getD_eq_of_bitAt_eq {order : ByteOrder} {a b : Bytes} {t : Nat}
    (h : ∀ p, p / 8 = t → bitAt order a p = bitAt order b p) : a.getD t 0 = b.getD t 0 := by
  apply byte_ext
  intro j hj
  have hlt := order.bitInByte_lt j
  rw [← bitAt_position order a hj, ← bitAt_position order b hj]
  exact h _ (by unfold ByteOrder.position; omega)

/-- **A buffer is its size and its bits.** -/
theorem bytes_ext (order : ByteOrder) {a b : Bytes} (hsize : a.size = b.size)
    (h : ∀ p < 8 * a.size, bitAt order a p = bitAt order b p) : a = b := by
  apply Array.ext hsize
  intro i ha hb
  have hi : a.getD i 0 = b.getD i 0 :=
    getD_eq_of_bitAt_eq fun p hp => h p (by omega)
  rwa [Array.getD_eq_getD_getElem?, Array.getD_eq_getD_getElem?, Array.getElem?_eq_getElem ha,
    Array.getElem?_eq_getElem hb] at hi

/-- Positions past the end read as clear. -/
theorem bitAt_of_size_le (order : ByteOrder) {data : Bytes} {p : Nat} (h : 8 * data.size ≤ p) :
    bitAt order data p = false := by
  unfold bitAt
  rw [Array.getD_eq_getD_getElem?, Array.getElem?_eq_none (by omega)]
  exact Nat.zero_testBit _

/-- A buffer of zeros has no bit set. -/
@[simp] theorem bitAt_zeroBytes (order : ByteOrder) (n p : Nat) :
    bitAt order (zeroBytes n) p = false := by
  have h : (zeroBytes n).getD (p / 8) 0 = 0 := by
    rw [zeroBytes, Array.getD_eq_getD_getElem?, Array.getElem?_replicate]
    split <;> rfl
  unfold bitAt
  rw [h]
  exact Nat.zero_testBit _

/-! ## Ranks

The rank of a bit is its weight in the value. In the one order the first bit of a range has rank
zero, in the other it has the highest; either way the rank of a rank is the index. -/

/-- A rank is turned back into its index by taking the rank again. -/
theorem ByteOrder.rank_rank (order : ByteOrder) {n i : Nat} (h : i < n) :
    order.rank n (order.rank n i) = i := by
  cases order with
  | little => rfl
  | big =>
    show n - 1 - (n - 1 - i) = i
    omega

/-- Bit `i` of a run of whole bytes lies in byte `i / 8`, and its rank follows from the rank of
that byte and its place in it. -/
theorem ByteOrder.rank_bytes (order : ByteOrder) {n i : Nat} (h : i < 8 * n) :
    order.rank (8 * n) i = 8 * order.rank n (i / 8) + order.bitInByte i := by
  cases order <;> simp only [ByteOrder.rank, ByteOrder.bitInByte] <;> omega

/-! ## Writing

Writing bits and writing bytes are both folds that set one place after another, each place once.
`get_foldl_set` says what such a fold does to every place, whatever places are: bits in one case and
bytes in the other. Bytes are then broken into their bits by the rank of a bit in a run of whole
bytes. -/

/-- What every step of a fold keeps, the fold keeps. -/
theorem keeps_foldl {α β γ : Type} {part : α → γ} {step : α → β → α}
    (h : ∀ a b, part (step a b) = part a) (l : List β) (a : α) :
    part (l.foldl step a) = part a := by
  induction l generalizing a with
  | nil => rfl
  | cons b rest ih => exact (ih (step a b)).trans (h a b)

@[simp] theorem size_writeRun (order : ByteOrder) (data : Bytes) (bit bits : Nat)
    (value : UInt64) : (writeRun order data bit bits value).size = data.size :=
  keeps_foldl (fun d _ => size_setBit order d _ _) _ data

@[simp] theorem size_writeBytes (order : ByteOrder) (data : Bytes) (start n : Nat)
    (value : UInt64) : (writeBytes order data start n value).size = data.size :=
  keeps_foldl (fun _ _ => Array.size_setIfInBounds) _ data

/-- **Placing a value never changes the length of the buffer.** -/
@[simp] theorem size_placeBits (order : ByteOrder) (data : Bytes) (bit bits : Nat)
    (value : UInt64) : (placeBits order data bit bits value).size = data.size := by
  unfold placeBits
  split
  · exact size_writeBytes ..
  · exact size_writeRun ..

/-- After the first `n` steps of a run of writes, each at the next place, the places written have
what was written, and all others what they had. -/
theorem get_foldl_set {α β : Type} {size : α → Nat} {get : α → Nat → β} {set : α → Nat → β → α}
    (hsize : ∀ d p v, size (set d p v) = size d)
    (hget : ∀ d p v q, p < size d → get (set d p v) q = if q = p then v else get d q)
    (f : Nat → β) (data : α) (start : Nat) :
    ∀ n, start + n ≤ size data →
      ∀ q, get ((List.range n).foldl (fun d i => set d (start + i) (f i)) data) q =
        if start ≤ q ∧ q < start + n then f (q - start) else get data q := by
  intro n
  induction n with
  | zero =>
    intro _ q
    rw [if_neg (by omega)]
    rfl
  | succ n ih =>
    intro hn q
    -- the last step writes at a place behind those before it
    have hsame := keeps_foldl (fun d i => hsize d (start + i) (f i)) (List.range n) data
    rw [List.range_succ, List.foldl_append, List.foldl_cons, List.foldl_nil,
      hget _ _ _ _ (by rw [hsame]; omega), ih (by omega)]
    by_cases hq : q = start + n
    · rw [if_pos hq, if_pos (by omega), show q - start = n by omega]
    · rw [if_neg hq]
      by_cases hin : start ≤ q ∧ q < start + n
      · rw [if_pos hin, if_pos (by omega)]
      · rw [if_neg hin, if_neg (by omega)]

/-- What a bit run does to every bit. -/
theorem bitAt_writeRun (order : ByteOrder) {data : Bytes} {bit bits : Nat} (value : UInt64)
    (h : bit + bits ≤ 8 * data.size) (q : Nat) :
    bitAt order (writeRun order data bit bits value) q =
      if bit ≤ q ∧ q < bit + bits then wordBit value (order.rank bits (q - bit))
      else bitAt order data q :=
  @get_foldl_set _ _ (fun d => 8 * d.size) (bitAt order) (setBit order)
    (fun d p b => by rw [size_setBit]) (fun d p b q hp => bitAt_setBit order d p q b hp)
    (fun i => wordBit value (order.rank bits i)) data bit bits h q

/-- Bit `j` of byte `k` of a word is the word's bit of rank `8 * k + j`. -/
theorem testBit_wordByte (value : UInt64) (k : Nat) {j : Nat} (hj : j < 8) :
    (wordByte value k).toNat.testBit j = wordBit value (8 * k + j) := by
  unfold wordByte wordBit
  rw [UInt8.toNat_ofNat', Nat.testBit_mod_two_pow, Nat.testBit_shiftRight]
  simp [hj]

/-- What a byte run does to every byte. -/
theorem getD_writeBytes (order : ByteOrder) {data : Bytes} {start n : Nat} (value : UInt64)
    (h : start + n ≤ data.size) (i : Nat) :
    (writeBytes order data start n value).getD i 0 =
      if start ≤ i ∧ i < start + n then wordByte value (order.rank n (i - start))
      else data.getD i 0 := by
  have hget : ∀ (d : Bytes) (p : Nat) (byte : UInt8) (q : Nat), p < d.size →
      (d.setIfInBounds p byte).getD q 0 = if q = p then byte else d.getD q 0 := by
    intro d p byte q hp
    rw [Array.getD_eq_getD_getElem?, Array.getElem?_setIfInBounds]
    by_cases hq : q = p
    · rw [if_pos hq.symm, if_pos hp, if_pos hq, Option.getD_some]
    · rw [if_neg (Ne.symm hq), if_neg hq, Array.getD_eq_getD_getElem?]
  exact @get_foldl_set _ _ Array.size (fun d i => d.getD i 0) Array.setIfInBounds
    (fun d p byte => Array.size_setIfInBounds) hget
    (fun i => wordByte value (order.rank n i)) data start n h i

/-- **What placing a value does to every bit.** -/
theorem bitAt_placeBits (order : ByteOrder) {data : Bytes} {bit bits : Nat} (value : UInt64)
    (h : bit + bits ≤ 8 * data.size) (q : Nat) :
    bitAt order (placeBits order data bit bits value) q =
      if bit ≤ q ∧ q < bit + bits then wordBit value (order.rank bits (q - bit))
      else bitAt order data q := by
  unfold placeBits
  split
  · next hon =>
    -- whole bytes: position `q` is in byte `q / 8`, and the ranks of byte and bit add up
    simp only [onBytes, Bool.and_eq_true, decide_eq_true_eq] at hon
    have hlt := order.bitInByte_lt q
    unfold bitAt
    rw [getD_writeBytes order value (by omega)]
    by_cases hin : bit ≤ q ∧ q < bit + bits
    · rw [if_pos hin, if_pos (by omega), testBit_wordByte _ _ hlt]
      have hr := order.rank_bytes (n := bits / 8) (i := q - bit) (by omega)
      have hb : order.bitInByte (q - bit) = order.bitInByte q := by
        cases order <;> simp only [ByteOrder.bitInByte] <;> omega
      rw [show 8 * (bits / 8) = bits by omega, hb,
        show (q - bit) / 8 = q / 8 - bit / 8 by omega] at hr
      rw [hr]
    · rw [if_neg hin, if_neg (by omega)]
  · exact bitAt_writeRun order value h q

/-! ## Reading

Reading bits collects them into a number, each at its rank; reading bytes puts the number together
from its digits. Both are shown to give the value that the range reads as, and there is only one. -/

/-- A value is what a run of bits reads as: it has no higher bits, and its bit of rank
`order.rank bits i` is the one at position `bit + i`. -/
def ReadsAs (order : ByteOrder) (data : Bytes) (bit bits : Nat) (value : UInt64) : Prop :=
  value.toNat < 2 ^ bits ∧
    ∀ i < bits, wordBit value (order.rank bits i) = bitAt order data (bit + i)

/-- **A run of bits reads as one value only.** -/
theorem ReadsAs.unique {order : ByteOrder} {data : Bytes} {bit bits : Nat} {a b : UInt64}
    (ha : ReadsAs order data bit bits a) (hb : ReadsAs order data bit bits b) : a = b := by
  apply UInt64.toNat_inj.1
  apply Nat.eq_of_testBit_eq
  intro r
  -- below the width both have the bits of the buffer, from there on both have none
  rcases Nat.lt_or_ge r bits with hr | hr
  · have hi := order.rank_lt hr
    have h := (ha.2 _ hi).trans (hb.2 _ hi).symm
    rwa [order.rank_rank hr] at h
  · have hpow : 2 ^ bits ≤ 2 ^ r := Nat.pow_le_pow_right (by omega) hr
    rw [Nat.testBit_lt_two_pow (Nat.lt_of_lt_of_le ha.1 hpow),
      Nat.testBit_lt_two_pow (Nat.lt_of_lt_of_le hb.1 hpow)]

/-- The first `n` steps of collecting bits into a number, each at a rank of its own. -/
theorem testBit_foldl_or (f : Nat → Bool) (rank : Nat → Nat) (r : Nat) :
    ∀ n, ((List.range n).foldl (fun v i => v ||| (f i).toNat <<< rank i) 0).testBit r = true ↔
      ∃ i < n, rank i = r ∧ f i = true := by
  intro n
  induction n with
  | zero => simp
  | succ n ih =>
    simp only [List.range_succ, List.foldl_append, List.foldl_cons, List.foldl_nil]
    rw [Nat.testBit_or, Bool.or_eq_true, ih, Nat.testBit_shiftLeft]
    constructor
    · rintro (⟨i, hi, h⟩ | h)
      · exact ⟨i, by omega, h⟩
      · simp only [ge_iff_le, Bool.and_eq_true, decide_eq_true_eq] at h
        obtain ⟨hle, hbit⟩ := h
        cases hf : f n with
        | false =>
          rw [hf] at hbit
          simp at hbit
        | true =>
          rw [hf, Bool.toNat_true, Nat.testBit_one_eq_true_iff_self_eq_zero] at hbit
          exact ⟨n, by omega, by omega, hf⟩
    · rintro ⟨i, hi, hr, hf⟩
      rcases Nat.lt_succ_iff_lt_or_eq.1 hi with hlt | rfl
      · exact Or.inl ⟨i, hlt, hr, hf⟩
      · right
        simp [hr, hf]

/-- A number is below a power of two when it has no bit from there on. -/
theorem ofNat_readsAs {order : ByteOrder} {data : Bytes} {bit bits n : Nat} (hbits : bits ≤ 64)
    (h : ∀ r, n.testBit r = (decide (r < bits) && bitAt order data (bit + order.rank bits r))) :
    ReadsAs order data bit bits (UInt64.ofNat n) := by
  have hlt : n < 2 ^ bits := by
    apply Nat.lt_pow_two_of_testBit
    intro r hr
    rw [h, decide_eq_false (by omega), Bool.false_and]
  have hn : (UInt64.ofNat n).toNat = n := by
    rw [UInt64.toNat_ofNat']
    exact Nat.mod_eq_of_lt (Nat.lt_of_lt_of_le hlt (Nat.pow_le_pow_right (by omega) hbits))
  refine ⟨by rw [hn]; exact hlt, fun i hi => ?_⟩
  unfold wordBit
  rw [hn, h, decide_eq_true (order.rank_lt hi), Bool.true_and, order.rank_rank hi]

theorem readRun_readsAs (order : ByteOrder) (data : Bytes) (bit : Nat) {bits : Nat}
    (hbits : bits ≤ 64) : ReadsAs order data bit bits (readRun order data bit bits) := by
  apply ofNat_readsAs hbits
  intro r
  rw [Bool.eq_iff_iff, testBit_foldl_or, Bool.and_eq_true, decide_eq_true_eq]
  constructor
  · rintro ⟨i, hi, rfl, hf⟩
    exact ⟨order.rank_lt hi, by rwa [order.rank_rank hi]⟩
  · rintro ⟨hr, hf⟩
    exact ⟨order.rank bits r, order.rank_lt hr, order.rank_rank hr, hf⟩

/-- The number whose bytes are given, least significant first, has the bits of these bytes. -/
theorem testBit_foldr_bytes (bytes : List UInt8) (r : Nat) :
    (bytes.foldr (fun (byte : UInt8) v => v * 256 + byte.toNat) 0).testBit r =
      (bytes.getD (r / 8) 0).toNat.testBit (r % 8) := by
  induction bytes generalizing r with
  | nil => simp
  | cons byte rest ih =>
    rw [List.foldr_cons, show ∀ v : Nat, v * 256 + byte.toNat = 2 ^ 8 * v + byte.toNat by omega,
      Nat.testBit_two_pow_mul_add _ byte.toNat_lt]
    rcases Nat.lt_or_ge r 8 with hr | hr
    · rw [if_pos hr, show r / 8 = 0 by omega, show r % 8 = r by omega]
      rfl
    · rw [if_neg (by omega), ih, show r / 8 = (r - 8) / 8 + 1 by omega,
        show (r - 8) % 8 = r % 8 by omega, List.getD_cons_succ]

/-- The bytes read, by index. -/
theorem getD_extract (data : Bytes) (start n i : Nat) (h : start + n ≤ data.size) :
    (data.extract start (start + n)).toList.getD i 0 =
      if i < n then data.getD (start + i) 0 else 0 := by
  rw [List.getD_eq_getElem?_getD, Array.getElem?_toList, Array.getElem?_extract,
    Array.getD_eq_getD_getElem?]
  by_cases hi : i < n
  · rw [if_pos hi, if_pos (by omega)]
  · rw [if_neg hi, if_neg (by omega)]
    rfl

theorem readBytes_readsAs (order : ByteOrder) {data : Bytes} {start n : Nat} (hn : n ≤ 8)
    (h : start + n ≤ data.size) :
    ReadsAs order data (8 * start) (8 * n) (readBytes order data start n) := by
  apply ofNat_readsAs (by omega)
  intro r
  have hlen : (data.extract start (start + n)).toList.length = n := by
    rw [Array.length_toList, Array.size_extract]
    omega
  -- bit `r` of the number, with the bytes taken in the order of the ranks
  have hbyte : ∀ (i j : Nat), i < n → j < 8 →
      (data.getD (start + i) 0).toNat.testBit j =
        bitAt order data (8 * start + order.position i j) := by
    intro i j _ hj
    rw [show 8 * start + order.position i j = order.position (start + i) j by
      unfold ByteOrder.position; omega, bitAt_position order data hj]
  cases order with
  | little =>
    rw [testBit_foldr_bytes, getD_extract _ _ _ _ h]
    by_cases hr : r < 8 * n
    · rw [if_pos (by omega), hbyte _ _ (by omega) (by omega), decide_eq_true hr, Bool.true_and]
      simp only [ByteOrder.position, ByteOrder.bitInByte, ByteOrder.rank]
      rw [show 8 * (r / 8) + r % 8 % 8 = r by omega]
    · rw [if_neg (by omega), decide_eq_false hr, Bool.false_and]
      exact Nat.zero_testBit _
  | big =>
    -- the first byte counts most here, so the bytes are taken from the last on
    have hrev : ∀ bytes : List UInt8, bytes.foldl (fun v byte => v * 256 + byte.toNat) 0 =
        bytes.reverse.foldr (fun (byte : UInt8) v => v * 256 + byte.toNat) 0 := fun bytes => by
      rw [List.foldr_reverse]
    rw [hrev, testBit_foldr_bytes]
    by_cases hr : r < 8 * n
    · rw [List.getD_eq_getElem?_getD, List.getElem?_reverse (by omega),
        ← List.getD_eq_getElem?_getD, hlen, getD_extract _ _ _ _ h, if_pos (by omega),
        hbyte _ _ (by omega) (by omega), decide_eq_true hr, Bool.true_and]
      simp only [ByteOrder.position, ByteOrder.bitInByte, ByteOrder.rank]
      rw [show 8 * (n - 1 - r / 8) + (7 - r % 8 % 8) = 8 * n - 1 - r by omega]
    · have hlong : n ≤ r / 8 := by omega
      rw [List.getD_eq_getElem?_getD,
        List.getElem?_eq_none (by rw [List.length_reverse, hlen]; exact hlong),
        decide_eq_false hr, Bool.false_and]
      exact Nat.zero_testBit _

/-- **What reading a value gives.** -/
theorem readBits_eq_ok (order : ByteOrder) {data : Bytes} {bit bits : Nat}
    (h : checkRange data bit bits = .ok ()) :
    ∃ value, readBits order data bit bits = .ok value ∧ ReadsAs order data bit bits value := by
  obtain ⟨⟨-, hle⟩, hend⟩ := checkRange_eq_ok_iff.1 h
  unfold readBits
  rw [h]
  by_cases hon : onBytes bit bits = true
  · have hdvd := hon
    simp only [onBytes, Bool.and_eq_true, decide_eq_true_eq] at hdvd
    refine ⟨readBytes order data (bit / 8) (bits / 8), by simp only [hon, if_true], ?_⟩
    have hread : ReadsAs order data (8 * (bit / 8)) (8 * (bits / 8))
        (readBytes order data (bit / 8) (bits / 8)) :=
      readBytes_readsAs order (by omega) (by omega)
    rwa [show 8 * (bit / 8) = bit by omega, show 8 * (bits / 8) = bits by omega] at hread
  · refine ⟨readRun order data bit bits, ?_, readRun_readsAs order data bit hle⟩
    simp only [hon]
    rfl

/-! ## Reading what was written

What was put at the positions of a range has the bits of the value by rank, so it reads as the value
without its higher bits. -/

/-- The lowest `bits` bits of a word. -/
theorem wordBit_and_lowMask (value : UInt64) {bits : Nat} (hbits : bits ≤ 64) (r : Nat) :
    wordBit (value &&& lowMask bits) r = (decide (r < bits) && wordBit value r) := by
  have hmask : (lowMask bits).toNat = 2 ^ bits - 1 := by
    have hpow : 2 ^ bits ≤ 2 ^ 64 := Nat.pow_le_pow_right (by omega) hbits
    have hpos := Nat.two_pow_pos bits
    unfold lowMask maxWidth
    split
    · next h64 =>
      rw [show bits = 64 by omega]
      rfl
    · show (UInt64.ofNat (2 ^ bits - 1)).toNat = 2 ^ bits - 1
      rw [UInt64.toNat_ofNat']
      exact Nat.mod_eq_of_lt (by omega)
  unfold wordBit
  rw [UInt64.toNat_and, hmask, Nat.testBit_and, Nat.testBit_two_pow_sub_one, Bool.and_comm]

theorem and_lowMask_lt (value : UInt64) {bits : Nat} (hbits : bits ≤ 64) :
    (value &&& lowMask bits).toNat < 2 ^ bits := by
  apply Nat.lt_pow_two_of_testBit
  intro r hr
  have h := wordBit_and_lowMask value hbits r
  rwa [decide_eq_false (by omega), Bool.false_and] at h

/-- Bits that agree with a value's, rank by rank, read as the value reduced to their number. -/
theorem readsAs_and_lowMask {order : ByteOrder} {data : Bytes} {bit bits : Nat} {value : UInt64}
    (hbits : bits ≤ 64)
    (h : ∀ i < bits, bitAt order data (bit + i) = wordBit value (order.rank bits i)) :
    ReadsAs order data bit bits (value &&& lowMask bits) := by
  refine ⟨and_lowMask_lt value hbits, fun i hi => ?_⟩
  rw [wordBit_and_lowMask value hbits, decide_eq_true (order.rank_lt hi), Bool.true_and, h i hi]

end Fieldbus
