import Fieldbus.Bits.Field
import Fieldbus.Proofs.BitAccess
/-!
Packing and unpacking a whole field.

A buffer *holds* values in a field when every bit of every element is there (`BitField.Holds`). On
a buffer that the field fits in, packing makes the buffer hold the values and touches nothing
outside the field (`BitField.pack_spec`). Unpacking gives what the buffer holds
(`BitField.unpack_spec`), reduced to the width of an element (`BitField.Reads.eq_of_holds`).
Packing what a buffer holds already changes nothing (`BitField.Holds.pack_self`). The round trips of
whole frames are put together from these.

Elements lie back to back, so each write is disjoint from those before it; the inductions go along
the elements, with the position of the next one as the moving part.

It is held and not read that the round trips are stated with, since values given to a frame may have
bits above the width of an element. To be held leaves those bits open, and what is read has none;
the difference between the two notions is exactly the reduction that a round trip makes.
-/

namespace Fieldbus

/-- What holds of each element by its index, and of one more, holds after that is put at the end. -/
theorem forall_push {α : Type} {P : Nat → α → Prop} {xs : Array α} {x : α}
    (hold : ∀ k (hk : k < xs.size), P k xs[k]) (hnew : P xs.size x) :
    ∀ k (hk : k < (xs.push x).size), P k (xs.push x)[k] := by
  intro k hk
  rw [Array.getElem_push]
  by_cases hlt : k < xs.size
  · rw [dif_pos hlt]
    exact hold k hlt
  · rw [Array.size_push] at hk
    rw [dif_neg hlt, show k = xs.size by omega]
    exact hnew

namespace BitField

/-- The field lies in the buffer, and its elements have a width that values can have. -/
structure Fits (f : BitField) (data : Bytes) : Prop where
  bits_pos : 1 ≤ f.bits
  bits_le : f.bits ≤ 64
  stop_le : f.bit + f.length ≤ 8 * data.size

/-- The bits of the field are those of the values, element by element; bits of a value above the
width of an element do not matter. -/
structure Holds (f : BitField) (order : ByteOrder) (data : Bytes) (values : Array UInt64) :
    Prop where
  size : values.size = f.count
  bits : ∀ k (hk : k < values.size), ∀ i < f.bits,
    bitAt order data (f.start k + i) = wordBit values[k] (order.rank f.bits i)

/-- The values are what the elements of the field read as: besides being held, they have no bits
above the width of an element. -/
structure Reads (f : BitField) (order : ByteOrder) (data : Bytes) (values : Array UInt64) :
    Prop where
  size : values.size = f.count
  elements : ∀ k (hk : k < values.size), ReadsAs order data (f.start k) f.bits values[k]

/-- The field as a range of positions. -/
def Covers (f : BitField) (p : Nat) : Prop := f.bit ≤ p ∧ p < f.bit + f.length

/-! ## Positions in a field

An element is a range of positions of its own, the field is all of them together, and every position
of the field is a bit of exactly one element. -/

theorem start_zero (f : BitField) : f.start 0 = f.bit := by
  unfold start
  omega

theorem start_succ (f : BitField) (k : Nat) : f.start (k + 1) = f.start k + f.bits := by
  unfold start
  rw [Nat.succ_mul]
  omega

/-- Each element ends within the field. -/
theorem start_add_bits_le (f : BitField) {k : Nat} (hk : k < f.count) :
    f.start k + f.bits ≤ f.bit + f.length := by
  have h : (k + 1) * f.bits ≤ f.count * f.bits := Nat.mul_le_mul_right _ hk
  rw [Nat.succ_mul] at h
  unfold start length
  rw [Nat.mul_comm f.bits f.count]
  omega

theorem covers_start_add (f : BitField) {k i : Nat} (hk : k < f.count) (hi : i < f.bits) :
    f.Covers (f.start k + i) := by
  have hstop := f.start_add_bits_le hk
  have hle : f.bit ≤ f.start k := Nat.le_add_right _ _
  exact ⟨by omega, by omega⟩

/-- **Every position of a field is a bit of one of its elements.** -/
theorem Covers.exists_start {f : BitField} {p : Nat} (h : f.Covers p) :
    ∃ k < f.count, ∃ i < f.bits, p = f.start k + i := by
  obtain ⟨hle, hlt⟩ := h
  have hpos : 0 < f.bits := by
    rcases Nat.eq_zero_or_pos f.bits with h0 | h0
    · unfold length at hlt
      rw [h0, Nat.zero_mul] at hlt
      omega
    · exact h0
  refine ⟨(p - f.bit) / f.bits, ?_, (p - f.bit) % f.bits, Nat.mod_lt _ hpos, ?_⟩
  · apply Nat.div_lt_of_lt_mul
    unfold length at hlt
    omega
  · have h := Nat.div_add_mod (p - f.bit) f.bits
    rw [Nat.mul_comm] at h
    unfold start
    omega

/-- In a field that fits, no element is refused. -/
theorem Fits.checkRange {f : BitField} {data : Bytes} (h : f.Fits data) {k : Nat}
    (hk : k < f.count) : Fieldbus.checkRange data (f.start k) f.bits = .ok () := by
  have hstop := f.start_add_bits_le hk
  have hle := h.stop_le
  exact checkRange_eq_ok_iff.2 ⟨⟨h.bits_pos, h.bits_le⟩, by omega⟩

/-- Whether a field fits depends on the length of the buffer only. -/
theorem Fits.of_size_eq {f : BitField} {a b : Bytes} (h : f.Fits a) (hsize : b.size = a.size) :
    f.Fits b :=
  ⟨h.bits_pos, h.bits_le, by rw [hsize]; exact h.stop_le⟩

/-! ## What a buffer holds

Holding looks at the positions of the field only, in both directions: buffers that agree there hold
the same, and buffers that hold the same agree there. -/

/-- A buffer that agrees on the field holds the same values there. -/
theorem Holds.congr {f : BitField} {order : ByteOrder} {a b : Bytes} {values : Array UInt64}
    (h : f.Holds order a values)
    (heq : ∀ p, f.Covers p → bitAt order b p = bitAt order a p) : f.Holds order b values := by
  refine ⟨h.size, fun k hk i hi => ?_⟩
  rw [heq _ (f.covers_start_add (by rw [← h.size]; exact hk) hi), h.bits k hk i hi]

/-- Two buffers that hold the same values in a field agree on it. -/
theorem Holds.bitAt_eq {f : BitField} {order : ByteOrder} {a b : Bytes} {values : Array UInt64}
    (ha : f.Holds order a values) (hb : f.Holds order b values) {p : Nat} (hp : f.Covers p) :
    bitAt order a p = bitAt order b p := by
  obtain ⟨k, hk, i, hi, rfl⟩ := hp.exists_start
  have hk' : k < values.size := by rw [ha.size]; exact hk
  rw [ha.bits k hk' i hi, hb.bits k hk' i hi]

/-! ## Packing

What is written of the elements from `k` on is behind the first `k`, so these stay held. An element
is refused only if it leaves the buffer, and in a field that fits none does. -/

/-- Writing the elements from index `k` on, as many as are left. -/
theorem writeElements_spec (f : BitField) (order : ByteOrder) (values : List UInt64) :
    ∀ (k : Nat) (data : Bytes), k + values.length = f.count → f.Fits data →
      ∃ packed, writeElements order f.bits (f.start k) values data = (.ok (), packed) ∧
        packed.size = data.size ∧
        (∀ p, p < f.start k ∨ f.bit + f.length ≤ p → bitAt order packed p = bitAt order data p) ∧
        ∀ j (hj : j < values.length), ∀ i < f.bits,
          bitAt order packed (f.start (k + j) + i) = wordBit values[j] (order.rank f.bits i) := by
  induction values with
  | nil =>
    intro k data _ _
    exact ⟨data, rfl, rfl, fun _ _ => rfl, fun j hj => absurd hj (Nat.not_lt_zero j)⟩
  | cons value rest ih =>
    intro k data hcount hfits
    rw [List.length_cons] at hcount
    have hk : k < f.count := by omega
    have hcheck := hfits.checkRange hk
    have hstop := f.start_add_bits_le hk
    have hle := hfits.stop_le
    obtain ⟨packed, hpacked, hsize, hout, hin⟩ := ih (k + 1)
      (placeBits order data (f.start k) f.bits value) (by omega)
      (hfits.of_size_eq (size_placeBits ..))
    rw [f.start_succ] at hpacked hout
    have hplaced := bitAt_placeBits order value
      (show f.start k + f.bits ≤ 8 * data.size by omega)
    refine ⟨packed, ?_, by rw [hsize, size_placeBits], ?_, ?_⟩
    · rw [writeElements, hcheck]
      exact hpacked
    · intro p hp
      rw [hout p (by omega), hplaced, if_neg (by omega)]
    · intro j hj i hi
      cases j with
      | zero =>
        -- the element just written lies before all that follow
        rw [Nat.add_zero, hout _ (by omega), hplaced, if_pos (by omega), Nat.add_sub_cancel_left]
        rfl
      | succ j =>
        rw [show k + (j + 1) = k + 1 + j by omega]
        exact hin j (Nat.lt_of_succ_lt_succ hj) i hi

/-- **Packing.** The buffer holds the values afterwards, and is the same outside the field. -/
theorem pack_spec {f : BitField} {data : Bytes} {values : Array UInt64} (order : ByteOrder)
    (hfits : f.Fits data) (hsize : values.size = f.count) :
    ∃ packed, f.pack order data values = (.ok (), packed) ∧ packed.size = data.size ∧
      f.Holds order packed values ∧
      ∀ p, ¬ f.Covers p → bitAt order packed p = bitAt order data p := by
  obtain ⟨packed, hpacked, hlen, hout, hin⟩ := f.writeElements_spec order values.toList 0 data
    (by rw [Array.length_toList]; omega) hfits
  rw [f.start_zero] at hpacked hout
  refine ⟨packed, ?_, hlen, ⟨hsize, fun k hk i hi => ?_⟩, fun p hp => hout p ?_⟩
  · rw [pack, if_neg (by simp [hsize])]
    exact hpacked
  · have h := hin k (by rw [Array.length_toList]; exact hk) i hi
    rwa [Nat.zero_add, Array.getElem_toList] at h
  · unfold Covers at hp
    omega

/-- **Packing what the buffer holds changes nothing.** -/
theorem Holds.pack_self {f : BitField} {order : ByteOrder} {data : Bytes} {values : Array UInt64}
    (h : f.Holds order data values) (hfits : f.Fits data) :
    f.pack order data values = (.ok (), data) := by
  obtain ⟨packed, hpacked, hsize, hholds, hout⟩ := pack_spec order hfits h.size
  have heq : packed = data := by
    apply bytes_ext order hsize
    intro p _
    by_cases hp : f.Covers p
    · exact hholds.bitAt_eq h hp
    · exact hout p hp
  rw [hpacked, heq]

/-! ## Unpacking

Reading leaves the buffer alone, so here what is carried along is only the list of values read so
far. -/

/-- Reading the elements from index `k` on, as many as are left. -/
theorem readElements_spec (f : BitField) (order : ByteOrder) {data : Bytes} (hfits : f.Fits data) :
    ∀ (n k : Nat) (read : Array UInt64), k + n = f.count → read.size = k →
      (∀ j (hj : j < read.size), ReadsAs order data (f.start j) f.bits read[j]) →
      ∃ values, readElements order data f.bits (f.start k) n read = .ok values ∧
        f.Reads order data values := by
  intro n
  induction n with
  | zero =>
    intro k read hcount hsize hread
    exact ⟨read, rfl, by omega, hread⟩
  | succ n ih =>
    intro k read hcount hsize hread
    obtain ⟨value, hvalue, has⟩ := readBits_eq_ok order (hfits.checkRange (k := k) (by omega))
    rw [← hsize] at has
    obtain ⟨values, hvalues, hall⟩ := ih (k + 1) (read.push value) (by omega)
      (by rw [Array.size_push, hsize]) (forall_push hread has)
    refine ⟨values, ?_, hall⟩
    rw [readElements, hvalue]
    rw [f.start_succ] at hvalues
    exact hvalues

/-- **Unpacking.** Each element is what its place in the buffer reads as. -/
theorem unpack_spec {f : BitField} (order : ByteOrder) {data : Bytes} (hfits : f.Fits data) :
    ∃ values, f.unpack order data = .ok values ∧ f.Reads order data values := by
  have h := f.readElements_spec order hfits f.count 0 #[] (by omega) rfl
    (fun j hj => absurd hj (Nat.not_lt_zero j))
  rw [f.start_zero] at h
  exact h

/-- A buffer holds what it reads as. -/
theorem Reads.holds {f : BitField} {order : ByteOrder} {data : Bytes} {values : Array UInt64}
    (h : f.Reads order data values) : f.Holds order data values :=
  ⟨h.size, fun k hk i hi => ((h.elements k hk).2 i hi).symm⟩

/-- **What a buffer holds is read from it,** reduced to the width of an element. -/
theorem Reads.eq_of_holds {f : BitField} {order : ByteOrder} {data : Bytes}
    {read values : Array UInt64} (h : f.Reads order data read) (hbits : f.bits ≤ 64)
    (hholds : f.Holds order data values) : read = values.map (· &&& lowMask f.bits) := by
  apply Array.ext
  · rw [Array.size_map, h.size, hholds.size]
  · intro k hk hk'
    rw [Array.size_map] at hk'
    rw [Array.getElem_map]
    exact (h.elements k hk).unique (readsAs_and_lowMask hbits (hholds.bits k hk'))

end BitField

end Fieldbus
