import Mathlib.Order.Bounds.Basic
import Fieldbus.Proofs.FieldAccess
/-!
Fields that do not fit.

A field can be used on a buffer if it has no element, or if its elements have a width that values
can have and end within the buffer (`BitField.Usable`). Reading and writing accept the same fields:
`BitField.exists_unpack_iff` and `BitField.exists_pack_iff`.

A field that cannot be used is refused while its elements are written, so what has been written by
then is in the buffer. How much that is does not depend on the values: the first elements that end
within the buffer, as many as there are (`BitField.room`). The buffer is left as if they had been
packed on their own (`BitField.pack_of_short`); a width that no value has is refused before anything
is written (`BitField.pack_of_width`).

Writing and reading differ in one thing. A field with no element is neither refused by one nor by
the other, wherever it lies and whatever its width; but packing first asks for one value per
element, and when the number is wrong nothing at all is written. So the exact conditions are stated
for both, and what is left of a refused field for packing alone.
-/

namespace Fieldbus
namespace BitField

/-- A field that has no element, or whose elements lie in the buffer. -/
def Usable (f : BitField) (data : Bytes) : Prop := f.count = 0 ∨ f.Fits data

/-- A field with as many elements as given, in the place of the first ones of `f`. -/
def first (f : BitField) (k : Nat) : BitField := { f with count := k }

/-- How many elements of the field's width end within the buffer, from its first position on. -/
def room (f : BitField) (data : Bytes) : Nat := (8 * data.size - f.bit) / f.bits

theorem fits_iff {f : BitField} {data : Bytes} :
    f.Fits data ↔ (1 ≤ f.bits ∧ f.bits ≤ 64) ∧ f.bit + f.bits * f.count ≤ 8 * data.size :=
  ⟨fun h => ⟨⟨h.bits_pos, h.bits_le⟩, h.stop_le⟩, fun h => ⟨h.1.1, h.1.2, h.2⟩⟩

/-- **The room is the largest number of elements** that end within the buffer. -/
theorem isGreatest_room {f : BitField} (hbits : 1 ≤ f.bits) (data : Bytes) :
    IsGreatest {k | k = 0 ∨ f.bit + f.bits * k ≤ 8 * data.size} (f.room data) := by
  constructor
  · rcases Nat.eq_zero_or_pos (f.room data) with h | h
    · exact Or.inl h
    · -- one element at least fits, so the field does not start past the end
      have hle : f.bits * f.room data ≤ 8 * data.size - f.bit := Nat.mul_div_le _ _
      have hpos : 0 < f.bits * f.room data := Nat.mul_pos hbits h
      exact Or.inr (by omega)
  · rintro k (rfl | hk)
    · exact Nat.zero_le _
    · apply (Nat.le_div_iff_mul_le hbits).2
      rw [Nat.mul_comm]
      omega

/-- With one value per element, packing is writing the elements. -/
theorem pack_of_size_eq {f : BitField} {values : Array UInt64} (h : values.size = f.count)
    (order : ByteOrder) (data : Bytes) :
    f.pack order data values = writeElements order f.bits f.bit values.toList data := by
  rw [pack, if_neg (not_not_intro h)]

/-! ## Which fields are accepted

A field is refused for its last elements, if at all: the ends of elements grow, so if the last one
is in the buffer they all are. For reading that is an induction on the elements that were read; for
writing it is a consequence of what is left of refused fields, as the two exclude each other. -/

/-- Elements that are read lie in the buffer, unless there is none. -/
theorem inRange_of_readElements {order : ByteOrder} {data : Bytes} {bits : Nat} :
    ∀ {count bit : Nat} {read values : Array UInt64},
      readElements order data bits bit count read = .ok values →
      count = 0 ∨ ((1 ≤ bits ∧ bits ≤ 64) ∧ bit + bits * count ≤ 8 * data.size) := by
  intro count
  induction count with
  | zero => exact fun _ => Or.inl rfl
  | succ n ih =>
    intro bit read values h
    have hcheck : checkRange data bit bits = .ok () := by
      rw [readElements, readBits] at h
      cases hc : checkRange data bit bits with
      | error e =>
        rw [hc] at h
        cases h
      | ok _ => rfl
    obtain ⟨hbits, hend⟩ := checkRange_eq_ok_iff.1 hcheck
    refine Or.inr ⟨hbits, ?_⟩
    rw [readElements] at h
    split at h
    · cases h
    · -- the elements behind the first, if any, lie in the buffer too
      rcases ih h with rfl | ⟨-, hle⟩
      · omega
      · rw [Nat.mul_succ]
        omega

/-- **Which fields are read.** -/
theorem exists_unpack_iff {f : BitField} {order : ByteOrder} {data : Bytes} :
    (∃ values, f.unpack order data = .ok values) ↔ f.Usable data := by
  constructor
  · rintro ⟨values, h⟩
    exact (inRange_of_readElements h).imp_right fits_iff.2
  · rintro (hnone | hfits)
    · exact ⟨#[], unpack_of_count_eq_zero hnone order data⟩
    · obtain ⟨values, hvalues, -⟩ := unpack_spec order hfits
      exact ⟨values, hvalues⟩

/-- A field that can be used takes as many values as it has elements. -/
theorem Usable.pack_spec {f : BitField} {data : Bytes} {values : Array UInt64}
    (h : f.Usable data) (order : ByteOrder) (hsize : values.size = f.count) :
    ∃ packed, f.pack order data values = (.ok (), packed) ∧ packed.size = data.size ∧
      ∀ p, ¬ f.Covers p → bitAt order packed p = bitAt order data p := by
  rcases h with hnone | hfits
  · have hvalues : values = #[] := Array.size_eq_zero_iff.1 (hsize.trans hnone)
    refine ⟨data, ?_, rfl, fun _ _ => rfl⟩
    rw [pack_of_size_eq hsize, hvalues]
    rfl
  · obtain ⟨packed, hpacked, hlen, -, hout⟩ := BitField.pack_spec order hfits hsize
    exact ⟨packed, hpacked, hlen, hout⟩

/-! ## What is left of a field that is refused

A list of values is split into those there is room for and the others. The first are packed as a
field of their own, and of the others not even the first fits, so nothing is written from there on. -/

/-- Elements behind others that were written are written behind them. -/
theorem writeElements_append {order : ByteOrder} {bits bit : Nat} {values : List UInt64}
    {data written : Bytes} (h : writeElements order bits bit values data = (.ok (), written))
    (rest : List UInt64) :
    writeElements order bits bit (values ++ rest) data =
      writeElements order bits (bit + bits * values.length) rest written := by
  induction values generalizing bit data with
  | nil =>
    cases h
    rfl
  | cons value more ih =>
    rw [writeElements] at h
    rw [List.cons_append, writeElements]
    split at h
    · cases h
    · rw [ih h, List.length_cons, Nat.mul_succ, Nat.add_right_comm, Nat.add_assoc]

/-- Nothing is written from a place on where not even one value fits. -/
theorem writeElements_of_refused {order : ByteOrder} {bits bit : Nat} {data : Bytes}
    {e : AccessError} (h : checkRange data bit bits = .error e) {values : List UInt64}
    (hne : values ≠ []) : writeElements order bits bit values data = (.error e, data) := by
  cases values with
  | nil => exact absurd rfl hne
  | cons value rest => rw [writeElements, h]

/-- **A width that no value has is refused at once.** -/
theorem pack_of_width {f : BitField} (hbits : ¬ (1 ≤ f.bits ∧ f.bits ≤ 64)) {values : Array UInt64}
    (hsize : values.size = f.count) (hcount : f.count ≠ 0) (order : ByteOrder) (data : Bytes) :
    f.pack order data values = (.error (.width f.bits), data) := by
  have hcheck : checkRange data f.bit f.bits = .error (.width f.bits) := by
    rw [checkRange, if_pos (by unfold maxWidth; omega)]
  have hne : values.toList ≠ [] := by
    intro h
    rw [← hsize, ← Array.length_toList, h] at hcount
    exact hcount rfl
  rw [pack_of_size_eq hsize]
  exact writeElements_of_refused hcheck hne

/-- A field that is too long for the buffer has more elements than there is room for. -/
theorem room_lt_count {f : BitField} {data : Bytes} (hbits : 1 ≤ f.bits) (hcount : f.count ≠ 0)
    (hend : 8 * data.size < f.bit + f.bits * f.count) : f.room data < f.count := by
  rcases Nat.lt_or_ge (f.room data) f.count with hlt | hge
  · exact hlt
  · have hmul : f.bits * f.count ≤ f.bits * f.room data := Nat.mul_le_mul_left _ hge
    rcases (isGreatest_room hbits data).1 with hzero | hroom
    · omega
    · omega

/-- **A field that is too long for the buffer is written as far as there is room.** The buffer is
left as it is by packing the elements that fit. -/
theorem pack_of_short {f : BitField} {data : Bytes} {values : Array UInt64} (order : ByteOrder)
    (hbits : 1 ≤ f.bits ∧ f.bits ≤ 64) (hsize : values.size = f.count) (hcount : f.count ≠ 0)
    (hend : 8 * data.size < f.bit + f.bits * f.count) :
    ∃ left, f.pack order data values = (.error (.tooShort data.size), left) ∧
      (f.first (f.room data)).pack order data (values.take (f.room data)) = (.ok (), left) ∧
      left.size = data.size ∧
      ∀ p, f.bit + f.bits * f.room data ≤ p → bitAt order left p = bitAt order data p := by
  have hroom := isGreatest_room hbits.1 data
  have hlt := room_lt_count hbits.1 hcount hend
  have htake : (values.take (f.room data)).size = (f.first (f.room data)).count := by
    show (values.extract 0 (f.room data)).size = f.room data
    rw [Array.size_extract, hsize]
    omega
  have husable : (f.first (f.room data)).Usable data :=
    hroom.1.imp_right fun h => fits_iff.2 ⟨hbits, h⟩
  obtain ⟨left, hfirst, hlen, hout⟩ := husable.pack_spec order htake
  refine ⟨left, ?_, hfirst, hlen, fun p hp => hout p fun hcovers => ?_⟩
  · rw [pack_of_size_eq htake] at hfirst
    change writeElements order f.bits f.bit (values.take (f.room data)).toList data = _ at hfirst
    rw [pack_of_size_eq hsize]
    have hsplit : values.toList =
        (values.take (f.room data)).toList ++ values.toList.drop (f.room data) := by
      have htaken : (values.take (f.room data)).toList = values.toList.take (f.room data) :=
        Array.toList_extract
      rw [htaken, List.take_append_drop]
    have hrefused : checkRange left (f.bit + f.bits * f.room data) f.bits =
        .error (.tooShort data.size) := by
      -- one more element would not end within the buffer either
      have hmore : ¬ f.bit + f.bits * (f.room data + 1) ≤ 8 * data.size := fun h =>
        absurd (hroom.2 (Or.inr h)) (by omega)
      rw [Nat.mul_succ] at hmore
      rw [checkRange, hlen, if_neg (by unfold maxWidth; omega), if_pos (by omega)]
    have hrest : values.toList.drop (f.room data) ≠ [] := by
      intro h
      rw [List.drop_eq_nil_iff, Array.length_toList] at h
      omega
    rw [hsplit, writeElements_append hfirst, Array.length_toList, htake]
    exact writeElements_of_refused hrefused hrest
  · exact absurd hcovers.2 (Nat.not_lt.2 hp)

/-- **Which fields are written.** -/
theorem exists_pack_iff {f : BitField} {order : ByteOrder} {data : Bytes}
    {values : Array UInt64} :
    (∃ packed, f.pack order data values = (.ok (), packed)) ↔
      values.size = f.count ∧ f.Usable data := by
  constructor
  · rintro ⟨packed, h⟩
    by_cases hsize : values.size = f.count
    · refine ⟨hsize, ?_⟩
      by_cases hcount : f.count = 0
      · exact Or.inl hcount
      · by_cases hbits : 1 ≤ f.bits ∧ f.bits ≤ 64
        · rcases Nat.lt_or_ge (8 * data.size) (f.bit + f.bits * f.count) with hlt | hge
          · obtain ⟨left, hleft, -⟩ := pack_of_short order hbits hsize hcount hlt
            rw [hleft] at h
            cases h
          · exact Or.inr (fits_iff.2 ⟨hbits, hge⟩)
        · rw [pack_of_width hbits hsize hcount] at h
          cases h
    · rw [pack_of_size_ne hsize] at h
      cases h
  · rintro ⟨hsize, husable⟩
    obtain ⟨packed, hpacked, -⟩ := husable.pack_spec order hsize
    exact ⟨packed, hpacked⟩

/-- **What arrays are accepted, and what is left of those that are not.** For any field, buffer and
values, with either order of bits,

* unpacking succeeds exactly if the field has no element, or if its elements are 1 to 64 bits long
  and end within the buffer;
* packing succeeds exactly if there is one value per element and unpacking succeeds;
* when packing fails the buffer keeps its length. With another number of values, or with elements of
  a width that no value has, nothing is written. Otherwise the buffer is the one that packing the
  first elements leaves, as many of them as end within it, and nothing behind them is touched. -/
theorem pack_unpack_accepted (f : BitField) (order : ByteOrder) (data : Bytes)
    (values : Array UInt64) :
    ((∃ read, f.unpack order data = .ok read) ↔
      f.count = 0 ∨ ((1 ≤ f.bits ∧ f.bits ≤ 64) ∧ f.bit + f.bits * f.count ≤ 8 * data.size)) ∧
    ((∃ packed, f.pack order data values = (.ok (), packed)) ↔
      values.size = f.count ∧ ∃ read, f.unpack order data = .ok read) ∧
    ∀ (e : AccessError) (left : Bytes), f.pack order data values = (.error e, left) →
      left.size = data.size ∧
      (values.size ≠ f.count ∨ ¬ (1 ≤ f.bits ∧ f.bits ≤ 64) → left = data) ∧
      (values.size = f.count → 1 ≤ f.bits ∧ f.bits ≤ 64 →
        ∃ k, IsGreatest {k | k = 0 ∨ f.bit + f.bits * k ≤ 8 * data.size} k ∧
          (f.first k).pack order data (values.take k) = (.ok (), left) ∧
          ∀ p, f.bit + f.bits * k ≤ p → bitAt order left p = bitAt order data p) := by
  refine ⟨exists_unpack_iff.trans (or_congr_right fits_iff), ?_, fun e left h => ?_⟩
  · rw [exists_pack_iff, exists_unpack_iff]
  · -- the number of values is looked at first, then the width, then the end of the buffer
    by_cases hsize : values.size = f.count
    · have hunusable : ¬ f.Usable data := fun husable => by
        obtain ⟨packed, hpacked⟩ := exists_pack_iff.2 ⟨hsize, husable⟩
        rw [hpacked] at h
        cases h
      have hcount : f.count ≠ 0 := fun h0 => hunusable (Or.inl h0)
      by_cases hbits : 1 ≤ f.bits ∧ f.bits ≤ 64
      · have hend : 8 * data.size < f.bit + f.bits * f.count :=
          Nat.lt_of_not_le fun hle => hunusable (Or.inr (fits_iff.2 ⟨hbits, hle⟩))
        obtain ⟨left', hleft, hfirst, hlen, hout⟩ := pack_of_short order hbits hsize hcount hend
        rw [hleft] at h
        cases h
        refine ⟨hlen, ?_, fun _ _ => ⟨_, isGreatest_room hbits.1 data, hfirst, hout⟩⟩
        rintro (hne | hnot)
        · exact absurd hsize hne
        · exact absurd hbits hnot
      · rw [pack_of_width hbits hsize hcount] at h
        cases h
        exact ⟨rfl, fun _ => rfl, fun _ hb => absurd hb hbits⟩
    · rw [pack_of_size_ne hsize] at h
      cases h
      exact ⟨rfl, fun _ => rfl, fun hs => absurd hs hsize⟩

/-- Three of four values fit behind the first four bits of two bytes. -/
theorem pack_unpack_accepted_cut :
    (BitField.mk 4 4 4).pack .big #[0xFF, 0xFF] #[0xA, 0xB, 0xC, 0xD] =
        (.error (.tooShort 2), #[0xFA, 0xBC]) ∧
      ∃ k, IsGreatest {k | k = 0 ∨ 4 + 4 * k ≤ 8 * 2} k ∧
        ((BitField.mk 4 4 4).first k).pack .big #[0xFF, 0xFF] (#[0xA, 0xB, 0xC, 0xD].take k) =
          (.ok (), #[0xFA, 0xBC]) := by
  have hpack : (BitField.mk 4 4 4).pack .big #[0xFF, 0xFF] #[0xA, 0xB, 0xC, 0xD] =
      (.error (.tooShort 2), #[0xFA, 0xBC]) := by decide +kernel
  obtain ⟨-, -, hrefused⟩ :=
    pack_unpack_accepted ⟨4, 4, 4⟩ .big #[0xFF, 0xFF] #[0xA, 0xB, 0xC, 0xD]
  obtain ⟨-, -, hfirst⟩ := hrefused _ _ hpack
  obtain ⟨k, hgreatest, hk, -⟩ := hfirst rfl (by decide)
  exact ⟨hpack, k, hgreatest, hk⟩

end BitField
end Fieldbus
