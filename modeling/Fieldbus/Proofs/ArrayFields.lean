import Fieldbus.Proofs.FieldAccess
/-!
Arrays, as a whole and element by element.

A field can be packed and unpacked as a whole, and its elements can be read and replaced one at a
time. Here the two are brought together. Elements may share bytes with their neighbours, but no
bits, so replacing one leaves what the buffer holds in all others (`BitField.set_spec`). Whatever
the order in which all of them are replaced, the buffer ends up holding the same values, with all
else as it was; and that is the buffer that packing leaves (`BitField.setEach_eq_pack`).

The two ways may differ in what they refuse. A field that leaves the buffer is refused as a whole,
while some of its elements can be read by themselves; so the law is for fields that fit.
-/

namespace Fieldbus

/-- The lowest bits of a word, as a remainder. -/
theorem and_lowMask_eq_ofNat_mod (value : UInt64) {bits : Nat} (hbits : bits ≤ 64) :
    value &&& lowMask bits = UInt64.ofNat (value.toNat % 2 ^ bits) := by
  have hlt : value.toNat % 2 ^ bits < 2 ^ 64 :=
    Nat.lt_of_le_of_lt (Nat.mod_le _ _) value.toNat_lt
  apply UInt64.toNat_inj.1
  rw [UInt64.toNat_ofNat', Nat.mod_eq_of_lt hlt]
  apply Nat.eq_of_testBit_eq
  intro r
  rw [Nat.testBit_mod_two_pow]
  exact wordBit_and_lowMask value hbits r

namespace BitField

/-! ## One element

To replace an element is to place its value at the element's bits. Other elements have other bits,
so they are read as before, and so is all that is not in the field. -/

/-- Elements do not overlap: each ends before any later one starts. -/
theorem start_add_bits_le_start (f : BitField) {j k : Nat} (h : j < k) :
    f.start j + f.bits ≤ f.start k := by
  rw [← f.start_succ]
  exact Nat.add_le_add_left (Nat.mul_le_mul_right _ h) _

/-- No bit of an element belongs to another one. -/
theorem not_mem_of_ne (f : BitField) {j k i : Nat} (hne : k ≠ j) (hi : i < f.bits) :
    ¬ (f.start j ≤ f.start k + i ∧ f.start k + i < f.start j + f.bits) := by
  rcases Nat.lt_or_gt_of_ne hne with hlt | hgt
  · have hle := f.start_add_bits_le_start hlt
    omega
  · have hle := f.start_add_bits_le_start hgt
    omega

/-- **Replacing one element** puts the value there and leaves all other elements, and all that is
not in the field. -/
theorem set_spec {f : BitField} {data : Bytes} (order : ByteOrder) (hfits : f.Fits data) {j : Nat}
    (hj : j < f.count) (value : UInt64) :
    ∃ written, f.set order data j value = .ok written ∧ written.size = data.size ∧
      (∀ i < f.bits, bitAt order written (f.start j + i) =
        wordBit value (order.rank f.bits i)) ∧
      (∀ k, k ≠ j → ∀ i < f.bits, bitAt order written (f.start k + i) =
        bitAt order data (f.start k + i)) ∧
      ∀ p, ¬ f.Covers p → bitAt order written p = bitAt order data p := by
  have hcheck := hfits.checkRange hj
  have hplaced := bitAt_placeBits order value (checkRange_eq_ok_iff.1 hcheck).2
  refine ⟨placeBits order data (f.start j) f.bits value, ?_, size_placeBits .., fun i hi => ?_,
    fun k hk i hi => ?_, fun p hp => ?_⟩
  · rw [set, if_neg (by omega), writeBits_of_checkRange hcheck]
  · rw [hplaced, if_pos (by omega), Nat.add_sub_cancel_left]
  · rw [hplaced, if_neg (f.not_mem_of_ne hk hi)]
  · have hstop := f.start_add_bits_le hj
    have hstart : f.bit ≤ f.start j := Nat.le_add_right _ _
    unfold Covers at hp
    rw [hplaced, if_neg (by omega)]

/-- Reading one element gives what unpacking gives for it. -/
theorem Reads.get_eq {f : BitField} {order : ByteOrder} {data : Bytes} {read : Array UInt64}
    (h : f.Reads order data read) (hfits : f.Fits data) (k : Nat) (hk : k < read.size) :
    f.get order data k = .ok read[k] := by
  have hcount : k < f.count := by rw [← h.size]; exact hk
  obtain ⟨value, hvalue, has⟩ := readBits_eq_ok order (hfits.checkRange hcount)
  rw [get, if_neg (by omega), hvalue, has.unique (h.elements k hk)]

/-! ## Element by element

The induction is on the list of indices, which may come in any order and have repetitions. After it,
elements whose index has come have their value, and the others what they had; when all have come,
the field holds all values, and outside nothing has changed. -/

/-- Replaces the elements at the given indices, one after the other, each by the value that
`values` has for it. -/
def setEach (f : BitField) (order : ByteOrder) (values : Array UInt64) (indices : List Nat)
    (data : Bytes) : Except AccessError Bytes :=
  indices.foldlM (fun data k => f.set order data k (values.getD k 0)) data

/-- What replacing some elements does: those have their values, the others what they had. -/
theorem setEach_spec {f : BitField} (order : ByteOrder) (values : Array UInt64)
    (indices : List Nat) {data : Bytes} (hfits : f.Fits data)
    (hindices : ∀ k ∈ indices, k < f.count) :
    ∃ written, f.setEach order values indices data = .ok written ∧ written.size = data.size ∧
      (∀ k ∈ indices, ∀ i < f.bits, bitAt order written (f.start k + i) =
        wordBit (values.getD k 0) (order.rank f.bits i)) ∧
      (∀ k, k ∉ indices → ∀ i < f.bits, bitAt order written (f.start k + i) =
        bitAt order data (f.start k + i)) ∧
      ∀ p, ¬ f.Covers p → bitAt order written p = bitAt order data p := by
  induction indices generalizing data with
  | nil =>
    exact ⟨data, rfl, rfl, fun k hk => (nomatch hk), fun _ _ _ _ => rfl, fun _ _ => rfl⟩
  | cons j rest ih =>
    obtain ⟨first, hfirst, hsize, hself, hothers, hout⟩ :=
      set_spec order hfits (hindices j List.mem_cons_self) (values.getD j 0)
    obtain ⟨written, hwritten, hsize', hrest, hleft, hout'⟩ :=
      ih (hfits.of_size_eq hsize) fun k hk => hindices k (List.mem_cons_of_mem j hk)
    refine ⟨written, ?_, hsize'.trans hsize, fun k hk i hi => ?_, fun k hk i hi => ?_,
      fun p hp => (hout' p hp).trans (hout p hp)⟩
    · rw [setEach, List.foldlM_cons, hfirst]
      exact hwritten
    · -- an index that comes again later has its value from there
      by_cases hlater : k ∈ rest
      · exact hrest k hlater i hi
      · have hkj : k = j := (List.mem_cons.1 hk).resolve_right hlater
        rw [hleft k hlater i hi, hkj]
        exact hself i hi
    · rw [List.mem_cons, not_or] at hk
      rw [hleft k hk.2 i hi, hothers k hk.1 i hi]

/-- **Replacing all elements one by one is packing them**, in whatever order they are replaced. -/
theorem setEach_eq_pack {f : BitField} {data : Bytes} {values : Array UInt64} (order : ByteOrder)
    (hfits : f.Fits data) (hsize : values.size = f.count) {packed : Bytes}
    (hpacked : f.pack order data values = (.ok (), packed)) {indices : List Nat}
    (hindices : ∀ k, k ∈ indices ↔ k < f.count) :
    f.setEach order values indices data = .ok packed := by
  obtain ⟨packed', hpacked', hlen, hholds, hout⟩ := pack_spec order hfits hsize
  rw [hpacked'] at hpacked
  cases hpacked
  obtain ⟨written, hwritten, hlen', hin, -, hout'⟩ :=
    setEach_spec order values indices hfits fun k hk => (hindices k).1 hk
  have hholds' : f.Holds order written values := by
    refine ⟨hsize, fun k hk i hi => ?_⟩
    rw [hin k ((hindices k).2 (by omega)) i hi, Array.getD_eq_getD_getElem?,
      Array.getElem?_eq_getElem hk, Option.getD_some]
  have heq : written = packed := by
    apply bytes_ext order (hlen'.trans hlen.symm)
    intro p _
    by_cases hp : f.Covers p
    · exact hholds'.bitAt_eq hholds hp
    · rw [hout' p hp, hout p hp]
  rw [hwritten, heq]

/-! ## Both ways

Two buffers that hold the same values in a field and agree outside are the same. So packing and
replacing one by one leave the same buffer. -/

/-- **Arrays go into buffers and come back.** Where the elements are 1 to 64 bits long and the
field ends within the buffer, with either order of bits and any number of elements,

* packing succeeds, unpacking then gives the values reduced to the length of an element, and all
  bits outside the field are as they were;
* unpacking any buffer succeeds, gives what reading each element gives, and packing the result
  changes nothing;
* replacing the elements one by one gives the buffer that packing gives, in any order and also if
  some are replaced more than once. -/
theorem pack_unpack_elements (f : BitField) (order : ByteOrder) (data : Bytes)
    (values : Array UInt64) (hbits : 1 ≤ f.bits ∧ f.bits ≤ 64)
    (hend : f.bit + f.bits * f.count ≤ 8 * data.size) (hcount : values.size = f.count) :
    (∃ packed, f.pack order data values = (.ok (), packed) ∧ packed.size = data.size ∧
      f.unpack order packed =
        .ok (values.map fun v => UInt64.ofNat (v.toNat % 2 ^ f.bits)) ∧
      (∀ p, p < f.bit ∨ f.bit + f.bits * f.count ≤ p →
        bitAt order packed p = bitAt order data p) ∧
      ∀ indices : List Nat, (∀ k, k ∈ indices ↔ k < f.count) →
        f.setEach order values indices data = .ok packed) ∧
    ∃ read, f.unpack order data = .ok read ∧
      f.pack order data read = (.ok (), data) ∧
      read.size = f.count ∧ ∀ k (hk : k < read.size), f.get order data k = .ok read[k] := by
  have hfits : f.Fits data := ⟨hbits.1, hbits.2, hend⟩
  constructor
  · obtain ⟨packed, hpacked, hsize, hholds, hout⟩ := pack_spec order hfits hcount
    obtain ⟨read, hread, hreads⟩ := unpack_spec order (hfits.of_size_eq hsize)
    refine ⟨packed, hpacked, hsize, ?_, fun p hp => hout p ?_,
      fun indices hindices => setEach_eq_pack order hfits hcount hpacked hindices⟩
    · rw [hread, hreads.eq_of_holds hbits.2 hholds]
      congr 2
      funext v
      exact and_lowMask_eq_ofNat_mod v hbits.2
    · unfold Covers length
      omega
  · obtain ⟨read, hread, hreads⟩ := unpack_spec order hfits
    exact ⟨read, hread, hreads.holds.pack_self hfits, hreads.size,
      fun k hk => hreads.get_eq hfits k hk⟩

/-- Five bits each, most significant first, across the bytes of a buffer that is not clear. -/
theorem pack_unpack_elements_fives :
    (BitField.mk 3 5 3).pack .big #[0xFF, 0xFF, 0xFF] #[1, 0x22, 3] = (.ok (), #[0xE1, 0x10, 0xFF]) ∧
      (BitField.mk 3 5 3).unpack .big #[0xE1, 0x10, 0xFF] = .ok #[1, 2, 3] ∧
      (BitField.mk 3 5 3).setEach .big #[1, 0x22, 3] [2, 0, 1] #[0xFF, 0xFF, 0xFF] =
        .ok #[0xE1, 0x10, 0xFF] := by
  obtain ⟨⟨packed, hpacked, -, hunpack, -, heach⟩, -⟩ :=
    pack_unpack_elements ⟨3, 5, 3⟩ .big #[0xFF, 0xFF, 0xFF] #[1, 0x22, 3] (by decide) (by decide)
      rfl
  have hbytes : (BitField.mk 3 5 3).pack .big #[0xFF, 0xFF, 0xFF] #[1, 0x22, 3] =
      (.ok (), #[0xE1, 0x10, 0xFF]) := by decide +kernel
  rw [hbytes] at hpacked
  cases hpacked
  refine ⟨hbytes, hunpack.trans (by decide +kernel), heach [2, 0, 1] fun k => ?_⟩
  simp only [List.mem_cons, List.not_mem_nil, or_false]
  omega

end BitField
end Fieldbus
