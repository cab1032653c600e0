import Fieldbus.Device.Validity
import Fieldbus.Param.Store
import Fieldbus.Proofs.Placement
/-!
Parameter memory as cells.

The parameters of a device share one buffer. Each has a range of it (`Device.ParamAt`), and no two
ranges meet, so the memory behaves as if every parameter had a cell of its own:

* `ParamStore.Of.write_spec`: a write sets the value of its parameter and of no other;
* `ParamStore.Of.get_eq_some`: every parameter has a value, as long as its declaration says;
* `ParamStore.ofDevice_eq_ok`: the defaults of a valid device are what its memory holds at first.

All of this is about a store that has the ranges of its device (`ParamStore.Of`); a store is made
with them, and nothing ever changes them.

There are three layers, and none looks into the one below. Overwriting a stretch of a buffer is said
byte by byte once, and from there on only by what is read of whole ranges. Where the ranges are is
said by the sums of the lengths before them, so that two of them are apart because sums grow. The
store adds which accesses are refused, and what was written and not taken yet.
-/

namespace Fieldbus

/-! ## Overwriting

A value is written byte after byte. The induction is on the value, with the place of its next byte
as the moving part; after it everything is about `extract`: what was written is read back, what lies
beside it is read as before, and two values that follow each other can be written as one. The last
is what lets all defaults be looked at as a single one. -/

namespace ByteCursor

/-- What overwriting does to every byte, one byte of the value after the other. -/
theorem getElem?_foldl_overwrite (value : List UInt8) (data : Bytes) (start i : Nat) :
    (value.foldl (fun (st : Bytes × Nat) byte => (st.1.setIfInBounds st.2 byte, st.2 + 1))
      (data, start)).1[i]? =
      if start ≤ i ∧ i < start + value.length ∧ i < data.size then value[i - start]?
      else data[i]? := by
  induction value generalizing data start with
  | nil =>
    rw [if_neg (by simp only [List.length_nil]; omega)]
    rfl
  | cons byte rest ih =>
    rw [List.foldl_cons, ih, Array.size_setIfInBounds, List.length_cons,
      Array.getElem?_setIfInBounds]
    -- the bytes still to come lie behind the one that is written now
    by_cases hlater : start + 1 ≤ i ∧ i < start + 1 + rest.length ∧ i < data.size
    · rw [if_pos hlater, if_pos (by omega), show i - start = i - (start + 1) + 1 by omega,
        List.getElem?_cons_succ]
    · rw [if_neg hlater]
      by_cases hhere : start = i
      · subst hhere
        by_cases hlt : start < data.size
        · rw [if_pos rfl, if_pos hlt, if_pos (by omega), Nat.sub_self, List.getElem?_cons_zero]
        · rw [if_pos rfl, if_neg hlt, if_neg (by omega), Array.getElem?_eq_none (by omega)]
      · rw [if_neg hhere, if_neg (by omega)]

theorem getElem?_overwrite (data : Bytes) (start : Nat) (value : Bytes) (i : Nat) :
    (overwrite data start value)[i]? =
      if start ≤ i ∧ i < start + value.size ∧ i < data.size then value[i - start]?
      else data[i]? := by
  unfold overwrite
  rw [← Array.foldl_toList, ← Array.length_toList]
  have hvalue : value.toList[i - start]? = value[i - start]? := Array.getElem?_toList
  rw [← hvalue]
  exact getElem?_foldl_overwrite value.toList data start i

/-- Overwriting never changes the length of the buffer. -/
@[simp] theorem size_overwrite (data : Bytes) (start : Nat) (value : Bytes) :
    (overwrite data start value).size = data.size := by
  unfold overwrite
  rw [← Array.foldl_toList]
  exact @keeps_foldl _ _ _ (fun st : Bytes × Nat => st.1.size) _
    (fun _ _ => Array.size_setIfInBounds) value.toList (data, start)

/-- **What was written is read back.** -/
theorem extract_overwrite_self {data value : Bytes} {start : Nat}
    (h : start + value.size ≤ data.size) :
    (overwrite data start value).extract start (start + value.size) = value := by
  apply Array.ext_getElem?
  intro i
  rw [Array.getElem?_extract, size_overwrite]
  by_cases hi : i < value.size
  · rw [if_pos (by omega), getElem?_overwrite, if_pos (by omega), Nat.add_sub_cancel_left]
  · rw [if_neg (by omega), Array.getElem?_eq_none (by omega)]

/-- A buffer that is overwritten from end to end is what was written. -/
theorem overwrite_all {data value : Bytes} (h : data.size = value.size) :
    overwrite data 0 value = value := by
  have hback : (overwrite data 0 value).extract 0 (0 + value.size) = value :=
    extract_overwrite_self (by omega)
  rwa [Nat.zero_add, ← h, ← size_overwrite data 0 value, Array.extract_size] at hback

/-- **Bytes beside what was written are read as before.** -/
theorem extract_overwrite_of_disjoint {data value : Bytes} {start a b : Nat}
    (h : b ≤ start ∨ start + value.size ≤ a) :
    (overwrite data start value).extract a b = data.extract a b := by
  apply Array.ext_getElem?
  intro i
  rw [Array.getElem?_extract, Array.getElem?_extract, size_overwrite]
  by_cases hi : i < min b data.size - a
  · rw [if_pos hi, if_pos hi, getElem?_overwrite, if_neg (by omega)]
  · rw [if_neg hi, if_neg hi]

/-- **Bytes written behind each other are written at once.** -/
theorem overwrite_append (data : Bytes) (start : Nat) (value rest : Bytes) :
    overwrite (overwrite data start value) (start + value.size) rest =
      overwrite data start (value ++ rest) := by
  apply Array.ext_getElem?
  intro i
  rw [getElem?_overwrite, getElem?_overwrite, getElem?_overwrite, size_overwrite,
    Array.size_append]
  by_cases hrest : start + value.size ≤ i ∧ i < start + value.size + rest.size ∧ i < data.size
  · rw [if_pos hrest, if_pos (by omega), Array.getElem?_append_right (by omega)]
    congr 1
    omega
  · rw [if_neg hrest]
    by_cases hvalue : start ≤ i ∧ i < start + value.size ∧ i < data.size
    · rw [if_pos hvalue, if_pos (by omega), Array.getElem?_append_left (by omega)]
    · rw [if_neg hvalue, if_neg (by omega)]

end ByteCursor

/-! ## Where the parameters are

Slots are placed one behind the other, and so are the parameters of each slot. Both are cases of one
scheme of placing, which says that the range at an index begins at the sum of the sizes before it.
So `Device.ParamAt` gives the range of a parameter by two sums, one over slots and one over the
parameters of its slot, and whether a look-up finds it is a matter of the indices only
(`ParamMemory.locate_eq_some_iff`).

That no two parameters share a byte (`Device.ParamAt.disjoint`) has two cases, one for parameters of
different slots and one for those of the same; in each the one with the smaller index ends before
the other starts. -/

/-- The bytes of each parameter of a slot. -/
def Slot.paramSizes (s : Slot) : List Nat := s.params.toList.map (·.byteLength.toNat)

/-- The bytes of the parameters of each slot. -/
def Device.paramSizes (d : Device) : List Nat := d.slots.toList.map (·.paramSizes.sum)

theorem Slot.getElem?_paramSizes {s : Slot} {j : Nat} {p : Parameter}
    (h : s.params[j]? = some p) : s.paramSizes[j]? = some p.byteLength.toNat := by
  rw [paramSizes, List.getElem?_map, Array.getElem?_toList, h, Option.map_some]

theorem Device.getElem?_paramSizes {d : Device} {i : Nat} {s : Slot} (h : d.slots[i]? = some s) :
    d.paramSizes[i]? = some s.paramSizes.sum := by
  rw [paramSizes, List.getElem?_map, Array.getElem?_toList, h, Option.map_some]

/-- The defaults of the parameters of a slot, one behind the other. -/
def Slot.defaults (s : Slot) : List UInt8 := s.params.toList.flatMap (·.default.toList)

/-- The defaults of all parameters of a device, one behind the other. -/
def Device.defaults (d : Device) : List UInt8 := d.slots.toList.flatMap (·.defaults)

/-- Each default of a slot is as long as its parameter. -/
def Slot.DefaultsFit (s : Slot) : Prop := ∀ p ∈ s.params, p.Valid

/-- Each default of a device is as long as its parameter. -/
def Device.DefaultsFit (d : Device) : Prop := ∀ s ∈ d.slots, s.DefaultsFit

theorem Device.Valid.defaultsFit {d : Device} (h : d.Valid) : d.DefaultsFit :=
  fun s hs => (h.slots s hs).params

theorem Slot.DefaultsFit.map_length_default {s : Slot} (h : s.DefaultsFit) :
    (s.params.toList.map fun p => p.default.toList.length) = s.paramSizes := by
  apply List.map_congr_left
  intro p hp
  rw [Array.length_toList]
  exact h p (Array.mem_toList_iff.1 hp)

/-- Defaults that fit take the room of all parameters. -/
theorem Slot.DefaultsFit.length_defaults {s : Slot} (h : s.DefaultsFit) :
    s.defaults.length = s.paramSizes.sum := by
  rw [defaults, List.length_flatMap, h.map_length_default]

theorem Device.DefaultsFit.map_length_defaults {d : Device} (h : d.DefaultsFit) :
    (d.slots.toList.map fun s => s.defaults.length) = d.paramSizes := by
  apply List.map_congr_left
  intro s hs
  exact (h s (Array.mem_toList_iff.1 hs)).length_defaults

theorem Device.DefaultsFit.length_defaults {d : Device} (h : d.DefaultsFit) :
    d.defaults.length = d.paramSizes.sum := by
  rw [defaults, List.length_flatMap, h.map_length_defaults]

/-- Parameter `j` of slot `i` has the range `r`. -/
def Device.ParamAt (d : Device) (i j : Nat) (r : ByteRange) : Prop :=
  ∃ s p, d.slots[i]? = some s ∧ s.params[j]? = some p ∧
    r.start = offset d.paramSizes i + offset s.paramSizes j ∧
    r.stop = r.start + p.byteLength.toNat

/-- The parameters of a slot are placed one behind the other. -/
def ParamMemory.paramPlacing : Placing Parameter ByteRange (Nat × Array ByteRange) where
  step := placeParam
  stop := Prod.fst
  placed := Prod.snd
  size p := p.byteLength.toNat
  put at_ p := ⟨at_, at_ + p.byteLength.toNat⟩
  stop_step _ _ := rfl
  placed_step _ _ := rfl

/-- The slots of a memory are placed one behind the other. -/
def ParamMemory.slotPlacing : Placing Slot (Array ByteRange) (Nat × Array (Array ByteRange)) where
  step := placeSlot
  stop := Prod.fst
  placed := Prod.snd
  size s := s.paramSizes.sum
  put at_ s := (s.params.foldl placeParam (at_, #[])).2
  stop_step st s := by
    show (s.params.foldl placeParam (st.1, #[])).1 = _
    rw [← Array.foldl_toList]
    exact paramPlacing.stop_foldl s.params.toList (st.1, #[])
  placed_step _ _ := rfl

namespace ParamMemory

/-- The length of the memory is the sum of all parameters. -/
theorem fst_place (d : Device) : (place d).1 = d.paramSizes.sum := by
  unfold place
  rw [← Array.foldl_toList]
  have h := slotPlacing.stop_foldl d.slots.toList (0, #[])
  rw [show slotPlacing.stop (0, #[]) = 0 from rfl, Nat.zero_add] at h
  exact h

theorem getElem?_snd_place (d : Device) (i : Nat) :
    (place d).2[i]? =
      d.slots[i]?.map fun s => (s.params.foldl placeParam (offset d.paramSizes i, #[])).2 := by
  have h := slotPlacing.getElem?_placed_foldl (show slotPlacing.placed (0, #[]) = #[] from rfl)
    d.slots i
  simp only [show slotPlacing.stop (0, #[]) = 0 from rfl, Nat.zero_add] at h
  exact h

theorem getElem?_foldl_placeParam (start : Nat) (s : Slot) (j : Nat) :
    (s.params.foldl placeParam (start, #[])).2[j]? = s.params[j]?.map fun p =>
      ⟨start + offset s.paramSizes j, start + offset s.paramSizes j + p.byteLength.toNat⟩ :=
  paramPlacing.getElem?_placed_foldl (show paramPlacing.placed (start, #[]) = #[] from rfl)
    s.params j

/-- **Where a memory has a parameter.** -/
theorem locate_eq_some_iff {m : ParamMemory} {d : Device} (h : m.ranges = (place d).2)
    {slot param : UInt16} {r : ByteRange} :
    m.locate slot param = some r ↔ d.ParamAt slot.toNat param.toNat r := by
  unfold locate Device.ParamAt
  rw [h, getElem?_snd_place]
  cases hs : d.slots[slot.toNat]? with
  | none => exact ⟨fun e => (nomatch e), fun ⟨s, _, e, _⟩ => (nomatch e)⟩
  | some s =>
    rw [Option.map_some]
    dsimp only
    rw [getElem?_foldl_placeParam]
    constructor
    · intro e
      obtain ⟨p, hp, rfl⟩ := Option.map_eq_some_iff.1 e
      exact ⟨s, p, rfl, hp, rfl, rfl⟩
    · rintro ⟨s', p, e, hp, hstart, hstop⟩
      cases e
      rw [hp, Option.map_some, Option.some_inj]
      obtain ⟨start, stop⟩ := r
      dsimp only at hstart hstop
      rw [hstop, hstart]

end ParamMemory

namespace Device
variable {d : Device} {i j i' j' : Nat} {r r' : ByteRange}

theorem param_eq_ok_iff {slot param : UInt16} {p : Parameter} :
    d.param slot param = .ok p ↔
      ∃ s, d.slots[slot.toNat]? = some s ∧ s.params[param.toNat]? = some p := by
  unfold Device.param slot?
  cases hs : d.slots[slot.toNat]? with
  | none => exact ⟨fun e => (nomatch e), fun ⟨s, e, _⟩ => (nomatch e)⟩
  | some s =>
    dsimp only
    cases hp : s.params[param.toNat]? with
    | none =>
      refine ⟨fun e => (nomatch e), ?_⟩
      rintro ⟨s', e, hp'⟩
      cases e
      rw [hp] at hp'
      cases hp'
    | some q =>
      constructor
      · intro e
        cases e
        exact ⟨s, rfl, hp⟩
      · rintro ⟨s', e, hp'⟩
        cases e
        rw [hp] at hp'
        cases hp'
        rfl

/-- Every parameter lies in the memory. -/
theorem ParamAt.stop_le (h : d.ParamAt i j r) : r.stop ≤ (ParamMemory.place d).1 := by
  obtain ⟨s, p, hs, hp, hstart, hstop⟩ := h
  have hslot := offset_add_le_sum (getElem?_paramSizes hs)
  have hparam := offset_add_le_sum (Slot.getElem?_paramSizes hp)
  rw [ParamMemory.fst_place]
  omega

/-- A parameter ends before any of a later slot starts. -/
theorem ParamAt.stop_le_of_slot_lt (h : d.ParamAt i j r) (h' : d.ParamAt i' j' r') (hi : i < i') :
    r.stop ≤ r'.start := by
  obtain ⟨s, p, hs, hp, hstart, hstop⟩ := h
  obtain ⟨s', p', -, -, hstart', -⟩ := h'
  have hslot := offset_add_le (getElem?_paramSizes hs) hi
  have hparam := offset_add_le_sum (Slot.getElem?_paramSizes hp)
  omega

/-- A parameter ends before any later one of its slot starts. -/
theorem ParamAt.stop_le_of_lt (h : d.ParamAt i j r) (h' : d.ParamAt i j' r') (hj : j < j') :
    r.stop ≤ r'.start := by
  obtain ⟨s, p, hs, hp, hstart, hstop⟩ := h
  obtain ⟨s', p', hs', -, hstart', -⟩ := h'
  rw [hs] at hs'
  cases hs'
  have hparam := offset_add_le (Slot.getElem?_paramSizes hp) hj
  omega

/-- **No two parameters share a byte.** -/
theorem ParamAt.disjoint (h : d.ParamAt i j r) (h' : d.ParamAt i' j' r')
    (hne : (i, j) ≠ (i', j')) : r.stop ≤ r'.start ∨ r'.stop ≤ r.start := by
  rcases Nat.lt_trichotomy i i' with hi | rfl | hi
  · exact Or.inl (h.stop_le_of_slot_lt h' hi)
  · rcases Nat.lt_trichotomy j j' with hj | rfl | hj
    · exact Or.inl (h.stop_le_of_lt h' hj)
    · exact absurd rfl hne
    · exact Or.inr (h'.stop_le_of_lt h hj)
  · exact Or.inr (h'.stop_le_of_slot_lt h hi)

/-- A parameter has a range as long as its declaration says. -/
theorem exists_paramAt {slot param : UInt16} {p : Parameter} (h : d.param slot param = .ok p) :
    ∃ r, d.ParamAt slot.toNat param.toNat r ∧ r.length = p.byteLength.toNat := by
  obtain ⟨s, hs, hp⟩ := param_eq_ok_iff.1 h
  let start := offset d.paramSizes slot.toNat + offset s.paramSizes param.toNat
  exact ⟨⟨start, start + p.byteLength.toNat⟩, ⟨s, p, hs, hp, rfl, rfl⟩,
    Nat.add_sub_cancel_left ..⟩

/-- A parameter with a range exists, and is as long as its range. -/
theorem ParamAt.exists_param {slot param : UInt16} (h : d.ParamAt slot.toNat param.toNat r) :
    ∃ p, d.param slot param = .ok p ∧ r.length = p.byteLength.toNat := by
  obtain ⟨s, p, hs, hp, -, hstop⟩ := h
  refine ⟨p, param_eq_ok_iff.2 ⟨s, hs, hp⟩, ?_⟩
  unfold ByteRange.length
  omega

end Device

/-! ## A store with the ranges of its device

A memory of a device has the ranges that are placed for it and as many bytes (`ParamMemory.Of`).
Values do not matter to that, so writing keeps it, also when it is refused or is cut short, and so
does writing the defaults of whatever device.

How the defaults get there is the longest part. They are written slot by slot through a cursor that
goes by their lengths, while the ranges were placed by the lengths that parameters are declared
with. For a device whose defaults are as long as declared (`Device.DefaultsFit`) the two agree, and
what is left in the buffer is all defaults, one behind the other (`ParamMemory.initDefaults_eq_ok`).

In a store, each access checks the indices and the length that is asked for, and only then the
memory. `ParamStore.Of.locate_eq_ok_iff` says all that this comes to; reading and writing are drawn
from it. -/

/-- A memory is placed as the one allocated for a device. -/
def ParamMemory.Of (d : Device) (m : ParamMemory) : Prop :=
  m.ranges = (place d).2 ∧ m.data.size = (place d).1

section Memory
variable {d : Device} {m : ParamMemory} {i j i' j' : Nat} {r r' : ByteRange} {value : Bytes}

theorem Device.ParamAt.start_add_length (h : d.ParamAt i j r) : r.start + r.length = r.stop := by
  obtain ⟨_, _, -, -, -, hstop⟩ := h
  unfold ByteRange.length
  omega

/-- A memory is placed for the device that it is allocated for. -/
theorem ParamMemory.of_allocate (h : allocate d = some m) : m.Of d := by
  unfold allocate at h
  split at h
  · cases h
  · cases h
    exact ⟨rfl, size_zeroBytes _⟩

/-- Writing moves nothing. -/
theorem ParamMemory.Of.write (h : m.Of d) (start : Nat) (value : Bytes) :
    (m.write start value).Of d :=
  ⟨h.1, (ByteCursor.size_overwrite ..).trans h.2⟩

/-- The bytes in the range of a parameter are as many as its declaration says. -/
theorem ParamMemory.Of.size_slice (h : m.Of d) (hr : d.ParamAt i j r) :
    (m.slice r).size = r.length := by
  have hle := hr.stop_le
  rw [slice, Array.size_extract, h.2, ByteRange.length]
  omega

/-- A parameter that was written has the value that was written, -/
theorem ParamMemory.Of.slice_write_self (h : m.Of d) (hr : d.ParamAt i j r)
    (hvalue : value.size = r.length) : (m.write r.start value).slice r = value := by
  have hle := hr.stop_le
  have hstop := hr.start_add_length
  rw [slice, ParamMemory.write, ← hstop, ← hvalue]
  apply ByteCursor.extract_overwrite_self
  rw [hvalue, hstop, h.2]
  exact hle

/-- and every other parameter the one that it had. -/
theorem ParamMemory.slice_write_of_ne (hr : d.ParamAt i j r) (hr' : d.ParamAt i' j' r')
    (hvalue : value.size = r.length) (hne : (i', j') ≠ (i, j)) :
    (m.write r.start value).slice r' = m.slice r' := by
  rw [slice, ParamMemory.write]
  apply ByteCursor.extract_overwrite_of_disjoint
  rw [hvalue, hr.start_add_length]
  exact hr'.disjoint hr hne

end Memory

/-- Where a memory has its parameters, and how long it is. -/
def ParamMemory.shape (m : ParamMemory) : Array (Array ByteRange) × Nat := (m.ranges, m.data.size)

/-- A store has the memory allocated for a device, whatever its values. -/
def ParamStore.Of (d : Device) (s : ParamStore) : Prop :=
  s.memory.map ParamMemory.shape = (ParamMemory.allocate d).map ParamMemory.shape

/-- A store has no memory exactly if its device has no parameter, else one placed for them. -/
theorem ParamStore.of_iff {d : Device} {s : ParamStore} :
    s.Of d ↔ (s.memory = none ↔ d.paramCount = 0) ∧ ∀ m, s.memory = some m → m.Of d := by
  unfold Of ParamMemory.allocate
  -- a device without parameters has no memory at all
  by_cases hcount : d.paramCount = 0
  · rw [if_pos hcount, Option.map_none, Option.map_eq_none_iff]
    constructor
    · intro h
      refine ⟨⟨fun _ => hcount, fun _ => h⟩, fun m hm => ?_⟩
      rw [h] at hm
      cases hm
    · exact fun h => h.1.2 hcount
  · rw [if_neg hcount]
    dsimp only
    rw [Option.map_some, Option.map_eq_some_iff]
    constructor
    · rintro ⟨m, hm, hshape⟩
      refine ⟨⟨fun h => ?_, fun h => absurd h hcount⟩, fun m' hm' => ?_⟩
      · rw [h] at hm
        cases hm
      · rw [hm] at hm'
        cases hm'
        rw [ParamMemory.shape, ParamMemory.shape, size_zeroBytes, Prod.mk.injEq] at hshape
        exact hshape
    · rintro ⟨hnone, hplaced⟩
      cases hm : s.memory with
      | none => exact absurd (hnone.1 hm) hcount
      | some m =>
        refine ⟨m, rfl, ?_⟩
        rw [ParamMemory.shape, ParamMemory.shape, size_zeroBytes, (hplaced m hm).1,
          (hplaced m hm).2]

theorem Device.paramCount_eq_sum (d : Device) :
    d.paramCount = (d.slots.toList.map (·.params.size)).sum := by
  have hsum : ∀ (slots : List Slot) (n : Nat),
      slots.foldl (fun n s => n + s.params.size) n = n + (slots.map (·.params.size)).sum := by
    intro slots
    induction slots with
    | nil => exact fun n => rfl
    | cons s rest ih =>
      intro n
      rw [List.foldl_cons, ih, List.map_cons, List.sum_cons]
      omega
  rw [paramCount, ← Array.foldl_toList, hsum, Nat.zero_add]

/-- A device that has a parameter has not none. -/
theorem Device.paramCount_ne_zero {d : Device} {slot param : UInt16} {p : Parameter}
    (h : d.param slot param = .ok p) : d.paramCount ≠ 0 := by
  obtain ⟨s, hs, hp⟩ := param_eq_ok_iff.1 h
  have hpos := (Array.getElem?_eq_some_iff.1 hp).1
  have hget : (d.slots.toList.map (·.params.size))[slot.toNat]? = some s.params.size := by
    rw [List.getElem?_map, Array.getElem?_toList, hs, Option.map_some]
  have hle := offset_add_le_sum hget
  rw [paramCount_eq_sum]
  omega

namespace ParamMemory

/-! ### Writing the defaults

The loop over slots goes over parameters, and both are inductions with the cursor and the buffer as
the moving parts. They are done for defaults that fit and for room enough; the memory of a valid
device is the case that a store needs, and the general one is used again for memories of other
devices. -/

/-- Writing defaults never changes the length of the buffer, whether it fails or not. -/
theorem size_writeDefaults (params : List Parameter) (c : ByteCursor) (data : Bytes) :
    (writeDefaults params c data).2.2.size = data.size := by
  induction params generalizing c data with
  | nil => rfl
  | cons p rest ih =>
    unfold writeDefaults
    split
    · rfl
    · split
      · rfl
      · rw [ih, ByteCursor.size_overwrite]

theorem size_writeSlots (slots : List (Slot × Array ByteRange)) (c : ByteCursor) (data : Bytes) :
    (writeSlots slots c data).2.size = data.size := by
  induction slots generalizing c data with
  | nil => rfl
  | cons first rest ih =>
    obtain ⟨s, ranges⟩ := first
    unfold writeSlots
    split
    · rfl
    · have hsize := size_writeDefaults s.params.toList c data
      split
      · next heq => rwa [heq] at hsize
      · next heq =>
        rw [heq] at hsize
        rw [ih, ← hsize]

/-- **Defaults of the right lengths are written where there is room for them,** one behind the
other, and the cursor ends behind them. -/
theorem writeDefaults_eq_ok {params : List Parameter} (hvalid : ∀ p ∈ params, p.Valid)
    {c : ByteCursor} {data : Bytes}
    (hroom : c.position + (params.map (·.byteLength.toNat)).sum ≤ data.size) :
    writeDefaults params c data =
      (.ok (), c.skip (params.map (·.byteLength.toNat)).sum,
        ByteCursor.overwrite data c.position (params.flatMap (·.default.toList)).toArray) := by
  induction params generalizing c data with
  | nil => rfl
  | cons p rest ih =>
    rw [List.map_cons, List.sum_cons] at hroom ⊢
    have hlength : p.default.size = p.byteLength.toNat := hvalid p (List.mem_cons_self ..)
    have hwrite : c.write data p.default =
        .ok (c.skip p.default.size, ByteCursor.overwrite data c.position p.default) := by
      have hfits : ¬ data.size < c.position + p.default.size := by omega
      rw [ByteCursor.write, ByteCursor.checkRoom, if_neg hfits]
    rw [writeDefaults_cons hlength, hwrite]
    have hbehind : (c.skip p.default.size).position + (rest.map (·.byteLength.toNat)).sum ≤
        (ByteCursor.overwrite data c.position p.default).size := by
      rw [ByteCursor.size_overwrite, hlength]
      show c.position + _ + _ ≤ _
      omega
    have hjoin : ((p :: rest).flatMap (·.default.toList)).toArray =
        p.default ++ (rest.flatMap (·.default.toList)).toArray := by
      rw [List.flatMap_cons, ← List.append_toArray, Array.toArray_toList]
    dsimp only
    rw [ih (fun q hq => hvalid q (List.mem_cons_of_mem p hq)) hbehind, hjoin,
      ← ByteCursor.overwrite_append, hlength]
    show (_, ByteCursor.mk (_ + _ + _), _) = (_, ByteCursor.mk (_ + (_ + _)), _)
    rw [Nat.add_assoc]
    rfl

/-- The defaults of slots are written likewise, into ranges of as many parameters. -/
theorem writeSlots_eq_ok {slots : List (Slot × Array ByteRange)}
    (hfit : ∀ x ∈ slots, x.1.DefaultsFit ∧ x.1.params.size = x.2.size) {c : ByteCursor}
    {data : Bytes}
    (hroom : c.position + (slots.map (·.1.paramSizes.sum)).sum ≤ data.size) :
    writeSlots slots c data =
      (.ok (), ByteCursor.overwrite data c.position (slots.flatMap (·.1.defaults)).toArray) := by
  induction slots generalizing c data with
  | nil => rfl
  | cons first rest ih =>
    rw [List.map_cons, List.sum_cons] at hroom
    obtain ⟨hdefaults, hsize⟩ := hfit first (List.mem_cons_self ..)
    have hslot : c.position + (first.1.params.toList.map (·.byteLength.toNat)).sum ≤ data.size := by
      show c.position + first.1.paramSizes.sum ≤ _
      omega
    have hlength : first.1.paramSizes.sum = first.1.defaults.toArray.size := by
      rw [List.size_toArray, hdefaults.length_defaults]
    have hbehind : (c.skip first.1.paramSizes.sum).position +
        (rest.map (·.1.paramSizes.sum)).sum ≤
          (ByteCursor.overwrite data c.position first.1.defaults.toArray).size := by
      rw [ByteCursor.size_overwrite]
      show c.position + _ + _ ≤ _
      omega
    rw [writeSlots, if_neg (not_not_intro hsize),
      writeDefaults_eq_ok (fun p hp => hdefaults p (Array.mem_toList_iff.1 hp)) hslot]
    show writeSlots rest (c.skip first.1.paramSizes.sum)
      (ByteCursor.overwrite data c.position first.1.defaults.toArray) = _
    rw [ih (fun x hx => hfit x (List.mem_cons_of_mem first hx)) hbehind, List.flatMap_cons,
      ← List.append_toArray, ← ByteCursor.overwrite_append, ← hlength]
    rfl

/-- The ranges of a slot are as many as its parameters. -/
theorem size_foldl_placeParam (start : Nat) (s : Slot) :
    (s.params.foldl placeParam (start, #[])).2.size = s.params.size :=
  paramPlacing.size_placed_foldl (show paramPlacing.placed (start, #[]) = #[] from rfl) s.params

/-- A memory has as many ranges for each slot as the slot has parameters. -/
theorem Of.counts {d : Device} {m : ParamMemory} (h : m.Of d) :
    d.slots.map (·.params.size) = m.ranges.map Array.size := by
  rw [h.1]
  apply Array.ext_getElem?
  intro i
  rw [Array.getElem?_map, Array.getElem?_map, getElem?_snd_place, Option.map_map]
  congr 1
  funext s
  exact (size_foldl_placeParam _ s).symm

/-- **Defaults are written to a memory that has as many ranges for each slot,** one behind the
other, where there is room for them. -/
theorem initDefaults_eq_ok {d : Device} {m : ParamMemory}
    (hcounts : d.slots.map (·.params.size) = m.ranges.map Array.size) (hd : d.DefaultsFit)
    (hroom : d.paramSizes.sum ≤ m.data.size) :
    m.initDefaults d = (.ok (), m.write 0 d.defaults.toArray) := by
  have hslots : d.slots.size = m.ranges.size := by
    have hsize := congrArg Array.size hcounts
    rwa [Array.size_map, Array.size_map] at hsize
  -- the slots that are zipped with their ranges are all slots
  have hall : (d.slots.toList.zip m.ranges.toList).map Prod.fst = d.slots.toList := by
    apply List.map_fst_zip
    rw [Array.length_toList, Array.length_toList, hslots]
  have hfit : ∀ x ∈ d.slots.toList.zip m.ranges.toList,
      x.1.DefaultsFit ∧ x.1.params.size = x.2.size := by
    intro x hx
    obtain ⟨i, hi⟩ := List.mem_iff_getElem?.1 hx
    obtain ⟨hslot, hranges⟩ := List.getElem?_zip_eq_some.1 hi
    rw [Array.getElem?_toList] at hslot hranges
    refine ⟨hd x.1 (Array.mem_of_getElem? hslot), ?_⟩
    have hcount := congrArg (fun counts : Array Nat => counts[i]?) hcounts
    simp only [Array.getElem?_map, hslot, hranges, Option.map_some, Option.some_inj] at hcount
    exact hcount
  have hsum : (d.slots.toList.zip m.ranges.toList).map (·.1.paramSizes.sum) = d.paramSizes := by
    calc (d.slots.toList.zip m.ranges.toList).map (·.1.paramSizes.sum)
        = ((d.slots.toList.zip m.ranges.toList).map Prod.fst).map (·.paramSizes.sum) := by
          rw [List.map_map]
          rfl
      _ = d.paramSizes := by rw [hall, Device.paramSizes]
  have hvalues : (d.slots.toList.zip m.ranges.toList).flatMap (·.1.defaults) = d.defaults := by
    calc (d.slots.toList.zip m.ranges.toList).flatMap (·.1.defaults)
        = ((d.slots.toList.zip m.ranges.toList).map Prod.fst).flatMap Slot.defaults := by
          rw [List.flatMap_map]
      _ = d.defaults := by rw [hall, Device.defaults]
  have hbehind : ({} : ByteCursor).position +
      ((d.slots.toList.zip m.ranges.toList).map (·.1.paramSizes.sum)).sum ≤ m.data.size := by
    rw [hsum]
    exact Nat.le_trans (Nat.le_of_eq (Nat.zero_add _)) hroom
  unfold ParamMemory.initDefaults
  rw [if_neg (not_not_intro hslots), writeSlots_eq_ok hfit hbehind, hvalues]
  rfl

/-- **The defaults of a valid device are written to a memory that is placed for it.** -/
theorem Of.initDefaults_eq_ok {d : Device} {m : ParamMemory} (h : m.Of d) (hd : d.Valid) :
    m.initDefaults d = (.ok (), m.write 0 d.defaults.toArray) :=
  ParamMemory.initDefaults_eq_ok h.counts hd.defaultsFit
    (by rw [h.2, fst_place])

/-- Writing the defaults moves no parameter. -/
theorem Of.initDefaults {d : Device} {m : ParamMemory} (h : m.Of d) (d' : Device) :
    (m.initDefaults d').2.Of d := by
  unfold ParamMemory.initDefaults
  split
  · exact h
  · exact ⟨h.1, (size_writeSlots ..).trans h.2⟩

end ParamMemory

namespace ParamStore
variable {d : Device} {s : ParamStore}

/-- The store made for a device is placed for it, and has nothing to take. -/
theorem of_ofDevice (h : ofDevice d = .ok s) : s.Of d ∧ s.pending = [] := by
  unfold ofDevice ParamMemory.allocate at h
  by_cases hcount : d.paramCount = 0
  · rw [if_pos hcount] at h
    cases h
    exact ⟨of_iff.2 ⟨⟨fun _ => hcount, fun _ => rfl⟩, fun m e => (nomatch e)⟩, rfl⟩
  · rw [if_neg hcount] at h
    have hof : ParamMemory.Of d ⟨zeroBytes (ParamMemory.place d).1, (ParamMemory.place d).2⟩ :=
      ⟨rfl, size_zeroBytes _⟩
    have hinit := hof.initDefaults d
    dsimp only at h
    split at h
    · cases h
    · next m heq =>
      cases h
      rw [heq] at hinit
      refine ⟨of_iff.2 ⟨⟨fun e => (nomatch e), fun e => absurd e hcount⟩, ?_⟩, rfl⟩
      intro m' e
      cases e
      exact hinit

/-- **A valid device always gets its store,** with every default in the memory allocated for it. -/
theorem ofDevice_eq_ok (hd : d.Valid) : ofDevice d =
    .ok { memory := (ParamMemory.allocate d).map (·.write 0 d.defaults.toArray) } := by
  unfold ofDevice ParamMemory.allocate
  by_cases hcount : d.paramCount = 0
  · rw [if_pos hcount]
    rfl
  · rw [if_neg hcount]
    have hof : ParamMemory.Of d ⟨zeroBytes (ParamMemory.place d).1, (ParamMemory.place d).2⟩ :=
      ⟨rfl, size_zeroBytes _⟩
    dsimp only
    rw [hof.initDefaults_eq_ok hd]
    rfl

theorem exists_ofDevice (hd : d.Valid) : ∃ s, ofDevice d = .ok s := ⟨_, ofDevice_eq_ok hd⟩

/-! ### Access by index

What the calls of a store come to. A look-up goes through device, memory and length; for a store
that is placed for its device the second never fails where the first did not. -/

/-- Every parameter has a range of the memory, and its value is what is there. -/
theorem Of.exists_cell (h : s.Of d) {slot param : UInt16} {p : Parameter}
    (hp : d.param slot param = .ok p) :
    ∃ m r, s.memory = some m ∧ m.Of d ∧ d.ParamAt slot.toNat param.toNat r ∧
      r.length = p.byteLength.toNat ∧ s.get slot param = some (m.slice r) := by
  obtain ⟨r, hr, hlen⟩ := Device.exists_paramAt hp
  cases hm : s.memory with
  | none => exact absurd ((of_iff.1 h).1.1 hm) (Device.paramCount_ne_zero hp)
  | some m =>
    have hof := (of_iff.1 h).2 m hm
    refine ⟨m, r, rfl, hof, hr, hlen, ?_⟩
    rw [get, hm]
    dsimp only
    rw [(ParamMemory.locate_eq_some_iff hof.1).2 hr, Option.map_some]

/-- **Which accesses find a parameter.** -/
theorem Of.locate_eq_ok_iff (h : s.Of d) {slot param : UInt16} {bits : Nat} {m : ParamMemory}
    {r : ByteRange} :
    s.locate d slot param bits = .ok (m, r) ↔
      s.memory = some m ∧ d.ParamAt slot.toNat param.toNat r ∧ bytesFor bits = r.length := by
  unfold locate
  cases hp : d.param slot param with
  | error e =>
    refine ⟨fun e => (nomatch e), ?_⟩
    rintro ⟨-, hr, -⟩
    obtain ⟨p, hp', -⟩ := hr.exists_param
    rw [hp] at hp'
    cases hp'
  | ok p =>
    -- the parameter has a range, so only the length can be wrong
    obtain ⟨m', r', hm, hof, hr', hlen, -⟩ := h.exists_cell hp
    have hloc := (ParamMemory.locate_eq_some_iff hof.1).2 hr'
    dsimp only
    rw [hm]
    dsimp only
    rw [hloc, ← hlen]
    constructor
    · intro e
      split at e
      · cases e
      · next hbits =>
        cases e
        exact ⟨rfl, hr', Decidable.not_not.1 hbits⟩
    · rintro ⟨e, hr, hbits⟩
      cases e
      cases hloc.symm.trans ((ParamMemory.locate_eq_some_iff hof.1).2 hr)
      rw [if_neg (not_not_intro hbits)]

/-- **Every parameter has a value,** as long as its declaration says. -/
theorem Of.get_eq_some (h : s.Of d) {slot param : UInt16} {p : Parameter}
    (hp : d.param slot param = .ok p) :
    ∃ value, s.get slot param = some value ∧ value.size = p.byteLength.toNat := by
  obtain ⟨m, r, -, hof, hr, hlen, hget⟩ := h.exists_cell hp
  exact ⟨m.slice r, hget, by rw [hof.size_slice hr, hlen]⟩

/-- What a write that succeeds finds and leaves. -/
theorem Of.write_spec (h : s.Of d) {slot param : UInt16} {bits : Nat} {data : Bytes}
    {out out' : Outbox} {s' : ParamStore}
    (hw : s.write d slot param bits data out = .ok (s', out')) :
    ∃ p, d.param slot param = .ok p ∧ bytesFor bits = p.byteLength.toNat ∧
      p.byteLength.toNat ≤ data.size ∧ s'.Of d ∧
      s'.pending = markPending s.pending (slot, param) ∧
      s'.get slot param = some (data.extract 0 p.byteLength.toNat) ∧
      ∀ i j, (i, j) ≠ (slot, param) → s'.get i j = s.get i j := by
  unfold write at hw
  cases hl : s.locate d slot param bits with
  | error e =>
    rw [hl] at hw
    cases hw
  | ok found =>
    obtain ⟨m, r⟩ := found
    rw [hl] at hw
    obtain ⟨hm, hr, hbits⟩ := h.locate_eq_ok_iff.1 hl
    obtain ⟨p, hp, hlen⟩ := hr.exists_param
    have hof := (of_iff.1 h).2 m hm
    dsimp only at hw
    split at hw
    · cases hw
    · next hsize =>
      cases hw
      have hvalue : (data.extract 0 r.length).size = r.length := by
        rw [Array.size_extract]
        omega
      have hof' := hof.write r.start (data.extract 0 r.length)
      refine ⟨p, hp, by omega, by omega, of_iff.2 ⟨?_, ?_⟩, rfl, ?_, ?_⟩
      · refine ⟨fun e => (nomatch e), fun e => ?_⟩
        exact absurd e (Device.paramCount_ne_zero hp)
      · intro m' hm'
        cases hm'
        exact hof'
      · show ((m.write r.start _).locate slot param).map _ = _
        rw [(ParamMemory.locate_eq_some_iff hof'.1).2 hr, Option.map_some,
          hof.slice_write_self hr hvalue, hlen]
      · intro i j hne
        unfold get
        rw [hm]
        show (m.locate i j).map (m.write r.start _).slice = (m.locate i j).map m.slice
        cases hl' : m.locate i j with
        | none => rfl
        | some r' =>
          have hr' := (ParamMemory.locate_eq_some_iff hof.1).1 hl'
          rw [Option.map_some, Option.map_some, ParamMemory.slice_write_of_ne hr hr' hvalue]
          intro e
          -- indices of sixteen bits differ as numbers too
          apply hne
          rw [Prod.mk.injEq, UInt16.toNat_inj, UInt16.toNat_inj] at e
          rw [e.1, e.2]

end ParamStore

end Fieldbus
