import Fieldbus.Proofs.CellHistory
/-!
Defaults of another device.

A memory is allocated for one device. When defaults are written to it, they may be those of another
one, and what is looked at then is not whether the two are the same: it is how many slots there are,
how many parameters in each, and whether the cursor gets to the end of the buffer
(`ParamMemory.initDefaults_eq_ok_iff`). The lengths of the parameters are not compared.

The cursor goes by the lengths of the device it is given, the ranges by those of the device that the
memory was allocated for. Where these lengths are the same, every parameter gets its own default
(`ParamMemory.Of.slice_initDefaults`). Where they differ, it does not, although nothing is reported:
the range that is found for the parameter has another length than its default.

For comparison: a memory with its own device, as stores have it, is not affected. There the lengths
agree because device and memory come from one source, and nothing ever mixes them.
-/

namespace Fieldbus

/-- The number of parameters in each slot. -/
def Device.paramCounts (d : Device) : Array Nat := d.slots.map (·.params.size)

/-- The length of each parameter, by slot, then parameter. -/
def Device.paramLengths (d : Device) : Array (Array Nat) :=
  d.slots.map fun s => s.params.map (·.byteLength.toNat)

/-! ## Ranges go by the lengths only

Where a parameter lies is a matter of the lengths before it, slot by slot. The defaults do not
count, nor do names and types. -/

section Lengths
variable {d d' : Device}

theorem Device.paramSizes_eq_map_lengths (d : Device) :
    d.paramSizes = d.paramLengths.toList.map (·.toList.sum) := by
  unfold paramSizes paramLengths
  rw [Array.toList_map, List.map_map]
  apply List.map_congr_left
  intro s _
  rw [Function.comp_apply, Array.toList_map]
  rfl

/-- Where a parameter lies is decided by the lengths of all parameters. -/
theorem Device.paramAt_iff_lengths {i j : Nat} {r : ByteRange} :
    d.ParamAt i j r ↔ ∃ lengths n, d.paramLengths[i]? = some lengths ∧ lengths[j]? = some n ∧
      r.start = offset (d.paramLengths.toList.map (·.toList.sum)) i + offset lengths.toList j ∧
      r.stop = r.start + n := by
  unfold ParamAt
  rw [← paramSizes_eq_map_lengths]
  constructor
  · rintro ⟨s, p, hs, hp, hstart, hstop⟩
    refine ⟨s.params.map (·.byteLength.toNat), p.byteLength.toNat, ?_, ?_, ?_, hstop⟩
    · rw [paramLengths, Array.getElem?_map, hs, Option.map_some]
    · rw [Array.getElem?_map, hp, Option.map_some]
    · rw [hstart, Array.toList_map]
      rfl
  · rintro ⟨lengths, n, hlengths, hn, hstart, hstop⟩
    rw [paramLengths, Array.getElem?_map] at hlengths
    obtain ⟨s, hs, rfl⟩ := Option.map_eq_some_iff.1 hlengths
    rw [Array.getElem?_map] at hn
    obtain ⟨p, hp, rfl⟩ := Option.map_eq_some_iff.1 hn
    rw [Array.toList_map] at hstart
    exact ⟨s, p, hs, hp, hstart, hstop⟩

/-- **Devices with the same lengths have their parameters at the same places.** -/
theorem Device.paramAt_congr (h : d.paramLengths = d'.paramLengths) {i j : Nat} {r : ByteRange} :
    d.ParamAt i j r ↔ d'.ParamAt i j r := by
  rw [paramAt_iff_lengths, paramAt_iff_lengths, h]

theorem Device.paramSizes_congr (h : d.paramLengths = d'.paramLengths) :
    d.paramSizes = d'.paramSizes := by
  rw [paramSizes_eq_map_lengths, paramSizes_eq_map_lengths, h]

end Lengths

namespace ParamMemory

/-! ## What is accepted

That defaults are written to the end says of them that each has the length it is declared with, and
that there was room for all. In the other direction that is enough, with as many slots and
parameters as there are ranges; so what is accepted can be said by one equivalence. -/

/-- What is known of defaults that were written: they fit, and there was room for all of them. -/
theorem of_writeDefaults_eq_ok {params : List Parameter} {c : ByteCursor} {data : Bytes}
    (hc : c.position ≤ data.size) (h : (writeDefaults params c data).1 = .ok ()) :
    (∀ p ∈ params, p.Valid) ∧
      c.position + (params.map (·.byteLength.toNat)).sum ≤ data.size := by
  induction params generalizing c data with
  | nil => exact ⟨fun p hp => (nomatch hp), hc⟩
  | cons p rest ih =>
    unfold writeDefaults at h
    split at h
    · cases h
    · next hlength =>
      have hvalid : p.default.size = p.byteLength.toNat := Decidable.not_not.1 hlength
      unfold ByteCursor.checkRoom at h
      split at h
      · cases h
      · next hroom =>
        split at hroom
        · cases hroom
        · next hle =>
          -- the buffer keeps its length, so there is room up to here
          have hnext : c.position + p.default.size ≤
              (ByteCursor.overwrite data c.position p.default).size := by
            rw [ByteCursor.size_overwrite]
            exact Nat.le_of_not_lt hle
          obtain ⟨hall, hsum⟩ := ih hnext h
          rw [ByteCursor.size_overwrite] at hsum
          refine ⟨fun q hq => ?_, ?_⟩
          · rcases List.mem_cons.1 hq with rfl | hq
            · exact hvalid
            · exact hall q hq
          · rw [List.map_cons, List.sum_cons]
            change c.position + p.default.size + _ ≤ _ at hsum
            omega

/-- What is known of the defaults of slots that were written. -/
theorem of_writeSlots_eq_ok {slots : List (Slot × Array ByteRange)} {c : ByteCursor}
    {data : Bytes} (hc : c.position ≤ data.size) (h : (writeSlots slots c data).1 = .ok ()) :
    (∀ x ∈ slots, x.1.DefaultsFit ∧ x.1.params.size = x.2.size) ∧
      c.position + (slots.map (·.1.paramSizes.sum)).sum ≤ data.size := by
  induction slots generalizing c data with
  | nil => exact ⟨fun x hx => (nomatch hx), hc⟩
  | cons first rest ih =>
    obtain ⟨s, ranges⟩ := first
    unfold writeSlots at h
    split at h
    · cases h
    · next hcount =>
      split at h
      · cases h
      · next c' data' hwrite =>
        obtain ⟨hvalid, hroom⟩ := of_writeDefaults_eq_ok hc (by rw [hwrite])
        have hwritten := writeDefaults_eq_ok hvalid hroom
        rw [hwrite] at hwritten
        cases hwritten
        obtain ⟨hall, hsum⟩ := ih (by rw [ByteCursor.size_overwrite]; exact hroom) h
        rw [ByteCursor.size_overwrite] at hsum
        refine ⟨fun x hx => ?_, ?_⟩
        · rcases List.mem_cons.1 hx with rfl | hx
          · exact ⟨fun p hp => hvalid p (Array.mem_toList_iff.2 hp), Decidable.not_not.1 hcount⟩
          · exact hall x hx
        · rw [List.map_cons, List.sum_cons, ← Nat.add_assoc]
          exact hsum

/-- In each slot as many parameters as ranges, if they are as many pair by pair. -/
theorem paramCounts_eq {d : Device} {ranges : Array (Array ByteRange)}
    (hsize : d.slots.toList.length = ranges.toList.length)
    (h : ∀ x ∈ d.slots.toList.zip ranges.toList, x.1.params.size = x.2.size) :
    d.paramCounts = ranges.map Array.size := by
  apply Array.toList_inj.1
  rw [Device.paramCounts, Array.toList_map, Array.toList_map]
  calc d.slots.toList.map (·.params.size)
      = ((d.slots.toList.zip ranges.toList).map Prod.fst).map (·.params.size) := by
        rw [List.map_fst_zip (Nat.le_of_eq hsize)]
    _ = (d.slots.toList.zip ranges.toList).map (·.1.params.size) := List.map_map
    _ = (d.slots.toList.zip ranges.toList).map (·.2.size) := List.map_congr_left h
    _ = ((d.slots.toList.zip ranges.toList).map Prod.snd).map Array.size := by
        rw [List.map_map]
        rfl
    _ = ranges.toList.map Array.size := by rw [List.map_snd_zip (Nat.le_of_eq hsize.symm)]

/-- **Whose defaults a memory takes:** those of every device with as many slots, as many parameters
in each, defaults of the right lengths and no more bytes of them than the memory has. -/
theorem initDefaults_eq_ok_iff {d : Device} {m : ParamMemory} :
    (m.initDefaults d).1 = .ok () ↔
      d.paramCounts = m.ranges.map Array.size ∧ d.DefaultsFit ∧
        d.paramSizes.sum ≤ m.data.size := by
  constructor
  · intro h
    unfold initDefaults at h
    split at h
    · cases h
    · next hslots =>
      have hsize : d.slots.toList.length = m.ranges.toList.length := by
        rw [Array.length_toList, Array.length_toList]
        exact Decidable.not_not.1 hslots
      obtain ⟨hall, hroom⟩ := of_writeSlots_eq_ok (Nat.zero_le _) h
      have hfst := List.map_fst_zip (Nat.le_of_eq hsize)
      refine ⟨paramCounts_eq hsize fun x hx => (hall x hx).2, fun s hs => ?_, ?_⟩
      · rw [← Array.mem_toList_iff, ← hfst] at hs
        obtain ⟨x, hx, rfl⟩ := List.mem_map.1 hs
        exact (hall x hx).1
      · rw [Nat.zero_add] at hroom
        calc d.paramSizes.sum
            = (((d.slots.toList.zip m.ranges.toList).map Prod.fst).map (·.paramSizes.sum)).sum := by
              rw [hfst, Device.paramSizes]
          _ ≤ m.data.size := by rw [List.map_map]; exact hroom
  · rintro ⟨hcounts, hd, hroom⟩
    rw [initDefaults_eq_ok hcounts hd hroom]

/-! ## What is found then

Where the lengths are the same the defaults lie where the ranges are. Where one differs, the range
found for that parameter has the wrong length, so it cannot be the default whatever its bytes are. -/

section Foreign
variable {a b : Device} {m : ParamMemory}

/-- **Defaults of parameters of the same lengths** are each found in the range of its parameter. -/
theorem Of.slice_initDefaults (h : m.Of a) (hlengths : a.paramLengths = b.paramLengths)
    (hd : b.DefaultsFit) {slot param : UInt16} {p : Parameter} (hp : b.param slot param = .ok p) :
    ∃ r, (m.write 0 b.defaults.toArray).locate slot param = some r ∧
      (m.write 0 b.defaults.toArray).slice r = p.default := by
  obtain ⟨r, hr, -⟩ := Device.exists_paramAt hp
  have hsize : m.data.size = b.defaults.toArray.size := by
    rw [h.2, fst_place, Device.paramSizes_congr hlengths, List.size_toArray, hd.length_defaults]
  obtain ⟨s, q, hs, hq, hslice⟩ :=
    slice_defaults (m := m.write 0 b.defaults.toArray) hd
      (ByteCursor.overwrite_all hsize) hr
  cases hp.symm.trans (Device.param_eq_ok_iff.2 ⟨s, hs, hq⟩)
  exact ⟨r, (locate_eq_some_iff (h.write 0 _).1).2 ((Device.paramAt_congr hlengths).2 hr), hslice⟩

/-- **A parameter of another length** is found in a range that its default does not fill. -/
theorem Of.slice_ne_default (h : m.Of a) (hd : b.DefaultsFit) {slot param : UInt16}
    {p q : Parameter} (hp : b.param slot param = .ok p) (hq : a.param slot param = .ok q)
    (hne : q.byteLength ≠ p.byteLength) :
    ∃ r, (m.write 0 b.defaults.toArray).locate slot param = some r ∧
      (m.write 0 b.defaults.toArray).slice r ≠ p.default := by
  obtain ⟨r, hr, hlen⟩ := Device.exists_paramAt hq
  refine ⟨r, (locate_eq_some_iff (h.write 0 _).1).2 hr, fun heq => hne ?_⟩
  have hsize := (h.write 0 b.defaults.toArray).size_slice hr
  obtain ⟨s, hs, hps⟩ := Device.param_eq_ok_iff.1 hp
  have hvalid : p.default.size = p.byteLength.toNat :=
    hd s (Array.mem_of_getElem? hs) p (Array.mem_of_getElem? hps)
  rw [heq, hvalid, hlen] at hsize
  exact UInt16.toNat_inj.1 hsize.symm

end Foreign
end ParamMemory

/-- **A memory knows another device by its counts, not by its lengths.** To the memory allocated for
one device the defaults of another can be written, and

* that succeeds exactly if both have as many slots and as many parameters in each, every default has
  the length that is declared for it, and all of them are no longer than the memory;
* then they lie one behind the other from its beginning. If the two devices have parameters of the
  same lengths, each parameter is found at a range that has its default;
* but each parameter of another length is found at a range that has something else. -/
theorem defaults_of_another_device (a b : Device) (m : ParamMemory)
    (h : ParamMemory.allocate a = some m) :
    ((m.initDefaults b).1 = .ok () ↔ b.paramCounts = a.paramCounts ∧ b.DefaultsFit ∧
      b.paramSizes.sum ≤ a.paramSizes.sum) ∧
    ∀ m', m.initDefaults b = (.ok (), m') →
      m' = m.write 0 b.defaults.toArray ∧
      (a.paramLengths = b.paramLengths → ∀ slot param p, b.param slot param = .ok p →
        ∃ r, m'.locate slot param = some r ∧ m'.slice r = p.default) ∧
      ∀ slot param p q, b.param slot param = .ok p → a.param slot param = .ok q →
        q.byteLength ≠ p.byteLength →
        ∃ r, m'.locate slot param = some r ∧ m'.slice r ≠ p.default := by
  have hof := ParamMemory.of_allocate h
  have haccepted : (m.initDefaults b).1 = .ok () ↔ b.paramCounts = a.paramCounts ∧
      b.DefaultsFit ∧ b.paramSizes.sum ≤ a.paramSizes.sum := by
    rw [ParamMemory.initDefaults_eq_ok_iff, ← hof.counts, hof.2, ParamMemory.fst_place]
    rfl
  refine ⟨haccepted, fun m' hm' => ?_⟩
  obtain ⟨hcounts, hd, hroom⟩ := ParamMemory.initDefaults_eq_ok_iff.1 (congrArg Prod.fst hm')
  have hwritten := ParamMemory.initDefaults_eq_ok hcounts hd hroom
  rw [hm'] at hwritten
  cases hwritten
  exact ⟨rfl, fun hlengths _ _ _ hp => hof.slice_initDefaults hlengths hd hp,
    fun _ _ _ _ hp hq hne => hof.slice_ne_default hd hp hq hne⟩

/-- A device with one parameter, of as many bytes as its default has. -/
def oneParamDevice (default : Bytes) : Device where
  name := "single"
  slots := #[{ name := "only", params := #[⟨"only", 1, UInt16.ofNat default.size, default⟩] }]

/-- The default of one byte is accepted where two bytes were allocated, and not what is found. -/
theorem defaults_of_another_device_shorter :
    ∃ m m', ParamMemory.allocate (oneParamDevice #[1, 2]) = some m ∧
      m.initDefaults (oneParamDevice #[0x0A]) = (.ok (), m') ∧ m'.data = #[0x0A, 0] ∧
      ∃ r, m'.locate 0 0 = some r ∧ m'.slice r ≠ #[0x0A] := by
  have halloc : ParamMemory.allocate (oneParamDevice #[1, 2]) =
      some ⟨#[0, 0], #[#[⟨0, 2⟩]]⟩ := by decide +kernel
  have hinit : (ParamMemory.mk #[0, 0] #[#[⟨0, 2⟩]]).initDefaults (oneParamDevice #[0x0A]) =
      (.ok (), ⟨#[0x0A, 0], #[#[⟨0, 2⟩]]⟩) := by decide +kernel
  obtain ⟨-, hfound⟩ := defaults_of_another_device _ (oneParamDevice #[0x0A]) _ halloc
  exact ⟨_, _, halloc, hinit, rfl, (hfound _ hinit).2.2 0 0 _ _ rfl rfl (by decide)⟩

/-- **Not every memory that takes the defaults of a device has them where it is asked for them.** -/
theorem not_all_defaults_found :
    ¬ ∀ (a b : Device) (m m' : ParamMemory), ParamMemory.allocate a = some m →
      m.initDefaults b = (.ok (), m') → ∀ slot param p, b.param slot param = .ok p →
        ∃ r, m'.locate slot param = some r ∧ m'.slice r = p.default := by
  intro h
  obtain ⟨r, hr, hslice⟩ := h (oneParamDevice #[1, 2]) (oneParamDevice #[0x0A])
    ⟨#[0, 0], #[#[⟨0, 2⟩]]⟩ ⟨#[0x0A, 0], #[#[⟨0, 2⟩]]⟩ (by decide +kernel) (by decide +kernel)
    0 0 _ rfl
  cases (show some _ = some r from hr)
  exact absurd hslice (by decide +kernel)

end Fieldbus
