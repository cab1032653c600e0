import Fieldbus.Proofs.ParamCells
import Fieldbus.Proofs.Tiling
/-!
The parameter store as a memory of independent cells.

A store begins with the defaults of its device, and is then asked to write, to read, and to hand
over what was written (`StoreCall`). What it answers at any time depends on two things only: the
device, which decides which calls succeed (`Device.Admits`), and the writes that succeeded so far,
which decide the values (`Parameter.valueAfter`). A parameter has the value last written to it, or
its default; what was written to others does not matter.

The statement has one half for the buffer and one for its history:

* the ranges of the parameters tile the memory (`ParamMemory.Of.tiles`), and the defaults are laid
  out alike (`ParamMemory.slice_defaults`), so every parameter begins with its own default;
* each call leaves every parameter with the value that the writes so far say
  (`StoreHistory.Sound.next`), and so does every run of calls (`StoreHistory.Sound.foldl`).

History is a list of the writes that succeeded, each with its parameter and its bytes, latest first.
It is not part of the store, and the statement is about what can be said of a store from outside
once its history is known.
-/

namespace Fieldbus

/-! ## The ranges of a memory

Tiling is shown for parameters as it is for frames: both loops put one thing behind the other, and
the law for that is the same. -/

/-- What is made of each thing of something made by index. -/
theorem map_mapIdx {α β γ : Type} (g : β → γ) (f : Nat → α → β) (xs : List α) :
    (xs.mapIdx f).map g = xs.mapIdx fun i x => g (f i x) := by
  apply List.ext_getElem?
  intro i
  rw [List.getElem?_map, List.getElem?_mapIdx, List.getElem?_mapIdx, Option.map_map]
  rfl

namespace ParamMemory

/-- The bytes of each parameter, in slot, then parameter order. -/
def intervals (m : ParamMemory) : List Interval :=
  m.ranges.toList.flatMap fun ranges => ranges.toList.map fun r => ⟨r.start, r.stop⟩

/-- The ranges of a slot tile its room. -/
theorem tiles_foldl_placeParam (start : Nat) (s : Slot) :
    Tiles start ((s.params.foldl placeParam (start, #[])).2.toList.map fun r => ⟨r.start, r.stop⟩)
      (start + s.paramSizes.sum) := by
  have hplaced : (s.params.foldl placeParam (start, #[])).2.toList =
      s.params.toList.mapIdx fun j p =>
        ⟨start + offset s.paramSizes j, start + offset s.paramSizes j + p.byteLength.toNat⟩ := by
    rw [← Array.foldl_toList]
    exact paramPlacing.placed_foldl s.params.toList (start, #[])
  have htiles := @tiles_placed _ (fun p : Parameter => p.byteLength.toNat)
    (fun at_ p => [⟨at_, at_ + p.byteLength.toNat⟩])
    (fun at_ p => ⟨rfl, Nat.le_add_right _ _, rfl⟩) s.params.toList start
  rw [flatten_mapIdx_singleton] at htiles
  rw [hplaced, map_mapIdx]
  exact htiles

variable {d : Device} {m : ParamMemory}

/-- **The ranges of a memory tile it**, in slot, then parameter order. -/
theorem Of.tiles (h : m.Of d) : Tiles 0 m.intervals m.data.size := by
  have hplaced : (place d).2.toList = d.slots.toList.mapIdx fun i s =>
      (s.params.foldl placeParam (0 + offset d.paramSizes i, #[])).2 := by
    unfold place
    rw [← Array.foldl_toList]
    exact slotPlacing.placed_foldl d.slots.toList (0, #[])
  have htiles := @tiles_placed _ (fun s : Slot => s.paramSizes.sum)
    (fun at_ s => (s.params.foldl placeParam (at_, #[])).2.toList.map fun r => ⟨r.start, r.stop⟩)
    tiles_foldl_placeParam d.slots.toList 0
  rw [intervals, h.1, h.2, hplaced, fst_place, List.flatMap_def, map_mapIdx,
    ← Nat.zero_add d.paramSizes.sum]
  exact htiles

/-- **Each range is as long as its parameter**, and there is one for each parameter. -/
theorem Of.lengths (h : m.Of d) : m.ranges.map (·.map ByteRange.length) =
    d.slots.map fun s => s.params.map (·.byteLength.toNat) := by
  rw [h.1]
  apply Array.ext_getElem?
  intro i
  rw [Array.getElem?_map, Array.getElem?_map, getElem?_snd_place, Option.map_map]
  congr 1
  funext s
  apply Array.ext_getElem?
  intro j
  rw [Function.comp_apply, Array.getElem?_map, Array.getElem?_map, getElem?_foldl_placeParam,
    Option.map_map]
  congr 1
  funext p
  exact Nat.add_sub_cancel_left ..

end ParamMemory

/-! ## The defaults

The defaults of all parameters one behind the other are the memory as it is made. Where a default is
in that list is given by the lengths before it, and so is the range of its parameter. -/

/-- Things laid out one behind the other are found in the whole, each at its offset. -/
theorem getElem?_flatMap_offset {α β : Type} (f : α → List β) {xs : List α} {i k : Nat} {x : α}
    (hx : xs[i]? = some x) (hk : k < (f x).length) :
    (xs.flatMap f)[offset (xs.map fun y => (f y).length) i + k]? = (f x)[k]? := by
  induction xs generalizing i with
  | nil => cases hx
  | cons y rest ih =>
    rw [List.flatMap_cons]
    cases i with
    | zero =>
      cases hx
      rw [offset_zero, Nat.zero_add, List.getElem?_append_left hk]
    | succ i =>
      rw [List.map_cons, offset_cons_succ, Nat.add_assoc,
        List.getElem?_append_right (Nat.le_add_right _ _), Nat.add_sub_cancel_left]
      exact ih hx

/-- Byte `k` of the default of parameter `j` of slot `i`, among all defaults of a device. -/
theorem Device.DefaultsFit.getElem?_defaults {d : Device} (hd : d.DefaultsFit) {i j k : Nat}
    {s : Slot} {p : Parameter} (hs : d.slots[i]? = some s) (hp : s.params[j]? = some p)
    (hk : k < p.default.size) :
    d.defaults[offset d.paramSizes i + (offset s.paramSizes j + k)]? = p.default[k]? := by
  have hslot : s.DefaultsFit := hd s (Array.mem_of_getElem? hs)
  have hlength : p.default.size = p.byteLength.toNat := hslot p (Array.mem_of_getElem? hp)
  have hin : offset s.paramSizes j + k < s.defaults.length := by
    have hle := offset_add_le_sum (Slot.getElem?_paramSizes hp)
    rw [hslot.length_defaults]
    omega
  rw [← Array.getElem?_toList] at hs hp
  rw [← Array.length_toList] at hk
  calc d.defaults[offset d.paramSizes i + (offset s.paramSizes j + k)]?
      = s.defaults[offset s.paramSizes j + k]? := by
        rw [← hd.map_length_defaults]
        exact getElem?_flatMap_offset Slot.defaults hs hin
    _ = p.default[k]? := by
        rw [← Array.getElem?_toList, ← hslot.map_length_default]
        exact getElem?_flatMap_offset (fun p : Parameter => p.default.toList) hp hk

/-- **A memory that holds the defaults of its device has each in the range of its parameter.** -/
theorem ParamMemory.slice_defaults {d : Device} {m : ParamMemory} (hd : d.DefaultsFit)
    (hdata : m.data = d.defaults.toArray) {i j : Nat} {r : ByteRange} (hr : d.ParamAt i j r) :
    ∃ s p, d.slots[i]? = some s ∧ s.params[j]? = some p ∧ m.slice r = p.default := by
  have hstop : r.stop ≤ m.data.size := by
    rw [hdata, List.size_toArray, hd.length_defaults, ← fst_place]
    exact hr.stop_le
  obtain ⟨s, p, hs, hp, hstart, hlen⟩ := hr
  have hlength : p.default.size = p.byteLength.toNat :=
    hd s (Array.mem_of_getElem? hs) p (Array.mem_of_getElem? hp)
  refine ⟨s, p, hs, hp, ?_⟩
  apply Array.ext_getElem?
  intro k
  rw [slice, Array.getElem?_extract]
  by_cases hk : k < p.default.size
  · rw [if_pos (by omega), hdata, List.getElem?_toArray, hstart, Nat.add_assoc,
      hd.getElem?_defaults hs hp hk]
  · rw [if_neg (by omega), Array.getElem?_eq_none (by omega)]

namespace ParamStore
variable {d : Device} {s : ParamStore} {slot param : UInt16} {p : Parameter}

/-- The memory made for a valid device is its defaults. -/
theorem data_ofDevice (hd : d.Valid) (h : ofDevice d = .ok s) {m : ParamMemory}
    (hm : s.memory = some m) : m.data = d.defaults.toArray := by
  have hof := of_ofDevice h
  rw [ofDevice_eq_ok hd] at h
  cases h
  obtain ⟨blank, -, rfl⟩ := Option.map_eq_some_iff.1 hm
  have hsize : blank.data.size = d.defaults.toArray.size := by
    have hplaced := ((of_iff.1 hof.1).2 _ hm).2
    rw [ParamMemory.write, ByteCursor.size_overwrite, ParamMemory.fst_place] at hplaced
    rw [hplaced, List.size_toArray, hd.defaultsFit.length_defaults]
  exact ByteCursor.overwrite_all hsize

/-- **In the store made for a valid device every parameter has its default.** -/
theorem get_ofDevice (hd : d.Valid) (h : ofDevice d = .ok s) (hp : d.param slot param = .ok p) :
    s.get slot param = some p.default := by
  obtain ⟨m, r, hm, -, hr, -, hget⟩ := (of_ofDevice h).1.exists_cell hp
  obtain ⟨t, q, ht, hq, hslice⟩ := ParamMemory.slice_defaults hd.defaultsFit
    (data_ofDevice hd h hm) hr
  cases hp.symm.trans (Device.param_eq_ok_iff.2 ⟨t, ht, hq⟩)
  rw [hget, hslice]

end ParamStore

/-! ## Which calls succeed

Whether a call succeeds is a condition on the device and the arguments (`Device.Admits`), with
nothing of the values in it: the indices are those of a parameter, the length asked for takes as
many bytes, and the buffer has room. A read gives the value in front and leaves the rest of the
buffer. -/

/-- The parameter exists, a value of `bits` bits takes as many bytes as it has, and `room` bytes
hold them. -/
def Device.Admits (d : Device) (slot param : UInt16) (bits room : Nat) : Prop :=
  ∃ s p, d.slots[slot.toNat]? = some s ∧ s.params[param.toNat]? = some p ∧
    bytesFor bits = p.byteLength.toNat ∧ p.byteLength.toNat ≤ room

theorem Device.admits_iff {d : Device} {slot param : UInt16} {bits room : Nat} :
    d.Admits slot param bits room ↔ ∃ p, d.param slot param = .ok p ∧
      bytesFor bits = p.byteLength.toNat ∧ p.byteLength.toNat ≤ room := by
  constructor
  · rintro ⟨s, p, hs, hp, hlen⟩
    exact ⟨p, param_eq_ok_iff.2 ⟨s, hs, hp⟩, hlen⟩
  · rintro ⟨p, hp, hlen⟩
    obtain ⟨s, hs, hps⟩ := param_eq_ok_iff.1 hp
    exact ⟨s, p, hs, hps, hlen⟩

namespace ParamStore
variable {d : Device} {s : ParamStore} {slot param : UInt16} {bits : Nat}

/-- **Which writes succeed.** -/
theorem Of.exists_write_iff (h : s.Of d) {data : Bytes} {out : Outbox} :
    (∃ done, s.write d slot param bits data out = .ok done) ↔
      d.Admits slot param bits data.size := by
  rw [Device.admits_iff]
  constructor
  · rintro ⟨⟨s', out'⟩, hwrite⟩
    obtain ⟨p, hp, hbits, hroom, -⟩ := h.write_spec hwrite
    exact ⟨p, hp, hbits, hroom⟩
  · rintro ⟨p, hp, hbits, hroom⟩
    obtain ⟨m, r, hm, -, hr, hlen, -⟩ := h.exists_cell hp
    have hlocate : s.locate d slot param bits = .ok (m, r) :=
      h.locate_eq_ok_iff.2 ⟨hm, hr, by rw [hbits, hlen]⟩
    rw [write, hlocate]
    dsimp only
    rw [if_neg (by omega)]
    exact ⟨_, rfl⟩

/-- **A read gives the value of its parameter**, where there is room for it, and depends on nothing
else in the store. -/
theorem Of.read_eq (h : s.Of d) (buffer : Bytes) :
    s.read d slot param bits buffer =
      match d.param slot param with
      | .error e => .error e
      | .ok p =>
        if bytesFor bits ≠ p.byteLength.toNat then .error .parameterLength
        else if buffer.size < p.byteLength.toNat then .error .parameterBuffer
        else .ok (p.byteLength.toNat,
          ByteCursor.overwrite buffer 0 ((s.get slot param).getD #[])) := by
  cases hp : d.param slot param with
  | error e =>
    rw [read, locate, hp]
  | ok p =>
    obtain ⟨m, r, hm, -, hr, hlen, hget⟩ := h.exists_cell hp
    dsimp only
    by_cases hbits : bytesFor bits = p.byteLength.toNat
    · have hlocate : s.locate d slot param bits = .ok (m, r) :=
        h.locate_eq_ok_iff.2 ⟨hm, hr, by rw [hbits, hlen]⟩
      rw [if_neg (not_not_intro hbits), read, hlocate, hget, ← hlen]
      rfl
    · rw [if_pos hbits, read, locate, hp]
      dsimp only
      rw [if_pos hbits]

/-- **Which reads succeed.** -/
theorem Of.exists_read_iff (h : s.Of d) {buffer : Bytes} :
    (∃ done, s.read d slot param bits buffer = .ok done) ↔
      d.Admits slot param bits buffer.size := by
  rw [Device.admits_iff, h.read_eq]
  cases d.param slot param with
  | error e => exact ⟨fun ⟨_, e⟩ => (nomatch e), fun ⟨_, e, _⟩ => (nomatch e)⟩
  | ok p =>
    dsimp only
    constructor
    · rintro ⟨done, hdone⟩
      split at hdone
      · cases hdone
      · next hbits =>
        split at hdone
        · cases hdone
        · next hroom => exact ⟨p, rfl, Decidable.not_not.1 hbits, Nat.le_of_not_lt hroom⟩
    · rintro ⟨p', e, hbits, hroom⟩
      cases e
      rw [if_neg (not_not_intro hbits), if_neg (Nat.not_lt.2 hroom)]
      exact ⟨_, rfl⟩

/-- What a read that succeeds gives: the value in front, and behind it what was there. -/
theorem Of.read_spec (h : s.Of d) {buffer out : Bytes} {n : Nat}
    (hread : s.read d slot param bits buffer = .ok (n, out)) :
    ∃ p, d.param slot param = .ok p ∧ n = p.byteLength.toNat ∧ out.size = buffer.size ∧
      s.get slot param = some (out.extract 0 n) ∧ ∀ i, n ≤ i → out[i]? = buffer[i]? := by
  obtain ⟨p, hp, hbits, hroom⟩ := Device.admits_iff.1 (h.exists_read_iff.1 ⟨_, hread⟩)
  obtain ⟨value, hvalue, hsize⟩ := h.get_eq_some hp
  rw [h.read_eq, hp, hvalue] at hread
  dsimp only [Option.getD_some] at hread
  rw [if_neg (not_not_intro hbits), if_neg (Nat.not_lt.2 hroom)] at hread
  cases hread
  refine ⟨p, hp, rfl, ByteCursor.size_overwrite .., ?_, fun i hi => ?_⟩
  · have hin : 0 + value.size ≤ buffer.size := by omega
    have hback := ByteCursor.extract_overwrite_self hin
    rw [Nat.zero_add, hsize] at hback
    rw [hvalue, hback]
  · rw [ByteCursor.getElem?_overwrite, if_neg (by omega)]

/-- Stores that agree on the value of a parameter are read alike. -/
theorem Of.read_congr {s' : ParamStore} (h : s.Of d) (h' : s'.Of d)
    (hget : s'.get slot param = s.get slot param) (buffer : Bytes) :
    s'.read d slot param bits buffer = s.read d slot param bits buffer := by
  rw [h.read_eq, h'.read_eq, hget]

end ParamStore

/-! ## Calls

Calls come in any order and number, and may fail. `StoreHistory.Sound` is the invariant, of the
store and its history together; that it determines all further answers is
`StoreHistory.Independent`. -/

/-- Something asked of a store. A write has the outbox that its message is sent to. -/
inductive StoreCall where
  | write (slot param : UInt16) (bits : Nat) (data : Bytes) (out : Outbox)
  | read (slot param : UInt16) (bits : Nat) (buffer : Bytes)
  | takeWrite

/-- A store, and what was written to it. -/
structure StoreHistory where
  store : ParamStore
  /-- The writes that succeeded, the latest first: the parameter, and the bytes that were given. -/
  past : List ((UInt16 × UInt16) × Bytes) := []

/-- What a call leaves. One that fails leaves everything as it was. -/
def StoreHistory.next (d : Device) (h : StoreHistory) : StoreCall → StoreHistory
  | .write slot param bits data out =>
    match h.store.write d slot param bits data out with
    | .error _ => h
    | .ok (store, _) => ⟨store, ((slot, param), data) :: h.past⟩
  | .read _ _ _ _ => h
  | .takeWrite => { h with store := h.store.takeWrite.2 }

/-- What a run of calls leaves of a store to which nothing was written before. -/
def ParamStore.history (s : ParamStore) (d : Device) (calls : List StoreCall) : StoreHistory :=
  calls.foldl (StoreHistory.next d) { store := s }

/-- The value of a parameter after some writes, the latest first: as many bytes as it has of those
given to the last write to it; its default if there was none. -/
def Parameter.valueAfter (p : Parameter) (key : UInt16 × UInt16)
    (past : List ((UInt16 × UInt16) × Bytes)) : Bytes :=
  match past.lookup key with
  | none => p.default
  | some data => data.extract 0 p.byteLength.toNat

namespace Parameter
variable {p : Parameter} {key other : UInt16 × UInt16} {data : Bytes}
  {past : List ((UInt16 × UInt16) × Bytes)}

theorem valueAfter_cons_self :
    p.valueAfter key ((key, data) :: past) = data.extract 0 p.byteLength.toNat := by
  rw [valueAfter, List.lookup_cons, beq_self_eq_true]

/-- Writes to another parameter do not matter. -/
theorem valueAfter_cons_of_ne (h : key ≠ other) :
    p.valueAfter key ((other, data) :: past) = p.valueAfter key past := by
  rw [valueAfter, List.lookup_cons, beq_false_of_ne h, valueAfter]

end Parameter

namespace StoreHistory
variable {d : Device} {h : StoreHistory}

/-- The store is placed for its device, and has the values that the writes to it left. -/
structure Sound (d : Device) (h : StoreHistory) : Prop where
  of : h.store.Of d
  get : ∀ {slot param : UInt16} {p : Parameter}, d.param slot param = .ok p →
    h.store.get slot param = some (p.valueAfter (slot, param) h.past)

/-- **Every call leaves every parameter with the value that the writes say.** -/
theorem Sound.next (hs : h.Sound d) (c : StoreCall) : (h.next d c).Sound d := by
  cases c with
  | write slot param bits data out =>
    unfold StoreHistory.next
    dsimp only
    cases hwrite : h.store.write d slot param bits data out with
    | error e => exact hs
    | ok done =>
      obtain ⟨store, out'⟩ := done
      obtain ⟨p, hp, -, -, hof, -, hself, hothers⟩ := hs.of.write_spec hwrite
      refine ⟨hof, fun {i j q} hq => ?_⟩
      -- the parameter that was written has the new value, all others keep theirs
      by_cases hkey : (i, j) = (slot, param)
      · cases hkey
        rw [hp] at hq
        cases hq
        rw [Parameter.valueAfter_cons_self]
        exact hself
      · rw [Parameter.valueAfter_cons_of_ne hkey, ← hs.get hq]
        exact hothers i j hkey
  | read slot param bits buffer => exact hs
  | takeWrite => exact ⟨hs.of, hs.get⟩

theorem Sound.foldl (hs : h.Sound d) (calls : List StoreCall) :
    (calls.foldl (StoreHistory.next d) h).Sound d := by
  induction calls generalizing h with
  | nil => exact hs
  | cons c rest ih => exact ih (hs.next c)

/-- The store made for a valid device has the values that no write has changed. -/
theorem sound_ofDevice (hd : d.Valid) {s : ParamStore} (hs : ParamStore.ofDevice d = .ok s) :
    Sound d { store := s } :=
  ⟨(ParamStore.of_ofDevice hs).1, fun hp => ParamStore.get_ofDevice hd hs hp⟩

/-- What a store answers next: each parameter is a cell of its own. -/
structure Independent (d : Device) (h : StoreHistory) : Prop where
  /-- A write succeeds exactly if its parameter exists, is as long as the value in bytes, and is
  given that many bytes. -/
  exists_write_iff : ∀ slot param bits data out,
    (∃ done, h.store.write d slot param bits data out = .ok done) ↔
      d.Admits slot param bits data.size
  /-- A read succeeds under the same condition on its buffer. -/
  exists_read_iff : ∀ slot param bits buffer,
    (∃ done, h.store.read d slot param bits buffer = .ok done) ↔
      d.Admits slot param bits buffer.size
  /-- A read puts the value last written to its parameter, or its default, in front of its buffer,
  and leaves the rest of it. -/
  read : ∀ slot param bits buffer n out,
    h.store.read d slot param bits buffer = .ok (n, out) →
      ∃ s p, d.slots[slot.toNat]? = some s ∧ s.params[param.toNat]? = some p ∧
        n = p.byteLength.toNat ∧ out.size = buffer.size ∧
        out.extract 0 n = p.valueAfter (slot, param) h.past ∧
        ∀ i, n ≤ i → out[i]? = buffer[i]?
  /-- A write leaves the values of all other parameters, and what is read of them. -/
  write : ∀ slot param bits data out store out',
    h.store.write d slot param bits data out = .ok (store, out') →
      ∀ i j, (i, j) ≠ (slot, param) → store.get i j = h.store.get i j ∧
        ∀ bits buffer, store.read d i j bits buffer = h.store.read d i j bits buffer

theorem Sound.independent (hs : h.Sound d) : h.Independent d where
  exists_write_iff _ _ _ _ _ := hs.of.exists_write_iff
  exists_read_iff _ _ _ _ := hs.of.exists_read_iff
  read slot param bits buffer n out hread := by
    obtain ⟨p, hp, hn, hsize, hget, hrest⟩ := hs.of.read_spec hread
    obtain ⟨s, hslot, hparam⟩ := Device.param_eq_ok_iff.1 hp
    refine ⟨s, p, hslot, hparam, hn, hsize, ?_, hrest⟩
    rw [hs.get hp, Option.some_inj] at hget
    exact hget.symm
  write slot param bits data out store out' hwrite i j hne := by
    obtain ⟨-, -, -, -, hof, -, -, hothers⟩ := hs.of.write_spec hwrite
    have hget := hothers i j hne
    exact ⟨hget, fun bits buffer => hs.of.read_congr hof hget buffer⟩

end StoreHistory

/-! ## The law

For a valid device the store can be made, so there is a history to begin with. -/

/-- **The parameter store of a valid device is a memory of independent cells.**

The ranges of its parameters tile its memory in order, each as long as its parameter. The store can
be made; and after any calls whatever, a write or a read succeeds exactly if its parameter exists and
the lengths are right, a read gives the value last written to the same parameter or else its default,
and a write changes no other parameter. -/
theorem ParamStore.independent_cells (d : Device) (hd : d.validate = .ok ()) :
    (∀ m, ParamMemory.allocate d = some m →
      Tiles 0 m.intervals m.data.size ∧
      m.ranges.map (·.map ByteRange.length) =
        d.slots.map fun s => s.params.map (·.byteLength.toNat)) ∧
    ∃ s, ParamStore.ofDevice d = .ok s ∧
      ∀ calls : List StoreCall, (s.history d calls).Independent d := by
  have hv := (Device.validate_eq_ok_iff d).1 hd
  constructor
  · intro m hm
    have hof : m.Of d := by
      unfold ParamMemory.allocate at hm
      split at hm
      · cases hm
      · cases hm
        exact ⟨rfl, size_zeroBytes _⟩
    exact ⟨hof.tiles, hof.lengths⟩
  · obtain ⟨s, hs⟩ := ParamStore.exists_ofDevice hv
    refine ⟨s, hs, fun calls => ?_⟩
    exact ((StoreHistory.sound_ofDevice hv hs).foldl calls).independent

/-- A device with a parameter of no bytes, and a slot without parameters. -/
def unevenDevice : Device where
  name := "uneven"
  slots := #[
    { name := "first", params := #[⟨"gain", 100, 4, #[1, 2, 3, 4]⟩, ⟨"none", 101, 0, #[]⟩] },
    { name := "bare" },
    { name := "third", params := #[⟨"limit", 100, 2, #[0xAA, 0xBB]⟩] }]

theorem ParamStore.independent_cells_uneven :
    unevenDevice.validate = .ok () ∧
      ∃ s n out, ParamStore.ofDevice unevenDevice = .ok s ∧
        (s.history unevenDevice [.write 2 0 13 #[0x12, 0x34, 0x56] (.empty 1),
          .write 0 0 32 #[9] (.empty 1), .takeWrite]).store.read unevenDevice 2 0 16 #[7, 7, 7] =
            .ok (n, out) ∧
        out.extract 0 n = #[0x12, 0x34] ∧ out[2]? = some 7 := by
  have hvalid : unevenDevice.validate = .ok () := by decide +kernel
  obtain ⟨-, s, hs, hcalls⟩ := independent_cells unevenDevice hvalid
  -- the write of too few bytes is not among those that succeeded
  have hpast : (s.history unevenDevice [.write 2 0 13 #[0x12, 0x34, 0x56] (.empty 1),
      .write 0 0 32 #[9] (.empty 1), .takeWrite]).past = [((2, 0), #[0x12, 0x34, 0x56])] := by
    cases (show ofDevice unevenDevice = .ok ⟨some ⟨#[1, 2, 3, 4, 0xAA, 0xBB],
      #[#[⟨0, 4⟩, ⟨4, 4⟩], #[], #[⟨4, 6⟩]]⟩, []⟩ by decide +kernel).symm.trans hs
    decide +kernel
  have hthird : unevenDevice.slots[2]? =
      some { name := "third", params := #[⟨"limit", 100, 2, #[0xAA, 0xBB]⟩] } := rfl
  obtain ⟨⟨n, out⟩, hread⟩ := ((hcalls _).exists_read_iff 2 0 16 #[7, 7, 7]).2
    ⟨_, _, hthird, rfl, rfl, by decide⟩
  obtain ⟨slot, p, hslot, hp, rfl, -, hvalue, hrest⟩ := (hcalls _).read _ _ _ _ _ _ hread
  cases hthird.symm.trans hslot
  cases hp
  rw [hpast] at hvalue
  exact ⟨hvalid, s, _, out, hs, hread, hvalue, hrest 2 (by decide)⟩

end Fieldbus
