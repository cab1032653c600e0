import Fieldbus.Proofs.GuardedAccess
/-!
Parameter memories in words.

Parameters are placed by words, and there is a guard before every access to the memory, as there is
for frames. A memory in words is the memory in numbers, cut (`WordMemory.place_eq_cut`); for a valid
device nothing is lost by that, since all of its parameters together are fewer bytes than a word can
tell. So memories and stores of valid devices never stop, and give what they give in numbers
(`WordMemory.exact_of`, `WordStore.exact_of`).

The memory in words is a second program, with sums that wrap around and with `none` for an access
that stops. It is held against the one in numbers by `plain`, which only forgets that its ranges are
words. So there are two questions for each operation, whether it stops and whether it gives the
same, and one equation answers both: what it gives in words is `some` of what it gives in numbers.

It is a matter of the ranges alone. They are the same in both memories for a valid device, and
neither reading nor writing changes them, so what is said of a memory that was allocated is said of
it for good.
-/

namespace Fieldbus

/-! ## Parameter memories

The definitions follow those in numbers step by step. Before a stretch of the buffer is taken or
copied to, a guard asks whether it lies in the buffer, and answers with `none` if it does not. The
cursor that defaults are written with is a position of 64 bits. -/

/-- A half-open range of bytes that a parameter occupies. -/
structure WordRange where
  start : UInt64
  stop : UInt64
deriving DecidableEq, Repr

/-- The same range in numbers. -/
def WordRange.plain (r : WordRange) : ByteRange := ⟨r.start.toNat, r.stop.toNat⟩

/-- The number of bytes in a range. -/
def WordRange.length (r : WordRange) : UInt64 := r.stop - r.start

/-- The number of parameters in all slots. -/
def Device.wordParamCount (d : Device) : UInt64 :=
  d.slots.foldl (fun n s => n + UInt64.ofNat s.params.size) 0

/-- The values of all parameters, and where each lies. -/
structure WordMemory where
  data : Bytes
  ranges : Array (Array WordRange)
deriving DecidableEq, Repr

namespace WordMemory

/-- Gives a parameter the bytes behind those already given. -/
def placeParam : UInt64 × Array WordRange → Parameter → UInt64 × Array WordRange
  | (stop, ranges), p =>
    let next := stop + UInt64.ofNat p.byteLength.toNat
    (next, ranges.push ⟨stop, next⟩)

/-- Gives the parameters of a slot the bytes behind those already given. -/
def placeSlot : UInt64 × Array (Array WordRange) → Slot → UInt64 × Array (Array WordRange)
  | (stop, slots), s =>
    let (stop, ranges) := s.params.foldl placeParam (stop, #[])
    (stop, slots.push ranges)

/-- The total length of a device's parameters, and the range of each. -/
def place (d : Device) : UInt64 × Array (Array WordRange) := d.slots.foldl placeSlot (0, #[])

/-- A memory of zeros for all parameters of a device; none if it has no parameter. -/
def allocate (d : Device) : Option WordMemory :=
  if d.wordParamCount = 0 then none
  else
    let (size, ranges) := place d
    some ⟨zeroBytes size.toNat, ranges⟩

/-- The range of a parameter. -/
def locate (m : WordMemory) (slot param : UInt16) : Option WordRange :=
  match m.ranges[slot.toNat]? with
  | none => none
  | some ranges => ranges[param.toNat]?

/-- The bytes in a range. -/
def slice (m : WordMemory) (r : WordRange) : Option Bytes :=
  (Guarded.reachAll m.data r.start r.length).map fun _ => m.data.extract r.start.toNat r.stop.toNat

/-- The memory with the bytes in a range replaced. -/
def write (m : WordMemory) (r : WordRange) (value : Bytes) : Option WordMemory :=
  (Guarded.reachAll m.data r.start r.length).map fun _ =>
    { m with data := ByteCursor.overwrite m.data r.start.toNat value }

/-- Writes the defaults of parameters from `position` on. -/
def writeDefaults : List Parameter → (position : UInt64) → Bytes →
    Option (Except Error Unit × UInt64 × Bytes)
  | [], position, data => some (.ok (), position, data)
  | p :: rest, position, data =>
    if p.default.size ≠ p.byteLength.toNat then some (.error .defaultLength, position, data)
    else
      let stop := position + UInt64.ofNat p.default.size
      if UInt64.ofNat data.size < stop then
        some (.error (.ofAccess (.noRoom data.size)), position, data)
      else
        match Guarded.reachAll data position (stop - position) with
        | none => none
        | some () => writeDefaults rest stop (ByteCursor.overwrite data position.toNat p.default)

/-- Writes the defaults of slots from `position` on. -/
def writeSlots : List (Slot × Array WordRange) → (position : UInt64) → Bytes →
    Option (Written Error)
  | [], _, data => some (.ok (), data)
  | (s, ranges) :: rest, position, data =>
    if s.params.size ≠ ranges.size then some (.error .foreignMemory, data)
    else
      match writeDefaults s.params.toList position data with
      | none => none
      | some (.error e, _, data) => some (.error e, data)
      | some (.ok (), position, data) => writeSlots rest position data

/-- Writes the default of every parameter of a device. -/
def initDefaults (m : WordMemory) (d : Device) : Option (Except Error Unit × WordMemory) :=
  if d.slots.size ≠ m.ranges.size then some (.error .foreignMemory, m)
  else (writeSlots (d.slots.toList.zip m.ranges.toList) 0 m.data).map fun (outcome, data) =>
    (outcome, { m with data })

/-- The same memory, with its ranges in numbers. -/
def plain (m : WordMemory) : ParamMemory := ⟨m.data, m.ranges.map (·.map (·.plain))⟩

/-! ### Cutting memories

To place a parameter is to add its length to the end of those before, and adding words is adding
numbers and cutting. So the fold over parameters, and the one over slots, commute with cutting at
every step, whatever the device. That cutting loses nothing is a matter of the size of the whole: no
range ends behind it, and for a valid device it is far from the last word. -/

/-- A range, cut to words. -/
def cutRange (r : ByteRange) : WordRange := ⟨UInt64.ofNat r.start, UInt64.ofNat r.stop⟩

/-- What is placed so far, cut to words. -/
def cutParams (st : Nat × Array ByteRange) : UInt64 × Array WordRange :=
  (UInt64.ofNat st.1, st.2.map cutRange)

/-- What is placed so far of all slots, cut to words. -/
def cutSlots (st : Nat × Array (Array ByteRange)) : UInt64 × Array (Array WordRange) :=
  (UInt64.ofNat st.1, st.2.map (·.map cutRange))

theorem placeParam_cut (st : Nat × Array ByteRange) (p : Parameter) :
    placeParam (cutParams st) p = cutParams (ParamMemory.placeParam st p) := by
  obtain ⟨stop, ranges⟩ := st
  rw [ParamMemory.placeParam, cutParams, cutParams, placeParam, Array.map_push, cutRange,
    UInt64.ofNat_add]

theorem placeSlot_cut (st : Nat × Array (Array ByteRange)) (s : Slot) :
    placeSlot (cutSlots st) s = cutSlots (ParamMemory.placeSlot st s) := by
  obtain ⟨stop, slots⟩ := st
  have hopened : cutParams (stop, #[]) = (UInt64.ofNat stop, #[]) := by
    rw [cutParams, Array.map_empty]
  have hparams : s.params.foldl placeParam (UInt64.ofNat stop, #[]) =
      cutParams (s.params.foldl ParamMemory.placeParam (stop, #[])) := by
    rw [← hopened]
    exact Array.foldl_hom cutParams placeParam_cut
  rw [cutSlots, placeSlot, hparams, ParamMemory.placeSlot]
  dsimp only [cutParams, cutSlots]
  rw [Array.map_push]

/-- **A memory in words is the memory, cut.** -/
theorem place_eq_cut (d : Device) : place d = cutSlots (ParamMemory.place d) := by
  rw [place, ParamMemory.place, ← Array.foldl_hom cutSlots placeSlot_cut]
  rw [show cutSlots (0, #[]) = (0, #[]) by rw [cutSlots, Array.map_empty]; rfl]

/-- No range of a memory ends behind it. -/
theorem stop_le_of_mem {d : Device} {ranges : Array ByteRange}
    (hranges : ranges ∈ (ParamMemory.place d).2) {r : ByteRange} (hr : r ∈ ranges) :
    r.start ≤ r.stop ∧ r.stop ≤ d.paramSizes.sum := by
  obtain ⟨i, hi⟩ := Array.mem_iff_getElem?.1 hranges
  obtain ⟨j, hj⟩ := Array.mem_iff_getElem?.1 hr
  rw [ParamMemory.getElem?_snd_place] at hi
  obtain ⟨s, hs, rfl⟩ := Option.map_eq_some_iff.1 hi
  rw [ParamMemory.getElem?_foldl_placeParam] at hj
  obtain ⟨p, hp, heq⟩ := Option.map_eq_some_iff.1 hj
  have hat : d.ParamAt i j r := ⟨s, p, hs, hp, by rw [← heq], by rw [← heq]⟩
  rw [← ParamMemory.fst_place]
  exact ⟨by rw [← heq]; exact Nat.le_add_right _ _, hat.stop_le⟩

/-- **The ranges of a valid device are the same in words and in numbers.** -/
theorem plain_place {d : Device} (hd : d.Valid) :
    (place d).1.toNat = (ParamMemory.place d).1 ∧
      (place d).2.map (·.map (·.plain)) = (ParamMemory.place d).2 := by
  have hsize : d.paramSizes.sum < 2 ^ 64 := Nat.lt_of_le_of_lt hd.paramSize_le (by decide)
  rw [place_eq_cut]
  refine ⟨toNat_word (by rw [ParamMemory.fst_place]; exact hsize), ?_⟩
  dsimp only [cutSlots]
  rw [Array.map_map]
  calc (ParamMemory.place d).2.map ((·.map (·.plain)) ∘ (·.map cutRange))
      = (ParamMemory.place d).2.map id := Array.map_congr_left fun ranges hranges => by
        rw [Function.comp_apply, Array.map_map]
        calc ranges.map ((·.plain) ∘ cutRange)
            = ranges.map id := Array.map_congr_left fun r hr => by
              obtain ⟨hle, hstop⟩ := stop_le_of_mem hranges hr
              rw [Function.comp_apply, cutRange, WordRange.plain,
                toNat_word (n := r.start) (by omega), toNat_word (n := r.stop) (by omega)]
              rfl
          _ = ranges := Array.map_id _
    _ = (ParamMemory.place d).2 := Array.map_id _

/-- The parameters of a valid device are counted without wrapping around. -/
theorem wordParamCount_eq_zero_iff {d : Device} (hd : d.Valid) :
    d.wordParamCount = 0 ↔ d.paramCount = 0 := by
  have hcount : d.wordParamCount = UInt64.ofNat d.paramCount := by
    have hfold : d.slots.foldl (fun n s => n + UInt64.ofNat s.params.size) (UInt64.ofNat 0) =
        UInt64.ofNat (d.slots.foldl (fun n s => n + s.params.size) 0) :=
      Array.foldl_hom UInt64.ofNat fun n s => (UInt64.ofNat_add n s.params.size).symm
    exact hfold
  have hle : d.paramCount ≤ 65535 * 65535 := by
    rw [Device.paramCount_eq_sum]
    apply sum_le_mul
    · rw [List.length_map, Array.length_toList]
      exact hd.slots_le
    · intro n hn
      obtain ⟨s, hs, rfl⟩ := List.mem_map.1 hn
      exact (hd.slots s (Array.mem_toList_iff.1 hs)).params_le
  rw [hcount, ← UInt64.toNat_inj, toNat_word (by omega)]
  rfl

/-- **The memory of a valid device is the same in words and in numbers.** -/
theorem plain_allocate {d : Device} (hd : d.Valid) :
    (allocate d).map plain = ParamMemory.allocate d := by
  obtain ⟨hsize, hranges⟩ := plain_place hd
  unfold allocate ParamMemory.allocate
  by_cases hcount : d.paramCount = 0
  · rw [if_pos ((wordParamCount_eq_zero_iff hd).2 hcount), if_pos hcount]
    rfl
  · rw [if_neg (mt (wordParamCount_eq_zero_iff hd).1 hcount), if_neg hcount]
    dsimp only [Option.map_some, plain]
    rw [hsize, hranges]

/-! ### Access to memories

Defaults are written with a check before each copy, so they stop for no device at all
(`WordMemory.initDefaults_eq`): a default that does not fit is an error, in words as in numbers. The
induction carries that the position stays within the buffer, which is shorter than half of all
words; so the check before a copy does not wrap around.

All other access goes by a range that was looked up. For a memory that is placed for a valid device
it lies in the buffer (`WordMemory.range_spec`), and that is all the guards ask. -/

/-- **Writing defaults never stops,** and the position stays in the buffer. -/
theorem writeDefaults_eq (params : List Parameter) :
    ∀ (position : UInt64) (data : Bytes), data.size < 2 ^ 63 → position.toNat ≤ data.size →
      ∃ outcome next left,
        writeDefaults params position data = some (outcome, next, left) ∧
        ParamMemory.writeDefaults params ⟨position.toNat⟩ data = (outcome, ⟨next.toNat⟩, left) ∧
        next.toNat ≤ left.size ∧ left.size = data.size := by
  induction params with
  | nil => exact fun position data _ hle => ⟨_, _, _, rfl, rfl, hle, rfl⟩
  | cons p rest ih =>
    intro position data hsize hle
    unfold writeDefaults ParamMemory.writeDefaults
    by_cases hlength : p.default.size ≠ p.byteLength.toNat
    · rw [if_pos hlength, if_pos hlength]
      exact ⟨_, _, _, rfl, rfl, hle, rfl⟩
    · have hshort : p.default.size < 65536 := by
        rw [Decidable.not_not.1 hlength]
        exact p.byteLength.toNat_lt
      have hword : (UInt64.ofNat p.default.size).toNat = p.default.size :=
        toNat_word (by omega)
      have hstop : (position + UInt64.ofNat p.default.size).toNat =
          position.toNat + p.default.size := by
        rw [toNat_word_add (by omega), hword]
      have hroom : UInt64.ofNat data.size < position + UInt64.ofNat p.default.size ↔
          data.size < position.toNat + p.default.size := by
        rw [UInt64.lt_iff_toNat_lt, hstop, toNat_word (n := data.size) (by omega)]
      rw [if_neg hlength, if_neg hlength]
      dsimp only [ByteCursor.checkRoom]
      by_cases hover : data.size < position.toNat + p.default.size
      · rw [if_pos (hroom.2 hover), if_pos hover]
        exact ⟨_, _, _, rfl, rfl, hle, rfl⟩
      · have hreach : Guarded.reachAll data position
            (position + UInt64.ofNat p.default.size - position) = some () := by
          apply Guarded.reachAll_eq_some
          rw [UInt64.toNat_sub_of_le _ _ (UInt64.le_iff_toNat_le.2 (by omega)), hstop]
          omega
        obtain ⟨outcome, next, left, hrun, hplain, hin, hleft⟩ :=
          ih (position + UInt64.ofNat p.default.size)
            (ByteCursor.overwrite data position.toNat p.default)
            (by rw [ByteCursor.size_overwrite]; exact hsize)
            (by rw [ByteCursor.size_overwrite, hstop]; omega)
        rw [if_neg (mt hroom.1 hover), if_neg hover, hreach]
        rw [ByteCursor.size_overwrite] at hleft
        rw [hstop] at hplain
        exact ⟨outcome, next, left, hrun, hplain, hin, hleft⟩

/-- Writing the defaults of slots never stops. -/
theorem writeSlots_eq (slots : List (Slot × Array WordRange)) :
    ∀ (position : UInt64) (data : Bytes), data.size < 2 ^ 63 → position.toNat ≤ data.size →
      writeSlots slots position data =
        some (ParamMemory.writeSlots (slots.map fun x => (x.1, x.2.map (·.plain)))
          ⟨position.toNat⟩ data) := by
  induction slots with
  | nil => exact fun _ _ _ _ => rfl
  | cons first rest ih =>
    obtain ⟨s, ranges⟩ := first
    intro position data hsize hle
    rw [writeSlots, List.map_cons, ParamMemory.writeSlots, Array.size_map]
    by_cases hcount : s.params.size ≠ ranges.size
    · rw [if_pos hcount, if_pos hcount]
    · obtain ⟨outcome, next, left, hrun, hplain, hin, hleft⟩ :=
        writeDefaults_eq s.params.toList position data hsize hle
      rw [if_neg hcount, if_neg hcount, hrun, hplain]
      cases outcome with
      | error e => rfl
      | ok _ => exact ih next left (by rw [hleft]; exact hsize) hin

/-- **The defaults of any device are written to a memory as in numbers.** -/
theorem initDefaults_eq (m : WordMemory) (d : Device) (hsize : m.data.size < 2 ^ 63) :
    (m.initDefaults d).map (fun x => (x.1, x.2.plain)) = some (m.plain.initDefaults d) := by
  unfold initDefaults ParamMemory.initDefaults
  have hcount : m.plain.ranges.size = m.ranges.size := Array.size_map ..
  have hzip : d.slots.toList.zip m.plain.ranges.toList =
      (d.slots.toList.zip m.ranges.toList).map fun x => (x.1, x.2.map (·.plain)) := by
    rw [plain, Array.toList_map, List.zip_map_right]
    rfl
  rw [hcount]
  by_cases h : d.slots.size ≠ m.ranges.size
  · rw [if_pos h, if_pos h]
    rfl
  · rw [if_neg h, if_neg h, writeSlots_eq _ 0 m.data hsize (Nat.zero_le _), hzip]
    rfl

theorem plain_locate (m : WordMemory) (slot param : UInt16) :
    m.plain.locate slot param = (m.locate slot param).map (·.plain) := by
  unfold ParamMemory.locate locate plain
  rw [Array.getElem?_map]
  cases m.ranges[slot.toNat]? with
  | none => rfl
  | some ranges => exact Array.getElem?_map ..

/-- **A parameter that is found lies in the buffer,** and is as long as in numbers. -/
theorem range_spec {d : Device} {m : WordMemory} (h : m.plain.Of d) {slot param : UInt16}
    {r : WordRange} (hr : m.locate slot param = some r) :
    r.length.toNat = r.plain.length ∧ Guarded.reachAll m.data r.start r.length = some () := by
  have hplain : m.plain.locate slot param = some r.plain := by
    rw [plain_locate, hr, Option.map_some]
  have hat := (ParamMemory.locate_eq_some_iff h.1).1 hplain
  have hle : r.start.toNat ≤ r.stop.toNat := by
    obtain ⟨s, p, -, -, -, hstop⟩ := hat
    change r.stop.toNat = r.start.toNat + _ at hstop
    omega
  have hend : r.stop.toNat ≤ m.data.size := by
    rw [show m.data.size = _ from h.2]
    exact hat.stop_le
  have hlength : r.length.toNat = r.stop.toNat - r.start.toNat :=
    UInt64.toNat_sub_of_le _ _ (UInt64.le_iff_toNat_le.2 hle)
  exact ⟨hlength, Guarded.reachAll_eq_some (by omega)⟩

/-- All access to a memory in words: none of it stops, and each gives what it gives in numbers. -/
structure Exact (m : WordMemory) : Prop where
  initDefaults : ∀ d, (m.initDefaults d).map (fun x => (x.1, x.2.plain)) =
    some (m.plain.initDefaults d)
  locate : ∀ slot param, m.plain.locate slot param = (m.locate slot param).map (·.plain)
  length : ∀ slot param r, m.locate slot param = some r → r.length.toNat = r.plain.length
  slice : ∀ slot param r, m.locate slot param = some r → m.slice r = some (m.plain.slice r.plain)
  write : ∀ slot param r value, m.locate slot param = some r →
    (m.write r value).map plain = some (m.plain.write r.plain.start value)

/-- **A memory that is placed as the one of a valid device** is exact. -/
theorem exact_of {d : Device} {m : WordMemory} (hd : d.Valid) (h : m.plain.Of d) : m.Exact where
  initDefaults b := by
    apply m.initDefaults_eq b
    rw [show m.data.size = _ from h.2, ParamMemory.fst_place]
    exact Nat.lt_of_le_of_lt hd.paramSize_le (by decide)
  locate := m.plain_locate
  length _ _ _ hr := (range_spec h hr).1
  slice _ _ r hr := by
    rw [slice, (range_spec h hr).2]
    rfl
  write _ _ r value hr := by
    rw [write, (range_spec h hr).2]
    rfl

end WordMemory

/-! ## Parameter stores

A store takes the length of a value in bits and rounds it up to bytes, which wraps around for
lengths near the last word. The declared length of a parameter is never near it, so a length that is
accepted is the same in words and in numbers, and one that is not is refused in both
(`WordStore.plain_locate`). -/

/-- The values of the parameters and the writes not yet taken. -/
structure WordStore where
  memory : Option WordMemory := none
  pending : List (UInt16 × UInt16) := []
deriving DecidableEq, Repr

namespace WordStore

/-- The same store, with its ranges in numbers. -/
def plain (s : WordStore) : ParamStore := ⟨s.memory.map (·.plain), s.pending⟩

/-- The store of a device, with every parameter at its default. -/
def ofDevice (d : Device) : Option (Except Error WordStore) :=
  match WordMemory.allocate d with
  | none => some (.ok {})
  | some m => (m.initDefaults d).map fun
    | (.error e, _) => .error e
    | (.ok (), m) => .ok { memory := some m }

/-- The place of a parameter, if it exists and is `bits` bits long, rounded up to bytes. -/
def locate (s : WordStore) (d : Device) (slot param : UInt16) (bits : UInt64) :
    Except Error (WordMemory × WordRange) :=
  match d.param slot param with
  | .error e => .error e
  | .ok p =>
    if wordBytesFor bits ≠ UInt64.ofNat p.byteLength.toNat then .error .parameterLength
    else
      match s.memory with
      | none => .error .missingParameter
      | some m =>
        match m.locate slot param with
        | none => .error .missingParameter
        | some r => .ok (m, r)

/-- Stores a new value and announces it. -/
def write (s : WordStore) (d : Device) (slot param : UInt16) (bits : UInt64) (data : Bytes)
    (out : Outbox) : Option (Except Error (WordStore × Outbox)) :=
  match s.locate d slot param bits with
  | .error e => some (.error e)
  | .ok (m, r) =>
    if UInt64.ofNat data.size < r.length then some (.error .parameterData)
    else
      let value := data.extract 0 r.length.toNat
      (m.write r value).map fun m =>
        .ok ({ memory := some m, pending := ParamStore.markPending s.pending (slot, param) },
          (out.note (.parameterWritten slot param value)).post (.paramWrite slot param))

/-- Copies the value of a parameter to the front of a buffer; gives the number of bytes copied and
the buffer. -/
def read (s : WordStore) (d : Device) (slot param : UInt16) (bits : UInt64) (buffer : Bytes) :
    Option (Except Error (UInt64 × Bytes)) :=
  match s.locate d slot param bits with
  | .error e => some (.error e)
  | .ok (m, r) =>
    if UInt64.ofNat buffer.size < r.length then some (.error .parameterBuffer)
    else (m.slice r).map fun value => .ok (r.length, ByteCursor.overwrite buffer 0 value)

/-- The value of a parameter, if it has one. -/
def get (s : WordStore) (slot param : UInt16) : Option (Option Bytes) :=
  match s.memory with
  | none => some none
  | some m =>
    match m.locate slot param with
    | none => some none
    | some r => (m.slice r).map some

/-- All access to a store in words: none of it stops, and each gives what it gives in numbers, with
buffers of lengths that a word can tell. -/
structure Exact (d : Device) (s : WordStore) : Prop where
  write : ∀ slot param bits (data : Bytes) out, data.size < 2 ^ 64 →
    (s.write d slot param bits data out).map (·.map fun x => (x.1.plain, x.2)) =
      some (s.plain.write d slot param bits.toNat data out)
  read : ∀ slot param bits (buffer : Bytes), buffer.size < 2 ^ 64 →
    (s.read d slot param bits buffer).map (·.map fun x => (x.1.toNat, x.2)) =
      some (s.plain.read d slot param bits.toNat buffer)
  get : ∀ slot param, s.get slot param = some (s.plain.get slot param)

/-- **Parameters are found as in numbers.** -/
theorem plain_locate (s : WordStore) (d : Device) (slot param : UInt16) (bits : UInt64) :
    s.plain.locate d slot param bits.toNat =
      (s.locate d slot param bits).map fun x => (x.1.plain, x.2.plain) := by
  unfold locate ParamStore.locate
  cases d.param slot param with
  | error e => rfl
  | ok p =>
    have hlength : wordBytesFor bits = UInt64.ofNat p.byteLength.toNat ↔
        bytesFor bits.toNat = p.byteLength.toNat := by
      have hlt := p.byteLength.toNat_lt
      rw [← UInt64.toNat_inj, toNat_wordBytesFor, toNat_word (by omega)]
    dsimp only
    by_cases h : bytesFor bits.toNat = p.byteLength.toNat
    · rw [if_neg (not_not_intro h), if_neg (not_not_intro (hlength.2 h)), plain]
      cases s.memory with
      | none => rfl
      | some m =>
        dsimp only [Option.map_some]
        rw [m.plain_locate]
        cases m.locate slot param <;> rfl
    · rw [if_pos h, if_pos (mt hlength.1 h)]
      rfl

/-- What is found is in the memory of the store. -/
theorem of_locate_eq_ok {s : WordStore} {d : Device} {slot param : UInt16} {bits : UInt64}
    {m : WordMemory} {r : WordRange} (h : s.locate d slot param bits = .ok (m, r)) :
    s.memory = some m ∧ m.locate slot param = some r := by
  unfold locate at h
  split at h
  · cases h
  · split at h
    · cases h
    · split at h
      · cases h
      · next m' hm =>
        split at h
        · cases h
        · next r' hr =>
          cases h
          exact ⟨hm, hr⟩

section Placed
variable {d : Device} {s : WordStore} {slot param : UInt16} {bits : UInt64} {m : WordMemory}
  {r : WordRange}

/-- The memory of a store that is placed for a valid device is exact. -/
theorem exact_memory (hd : d.Valid) (h : s.plain.Of d) (hm : s.memory = some m) : m.Exact := by
  apply WordMemory.exact_of hd
  exact (ParamStore.of_iff.1 h).2 _ (by rw [plain, hm, Option.map_some])

/-- What is found is in a memory that is exact, and buffers are compared with its length as in
numbers. -/
theorem found_spec (hd : d.Valid) (h : s.plain.Of d)
    (hlocate : s.locate d slot param bits = .ok (m, r)) :
    m.Exact ∧ m.locate slot param = some r ∧
      ∀ n < 2 ^ 64, UInt64.ofNat n < r.length ↔ n < r.plain.length := by
  obtain ⟨hm, hr⟩ := of_locate_eq_ok hlocate
  have hexact := exact_memory hd h hm
  refine ⟨hexact, hr, fun n hn => ?_⟩
  rw [UInt64.lt_iff_toNat_lt, toNat_word hn, hexact.length _ _ _ hr]

/-- **Writing a parameter never stops.** -/
theorem write_eq (hd : d.Valid) (h : s.plain.Of d) {data : Bytes} (hdata : data.size < 2 ^ 64)
    (out : Outbox) : (s.write d slot param bits data out).map (·.map fun x => (x.1.plain, x.2)) =
      some (s.plain.write d slot param bits.toNat data out) := by
  unfold write ParamStore.write
  rw [plain_locate]
  cases hlocate : s.locate d slot param bits with
  | error e => rfl
  | ok found =>
    obtain ⟨hexact, hr, hshort⟩ := found_spec hd h hlocate
    dsimp only [Except.map]
    by_cases hlt : data.size < found.2.plain.length
    · rw [if_pos ((hshort _ hdata).2 hlt), if_pos hlt]
      rfl
    · rw [if_neg (mt (hshort _ hdata).1 hlt), if_neg hlt, hexact.length _ _ _ hr]
      obtain ⟨left, hleft, hplain⟩ := Option.map_eq_some_iff.1
        (hexact.write _ _ _ (data.extract 0 found.2.plain.length) hr)
      rw [hleft, ← hplain]
      rfl

/-- **Reading a parameter never stops.** -/
theorem read_eq (hd : d.Valid) (h : s.plain.Of d) {buffer : Bytes}
    (hbuffer : buffer.size < 2 ^ 64) :
    (s.read d slot param bits buffer).map (·.map fun x => (x.1.toNat, x.2)) =
      some (s.plain.read d slot param bits.toNat buffer) := by
  unfold read ParamStore.read
  rw [plain_locate]
  cases hlocate : s.locate d slot param bits with
  | error e => rfl
  | ok found =>
    obtain ⟨hexact, hr, hshort⟩ := found_spec hd h hlocate
    dsimp only [Except.map]
    by_cases hlt : buffer.size < found.2.plain.length
    · rw [if_pos ((hshort _ hbuffer).2 hlt), if_pos hlt]
      rfl
    · rw [if_neg (mt (hshort _ hbuffer).1 hlt), if_neg hlt, hexact.slice _ _ _ hr,
        ← hexact.length _ _ _ hr]
      rfl

/-- The value of a parameter is got without a stop. -/
theorem get_eq (hd : d.Valid) (h : s.plain.Of d) :
    s.get slot param = some (s.plain.get slot param) := by
  unfold get ParamStore.get plain
  cases hm : s.memory with
  | none => rfl
  | some m =>
    have hexact := exact_memory hd h hm
    dsimp only [Option.map_some]
    rw [hexact.locate]
    cases hr : m.locate slot param with
    | none => rfl
    | some r =>
      dsimp only [Option.map_some]
      rw [hexact.slice _ _ _ hr]
      rfl

/-- **A store that is placed for a valid device** is exact. -/
theorem exact_of (hd : d.Valid) (h : s.plain.Of d) : s.Exact d where
  write _ _ _ _ out hdata := write_eq hd h hdata out
  read _ _ _ _ hbuffer := read_eq hd h hbuffer
  get _ _ := get_eq hd h

end Placed

/-- **The store of a valid device is the same in words and in numbers.** -/
theorem plain_ofDevice {d : Device} (hd : d.Valid) :
    (ofDevice d).map (·.map plain) = some (ParamStore.ofDevice d) := by
  have hallocate := WordMemory.plain_allocate hd
  unfold ofDevice ParamStore.ofDevice
  rw [← hallocate]
  cases hm : WordMemory.allocate d with
  | none => rfl
  | some m =>
    rw [hm, Option.map_some] at hallocate
    have hexact := WordMemory.exact_of hd (ParamMemory.of_allocate hallocate.symm)
    obtain ⟨⟨outcome, left⟩, hrun, hplain⟩ := Option.map_eq_some_iff.1 (hexact.initDefaults d)
    dsimp only [Option.map_some]
    rw [hrun, ← hplain]
    cases outcome <;> rfl

end WordStore

end Fieldbus
