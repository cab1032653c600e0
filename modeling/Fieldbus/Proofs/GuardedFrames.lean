import Fieldbus.Proofs.FrameShape
import Fieldbus.Proofs.GuardedAccess
/-!
Frames and images with guards.

The operations on whole frames, with places in words and a guard before every touch, as in
`GuardedAccess`. That they never stop takes of the layout only what all layouts have, whatever
device they are for: its places lie within the frame, which is not too long (`WordView.Sound`).
Nothing is asked of the device in the view, of the image or of the frame: they may all come from
different models. `WordView.Exact` has the theorems about all operations together.

Each operation has a law that it equals `some` of the one in numbers, and the laws are stacked as
the operations are: fields are found as in numbers and are small, so access to one signal or element
is what `GuardedAccess` says of fields; a slot is a sequence of these, and a frame a sequence of
slots. What goes along is that the frame keeps its length, for the guards of everything that comes
after.

Loops over slots and signals have one thing besides, a counter. It is the only place where a sum can
be too large for its word, and whether that stops the program depends on how it was built
(`Overflow`). The laws about frames are those for sums that wrap around; when the others stop is
said by `stopsIf_forEach`, and for whole images in the module on arithmetic.
-/

namespace Fieldbus

/-! ## Signals and status bytes

The definitions follow those in numbers. A place is looked up first, then the length of the frame is
checked, then the frame is touched, with a guard; so by the time a guard is asked the frame is known
to be as long as the layout says. `WordView.Sound` is what that has to be good for: no field ends
behind the size of the layout, and positions of bits in a frame of that size are told by words. -/

/-- A device, the layout of a frame in words, and the order of the bits in that frame. -/
structure WordView where
  device : Device
  map : WordFrameMap
  order : ByteOrder

namespace WordView

/-- The same view in numbers; what neither computes places nor touches buffers is taken from it. -/
def plain (v : WordView) : FrameView := ⟨v.device, v.map.plain, v.order⟩

/-- Where the elements of a signal lie. -/
def field (v : WordView) (slot signal : UInt16) : Except Error WordField :=
  match v.plain.signal slot signal with
  | .error e => .error e
  | .ok s =>
    match v.map.signalOffset slot signal with
    | none => .error .foreignLayout
    | some at_ => .ok ⟨at_ * 8, UInt64.ofNat s.width, UInt64.ofNat s.elements⟩

/-- Reads all elements of a signal, without looking at the length of the frame. -/
def unpackField (v : WordView) (frame : Bytes) (slot signal : UInt16) :
    Option (Except Error (Array UInt64)) :=
  match v.field slot signal with
  | .error e => some (.error e)
  | .ok f => (f.unpack v.order frame).map (·.mapError .ofAccess)

/-- Writes all elements of a signal, without looking at the length of the frame. -/
def packField (v : WordView) (frame : Bytes) (slot signal : UInt16) (values : Array UInt64) :
    Option (Written Error) :=
  match v.field slot signal with
  | .error e => some (.error e, frame)
  | .ok f => (f.pack v.order frame values).map fun (outcome, frame) =>
    (outcome.mapError .ofAccess, frame)

/-- Reads all elements of a signal. -/
def unpack (v : WordView) (frame : Bytes) (slot signal : UInt16) :
    Option (Except Error (Array UInt64)) :=
  match v.plain.checkSize frame with
  | .error e => some (.error e)
  | .ok () => v.unpackField frame slot signal

/-- Writes all elements of a signal. -/
def pack (v : WordView) (frame : Bytes) (slot signal : UInt16) (values : Array UInt64) :
    Option (Written Error) :=
  match v.plain.checkSize frame with
  | .error e => some (.error e, frame)
  | .ok () => v.packField frame slot signal values

/-- Reads one element as a value of the signal's type. -/
def get (v : WordView) (frame : Bytes) (slot signal : UInt16) (element : UInt64) :
    Option (Except Error Value) :=
  match v.plain.checkSize frame with
  | .error e => some (.error e)
  | .ok () =>
    match v.plain.signal slot signal, v.field slot signal with
    | .error e, _ => some (.error e)
    | _, .error e => some (.error e)
    | .ok s, .ok f => (f.get v.order frame element).map fun
      | .error e => .error (.ofAccess e)
      | .ok word => .ok (.ofRaw s.type word)

/-- Writes one element. -/
def set (v : WordView) (frame : Bytes) (slot signal : UInt16) (element : UInt64) (value : Value) :
    Option (Except Error Bytes) :=
  match v.plain.checkSize frame with
  | .error e => some (.error e)
  | .ok () =>
    match v.field slot signal with
    | .error e => some (.error e)
    | .ok f => (f.set v.order frame element value.toRaw).map (·.mapError .ofAccess)

/-- Where the status byte of a slot is. -/
def statusPlace (v : WordView) (frame : Bytes) (slot : UInt16) : Except Error UInt64 :=
  match v.plain.checkSize frame with
  | .error e => .error e
  | .ok () =>
    match v.map.statusOffset slot with
    | none => .error .noSlot
    | some at_ => .ok at_

/-- The status byte of a slot. -/
def status (v : WordView) (frame : Bytes) (slot : UInt16) : Option (Except Error UInt8) :=
  match v.statusPlace frame slot with
  | .error e => some (.error e)
  | .ok at_ => (Guarded.reach frame at_).map fun _ => .ok (frame.getD at_.toNat 0)

/-- Replaces the status byte of a slot. -/
def setStatus (v : WordView) (frame : Bytes) (slot : UInt16) (status : UInt8) :
    Option (Except Error Bytes) :=
  match v.statusPlace frame slot with
  | .error e => some (.error e)
  | .ok at_ => (Guarded.reach frame at_).map fun _ => .ok (frame.setIfInBounds at_.toNat status)

/-! ### Laws of access

Each is an equation with `some` on its right side, so it says at once that nothing stops and what
comes of it. -/

/-- What every layout has: places within the frame, and a frame that is not too long. -/
structure Sound (v : WordView) : Prop where
  inBounds : v.map.plain.InBounds
  size_le : v.map.size.toNat ≤ 2 ^ 51

variable {v : WordView} {frame : Bytes} {slot signal : UInt16}

theorem size_of_checkSize (h : v.plain.checkSize frame = .ok ()) :
    frame.size = v.map.size.toNat := by
  unfold FrameView.checkSize at h
  split at h
  · cases h
  · next hsize => exact Decidable.not_not.1 hsize

/-- A frame of the length of the layout has positions that are told by words. -/
theorem Sound.size_lt (hv : v.Sound) (hframe : frame.size = v.map.size.toNat) :
    frame.size * 8 < 2 ^ 64 := by
  have hle := hv.size_le
  omega

/-- **Fields are found as in numbers,** and are small. -/
theorem Sound.field_eq (hv : v.Sound) (slot signal : UInt16) :
    v.plain.field slot signal = (v.field slot signal).map WordField.plain ∧
      ∀ f, v.field slot signal = .ok f → f.Small := by
  unfold field FrameView.field
  cases v.plain.signal slot signal with
  | error e => exact ⟨rfl, fun f h => nomatch h⟩
  | ok s =>
    have hplain := v.map.signalOffset_plain slot signal
    dsimp only
    rw [show v.plain.map = v.map.plain from rfl, hplain]
    cases hat : v.map.signalOffset slot signal with
    | none => exact ⟨rfl, fun f h => nomatch h⟩
    | some at_ =>
      rw [hat] at hplain
      have hlt : at_.toNat < v.map.size.toNat := hv.inBounds.signal_lt hplain
      have hsize := hv.size_le
      have hwidth := s.type.width_bounds.2
      have helements := s.elements_le
      have hbit : (at_ * 8).toNat = at_.toNat * 8 :=
        toNat_word_mul (b := 8) (by rw [show (8 : UInt64).toNat = 8 from rfl]; omega)
      have hbits : (UInt64.ofNat s.width).toNat = s.width :=
        toNat_word (Nat.lt_of_le_of_lt hwidth (by decide))
      have hcount : (UInt64.ofNat s.elements).toNat = s.elements :=
        toNat_word (Nat.lt_of_le_of_lt helements (by decide))
      dsimp only [Except.map, Option.map_some, WordField.plain]
      refine ⟨by rw [hbit, hbits, hcount], fun f h => ?_⟩
      cases h
      exact ⟨by rw [hbit]; omega, by rw [hbits]; exact hwidth, by rw [hcount]; exact helements⟩

theorem Sound.unpackField_eq (hv : v.Sound) (hframe : frame.size = v.map.size.toNat) :
    v.unpackField frame slot signal = some (v.plain.unpackField frame slot signal) := by
  obtain ⟨hfield, hsmall⟩ := hv.field_eq slot signal
  unfold unpackField FrameView.unpackField
  rw [hfield]
  cases hf : v.field slot signal with
  | error e => rfl
  | ok f =>
    dsimp only [Except.map]
    rw [(hsmall f hf).unpack_eq v.order (hv.size_lt hframe)]
    rfl

theorem Sound.packField_eq (hv : v.Sound) (hframe : frame.size = v.map.size.toNat)
    (values : Array UInt64) :
    v.packField frame slot signal values = some (v.plain.packField frame slot signal values) := by
  obtain ⟨hfield, hsmall⟩ := hv.field_eq slot signal
  unfold packField FrameView.packField
  rw [hfield]
  cases hf : v.field slot signal with
  | error e => rfl
  | ok f =>
    dsimp only [Except.map]
    rw [(hsmall f hf).pack_eq v.order (hv.size_lt hframe)]
    rfl

/-- **Reading a signal never stops,** whatever the frame. -/
theorem Sound.unpack_eq (hv : v.Sound) :
    v.unpack frame slot signal = some (v.plain.unpack frame slot signal) := by
  unfold unpack FrameView.unpack
  cases hcheck : v.plain.checkSize frame with
  | error e => rfl
  | ok _ => exact hv.unpackField_eq (size_of_checkSize hcheck)

/-- **Writing a signal never stops.** -/
theorem Sound.pack_eq (hv : v.Sound) (values : Array UInt64) :
    v.pack frame slot signal values = some (v.plain.pack frame slot signal values) := by
  unfold pack FrameView.pack
  cases hcheck : v.plain.checkSize frame with
  | error e => rfl
  | ok _ => exact hv.packField_eq (size_of_checkSize hcheck) values

/-- **Reading an element never stops.** -/
theorem Sound.get_eq (hv : v.Sound) (element : UInt64) :
    v.get frame slot signal element = some (v.plain.get frame slot signal element.toNat) := by
  obtain ⟨hfield, hsmall⟩ := hv.field_eq slot signal
  unfold get FrameView.get
  cases hcheck : v.plain.checkSize frame with
  | error e => rfl
  | ok _ =>
    rw [hfield]
    cases v.plain.signal slot signal with
    | error e => rfl
    | ok s =>
      cases hf : v.field slot signal with
      | error e => rfl
      | ok f =>
        dsimp only [Except.map]
        rw [(hsmall f hf).get_eq v.order (hv.size_lt (size_of_checkSize hcheck))]
        rw [show v.plain.order = v.order from rfl]
        cases f.plain.get v.order frame element.toNat <;> rfl

/-- **Writing an element never stops.** -/
theorem Sound.set_eq (hv : v.Sound) (element : UInt64) (value : Value) :
    v.set frame slot signal element value =
      some (v.plain.set frame slot signal element.toNat value) := by
  obtain ⟨hfield, hsmall⟩ := hv.field_eq slot signal
  unfold set FrameView.set
  cases hcheck : v.plain.checkSize frame with
  | error e => rfl
  | ok _ =>
    rw [hfield]
    cases hf : v.field slot signal with
    | error e => rfl
    | ok f =>
      dsimp only [Except.map]
      rw [(hsmall f hf).set_eq v.order (hv.size_lt (size_of_checkSize hcheck))]
      rfl

/-- **Status bytes are found as in numbers,** and in the frame. -/
theorem Sound.statusPlace_eq (hv : v.Sound) (frame : Bytes) (slot : UInt16) :
    v.plain.statusPlace frame slot = (v.statusPlace frame slot).map UInt64.toNat ∧
      ∀ at_, v.statusPlace frame slot = .ok at_ → Guarded.reach frame at_ = some () := by
  unfold statusPlace FrameView.statusPlace
  cases hcheck : v.plain.checkSize frame with
  | error e => exact ⟨rfl, fun _ h => nomatch h⟩
  | ok _ =>
    have hplain := v.map.statusOffset_plain slot
    dsimp only
    rw [show v.plain.map = v.map.plain from rfl, hplain]
    cases hat : v.map.statusOffset slot with
    | none => exact ⟨rfl, fun _ h => nomatch h⟩
    | some at_ =>
      refine ⟨rfl, fun other h => ?_⟩
      cases h
      rw [hat] at hplain
      apply Guarded.reach_eq_some
      rw [size_of_checkSize hcheck]
      exact hv.inBounds.status_lt hplain

/-- What is done at a status byte never stops. -/
theorem Sound.at_status_eq {α : Type} (hv : v.Sound) (act : Nat → α) :
    (match v.statusPlace frame slot with
      | .error e => some (.error e)
      | .ok at_ => (Guarded.reach frame at_).map fun _ => .ok (act at_.toNat)) =
      some (match v.plain.statusPlace frame slot with
        | .error e => Except.error e
        | .ok offset => .ok (act offset)) := by
  obtain ⟨hplace, hreach⟩ := hv.statusPlace_eq frame slot
  rw [hplace]
  cases hat : v.statusPlace frame slot with
  | error e => rfl
  | ok at_ =>
    dsimp only [Except.map]
    rw [hreach at_ hat]
    rfl

/-- **Reading a status byte never stops.** -/
theorem Sound.status_eq (hv : v.Sound) :
    v.status frame slot = some (v.plain.status frame slot) :=
  hv.at_status_eq fun offset => frame.getD offset 0

/-- **Writing a status byte never stops.** -/
theorem Sound.setStatus_eq (hv : v.Sound) (status : UInt8) :
    v.setStatus frame slot status = some (v.plain.setStatus frame slot status) :=
  hv.at_status_eq fun offset => frame.setIfInBounds offset status

end WordView

/-! ## Counters

An image and a device are gone through with a counter beside their slots, and beside the signals of
a slot that is written. The counter is a word of sixteen bits, and an index is taken from it before
it turns out whether there is an item for it. So it is asked for one index more than there are items,
and where they are as many as the word can count, the sum behind that index does not fit it. Whether
that stops the program or wraps around is a matter of how it was built. -/

/-- What becomes of a sum that is too large for its word. -/
inductive Overflow where
  /-- Its upper bits are cut off. -/
  | wraps
  /-- It stops the program. -/
  | stops
deriving DecidableEq, Repr

namespace Overflow
variable {α β : Type}

/-- Takes an index from a counter, which goes on to the next one. -/
def next : Overflow → UInt16 → Option UInt16
  | .wraps, index => some (index + 1)
  | .stops, index => if index = 65535 then none else some (index + 1)

/-- Goes through a counter and a list side by side, until something stops or is an error. -/
def forEach (o : Overflow) (act : UInt16 → α → β → Option (Except Error Unit × β)) :
    (index : UInt16) → List α → β → Option (Except Error Unit × β)
  | index, [], b => (o.next index).map fun _ => (.ok (), b)
  | index, item :: rest, b =>
    match o.next index with
    | none => none
    | some next =>
      match act index item b with
      | none => none
      | some (.error e, b) => some (.error e, b)
      | some (.ok (), b) => forEach o act next rest b

theorem wraps_forEach_cons (act : UInt16 → α → β → Option (Except Error Unit × β)) (index : UInt16)
    (item : α) (rest : List α) (b : β) :
    wraps.forEach act index (item :: rest) b =
      match act index item b with
      | none => none
      | some (.error e, b) => some (.error e, b)
      | some (.ok (), b) => wraps.forEach act (index + 1) rest b := rfl

/-- Where a sum that overflows stops the program, it stops under a condition, and otherwise gives
what it gives where sums wrap around. -/
structure StopsIf (condition : Prop) (stopping wrapping : Option α) : Prop where
  stops : condition → stopping = none
  goesOn : ¬ condition → stopping = wrapping

theorem StopsIf.congr {p q : Prop} {stopping wrapping : Option α} (hpq : p ↔ q)
    (h : StopsIf p stopping wrapping) : StopsIf q stopping wrapping :=
  ⟨fun hq => h.stops (hpq.2 hq), fun hq => h.goesOn fun hp => hq (hpq.1 hp)⟩

theorem StopsIf.map {p : Prop} {stopping wrapping : Option α} (h : StopsIf p stopping wrapping)
    (f : α → β) : StopsIf p (stopping.map f) (wrapping.map f) :=
  ⟨fun hp => by rw [h.stops hp, Option.map_none], fun hp => by rw [h.goesOn hp]⟩

/-- **A counter overflows** exactly where there are as many items as it can count, or where it does
so with one of the items. -/
theorem stopsIf_forEach {act act' : UInt16 → α → β → Option (Except Error Unit × β)}
    {P : α → Prop} {items : List α} {index : UInt16} {b b' : β}
    (hitems : index.toNat + items.length ≤ 65535)
    (hok : wraps.forEach act index items b = some (.ok (), b'))
    (hact : ∀ item ∈ items, ∀ i b b', act i item b = some (.ok (), b') →
      StopsIf (P item) (act' i item b) (act i item b)) :
    StopsIf (index.toNat + items.length = 65535 ∨ ∃ item ∈ items, P item)
      (stops.forEach act' index items b) (wraps.forEach act index items b) := by
  induction items generalizing index b with
  | nil =>
    -- no item is left, but an index is taken before that turns out
    have hlast : index = 65535 ↔ index.toNat + 0 = 65535 := UInt16.toNat_inj.symm
    refine StopsIf.congr (p := index = 65535) (by simpa using hlast) ⟨fun h => ?_, fun h => ?_⟩
    · simp only [forEach, next, if_pos h, Option.map_none]
    · simp only [forEach, next, if_neg h, Option.map_some]
  | cons item rest ih =>
    rw [List.length_cons] at hitems ⊢
    -- with an item to come, the counter is not at its end yet
    have hroom : index ≠ 65535 := by
      rintro rfl
      exact absurd hitems (by simp)
    have hnext : (index + 1).toNat = index.toNat + 1 := by
      rw [UInt16.toNat_add]
      exact Nat.mod_eq_of_lt (by simp; omega)
    have hstops : stops.next index = some (index + 1) := if_neg hroom
    have hwraps : wraps.next index = some (index + 1) := rfl
    rw [forEach, hwraps] at hok
    rw [forEach, forEach, hstops, hwraps]
    dsimp only at hok ⊢
    rcases hanswer : act index item b with _ | ⟨_ | _, left⟩
    · rw [hanswer] at hok
      cases hok
    · rw [hanswer] at hok
      cases hok
    · rw [hanswer] at hok
      have hitem := hact item List.mem_cons_self index b left hanswer
      by_cases hP : P item
      · rw [hitem.stops hP]
        exact ⟨fun _ => rfl, fun hnot => absurd (Or.inr ⟨item, List.mem_cons_self, hP⟩) hnot⟩
      · rw [hitem.goesOn hP, hanswer]
        refine (ih (by omega) hok fun x hx => hact x (List.mem_cons_of_mem _ hx)).congr ?_
        have hrest : (∃ x ∈ item :: rest, P x) ↔ ∃ x ∈ rest, P x := by
          simp [hP]
        rw [hnext, hrest, Nat.add_right_comm, Nat.add_assoc]

/-- With items that overflow nothing themselves, only the counter can. -/
theorem stopsIf_forEach_self {act : UInt16 → α → β → Option (Except Error Unit × β)}
    {items : List α} {b b' : β} (hitems : items.length ≤ 65535)
    (hok : wraps.forEach act 0 items b = some (.ok (), b')) :
    StopsIf (items.length = 65535) (stops.forEach act 0 items b) (wraps.forEach act 0 items b) := by
  have hsame : ∀ item ∈ items, ∀ i b b', act i item b = some (.ok (), b') →
      StopsIf False (act i item b) (act i item b) :=
    fun _ _ _ _ _ _ => ⟨False.elim, fun _ => rfl⟩
  exact (stopsIf_forEach (P := fun _ => False) (by simpa using hitems) hok hsame).congr (by simp)

end Overflow

/-! ## Images

An image is written slot by slot and read slot by slot, with a counter beside it. What reading
leaves on an error is less plain than what writing does. An image that could not be read to its end
stays as it was, while in the loop over slots those that were read so far are there already; so
reading in words is held against reading in numbers with what is left on an error
(`WordView.ReadsAs`). -/

namespace WordView

/-- Writes the signals of a slot, from index `signal` on. -/
def packSignals (v : WordView) (o : Overflow) (slot : UInt16) :
    (signal : UInt16) → List (Array UInt64) → Bytes → Option (Written Error) :=
  o.forEach fun signal values frame => v.packField frame slot signal values

/-- Writes a slot: its signals, then its status byte. -/
def packSlot (v : WordView) (o : Overflow) (slot : UInt16) (s : SlotImage) (frame : Bytes) :
    Option (Written Error) :=
  match v.packSignals o slot 0 s.signals.toList frame with
  | none => none
  | some (.error e, frame) => some (.error e, frame)
  | some (.ok (), frame) => (v.setStatus frame slot s.status).map fun
    | .error e => (.error e, frame)
    | .ok frame => (.ok (), frame)

/-- Writes slots from index `slot` on. -/
def packSlots (v : WordView) (o : Overflow) :
    (slot : UInt16) → List SlotImage → Bytes → Option (Written Error) :=
  o.forEach (v.packSlot o)

/-- Writes the side of an image that the layout is for into a frame. -/
def packImageBy (v : WordView) (o : Overflow) (p : ProcessImage) (frame : Bytes) :
    Option (Written Error) :=
  match v.plain.direction with
  | .error e => some (.error e, frame)
  | .ok dir =>
    match v.plain.checkSize frame with
    | .error e => some (.error e, frame)
    | .ok () => v.packSlots o 0 (p.slots dir).toList frame

/-- Writes an image where sums wrap around. -/
def packImage (v : WordView) (p : ProcessImage) (frame : Bytes) : Option (Written Error) :=
  v.packImageBy .wraps p frame

/-- Reads `count` signals of a slot, from index `signal` on. -/
def unpackSignals (v : WordView) (frame : Bytes) (slot : UInt16) :
    (signal : UInt64) → (count : Nat) → Array (Array UInt64) →
      Option (Except Error (Array (Array UInt64)))
  | _, 0, read => some (.ok read)
  | signal, count + 1, read =>
    match v.unpackField frame slot signal.toUInt16 with
    | none => none
    | some (.error e) => some (.error e)
    | some (.ok values) => unpackSignals v frame slot (signal + 1) count (read.push values)

/-- Reads a slot in the shape that the device gives it, to the end of those that were read. Its
signals are counted by a range of longer words, which takes no index behind the last. -/
def unpackSlot (v : WordView) (dir : Direction) (frame : Bytes) (slot : UInt16) (s : Slot)
    (read : Array SlotImage) : Option (Except Error Unit × Array SlotImage) :=
  match v.unpackSignals frame slot 0 (s.signals dir).size #[] with
  | none => none
  | some (.error e) => some (.error e, read)
  | some (.ok signals) => (v.status frame slot).map fun
    | .error e => (.error e, read)
    | .ok status => (.ok (), read.push ⟨signals, status⟩)

/-- Reads slots from index `slot` on. -/
def unpackSlots (v : WordView) (o : Overflow) (dir : Direction) (frame : Bytes) :
    (slot : UInt16) → List Slot → Array SlotImage →
      Option (Except Error Unit × Array SlotImage) :=
  o.forEach (v.unpackSlot dir frame)

/-- Reads a frame into the side of an image that the layout is for; the image is as it is left. -/
def unpackImageBy (v : WordView) (o : Overflow) (p : ProcessImage) (frame : Bytes) :
    Option (Except Error Unit × ProcessImage) :=
  match v.plain.direction with
  | .error e => some (.error e, p)
  | .ok dir =>
    match v.plain.checkSize frame with
    | .error e => some (.error e, p)
    | .ok () => (v.unpackSlots o dir frame 0 v.device.slots.toList #[]).map fun
      | (.error e, _) => (.error e, p)
      | (.ok (), slots) => (.ok (), p.withSlots dir slots)

/-- Reads a frame where sums wrap around. -/
def unpackImage (v : WordView) (p : ProcessImage) (frame : Bytes) :
    Option (Except Error Unit × ProcessImage) :=
  v.unpackImageBy .wraps p frame

variable {v : WordView} {frame : Bytes}

/-! ### Laws of images

By the loops, for sums that wrap around. On the one side the index is a number that is cut, on the
other a word that wraps around, and that is the same however many items there are. -/

theorem Sound.packSignals_eq (hv : v.Sound) (slot : UInt16) (rest : List (Array UInt64)) :
    ∀ (signal : Nat) (frame : Bytes), frame.size = v.map.size.toNat →
      v.packSignals .wraps slot (UInt16.ofNat signal) rest frame =
        some (ProcessImage.packSignals v.plain slot signal rest frame) := by
  induction rest with
  | nil => exact fun _ _ _ => rfl
  | cons values rest ih =>
    intro signal frame hframe
    have hsize := v.plain.size_packField frame slot (UInt16.ofNat signal) values
    rw [packSignals, Overflow.wraps_forEach_cons, hv.packField_eq hframe, ProcessImage.packSignals]
    rcases hfield : v.plain.packField frame slot (UInt16.ofNat signal) values with ⟨_ | _, left⟩
    · rfl
    · rw [hfield] at hsize
      dsimp only
      rw [← ih (signal + 1) left (hsize.trans hframe), UInt16.ofNat_add]
      rfl

theorem Sound.packSlots_eq (hv : v.Sound) (rest : List SlotImage) :
    ∀ (slot : Nat) (frame : Bytes), frame.size = v.map.size.toNat →
      v.packSlots .wraps (UInt16.ofNat slot) rest frame =
        some (ProcessImage.packSlots v.plain slot rest frame) := by
  induction rest with
  | nil => exact fun _ _ _ => rfl
  | cons s rest ih =>
    intro slot frame hframe
    have hsize := ProcessImage.size_packSignals (v := v.plain) (UInt16.ofNat slot)
      s.signals.toList 0 frame
    rw [packSlots, Overflow.wraps_forEach_cons, packSlot, show (0 : UInt16) = UInt16.ofNat 0 from rfl,
      hv.packSignals_eq _ _ 0 _ hframe, ProcessImage.packSlots]
    rcases hsignals : ProcessImage.packSignals v.plain (UInt16.ofNat slot) 0 s.signals.toList frame
      with ⟨_ | _, left⟩
    · rfl
    · rw [hsignals] at hsize
      dsimp only
      rw [hv.setStatus_eq, FrameView.setStatus]
      cases hplace : v.plain.statusPlace left (UInt16.ofNat slot) with
      | error e => rfl
      | ok at_ =>
        dsimp only [Option.map_some]
        rw [← ih (slot + 1) _ (by rw [Array.size_setIfInBounds, hsize, hframe]), UInt16.ofNat_add]
        rfl

/-- **Writing an image never stops.** -/
theorem Sound.packImage_eq (hv : v.Sound) (p : ProcessImage) (frame : Bytes) :
    v.packImage p frame = some (p.pack v.plain frame) := by
  unfold packImage packImageBy ProcessImage.pack
  cases v.plain.direction with
  | error e => rfl
  | ok dir =>
    dsimp only
    cases hcheck : v.plain.checkSize frame with
    | error e => rfl
    | ok _ => exact hv.packSlots_eq _ 0 frame (size_of_checkSize hcheck)

theorem Sound.unpackSignals_eq (hv : v.Sound) (hframe : frame.size = v.map.size.toNat)
    (slot : UInt16) (count : Nat) : ∀ (signal : Nat) (read : Array (Array UInt64)),
      v.unpackSignals frame slot (UInt64.ofNat signal) count read =
        some (ProcessImage.unpackSignals v.plain frame slot signal count read) := by
  induction count with
  | zero => exact fun _ _ => rfl
  | succ count ih =>
    intro signal read
    rw [unpackSignals, hv.unpackField_eq hframe, ProcessImage.unpackSignals,
      UInt64.toUInt16_ofNat']
    cases v.plain.unpackField frame slot (UInt16.ofNat signal) with
    | error e => rfl
    | ok values =>
      dsimp only
      rw [← ih (signal + 1), UInt64.ofNat_add]
      rfl

/-- What reading slots in words has to do with reading them in numbers: on an error, what was read
until then is left. -/
def ReadsAs (answer : Option (Except Error Unit × Array SlotImage))
    (plain : Except Error (Array SlotImage)) : Prop :=
  match plain with
  | .error e => ∃ left, answer = some (.error e, left)
  | .ok read => answer = some (.ok (), read)

theorem Sound.unpackSlots_eq (hv : v.Sound) (hframe : frame.size = v.map.size.toNat)
    (dir : Direction) (rest : List Slot) : ∀ (slot : Nat) (read : Array SlotImage),
      ReadsAs (v.unpackSlots .wraps dir frame (UInt16.ofNat slot) rest read)
        (ProcessImage.unpackSlots v.plain dir frame slot rest read) := by
  induction rest with
  | nil => exact fun _ _ => rfl
  | cons s rest ih =>
    intro slot read
    rw [unpackSlots, Overflow.wraps_forEach_cons, unpackSlot,
      show (0 : UInt64) = UInt64.ofNat 0 from rfl, hv.unpackSignals_eq hframe,
      ProcessImage.unpackSlots]
    cases ProcessImage.unpackSignals v.plain frame (UInt16.ofNat slot) 0 (s.signals dir).size #[]
      with
    | error e => exact ⟨read, rfl⟩
    | ok signals =>
      dsimp only
      rw [hv.status_eq]
      cases v.plain.status frame (UInt16.ofNat slot) with
      | error e => exact ⟨read, rfl⟩
      | ok status =>
        have hrest := ih (slot + 1) (read.push ⟨signals, status⟩)
        rw [UInt16.ofNat_add] at hrest
        exact hrest

/-- **Reading an image never stops,** and an image that is not read stays as it is. -/
theorem Sound.unpackImage_eq (hv : v.Sound) (p : ProcessImage) (frame : Bytes) :
    v.unpackImage p frame = some (match p.unpack v.plain frame with
      | .error e => (.error e, p)
      | .ok q => (.ok (), q)) := by
  unfold unpackImage unpackImageBy ProcessImage.unpack
  cases v.plain.direction with
  | error e => rfl
  | ok dir =>
    dsimp only
    cases hcheck : v.plain.checkSize frame with
    | error e => rfl
    | ok _ =>
      have hread := hv.unpackSlots_eq (size_of_checkSize hcheck) dir v.device.slots.toList 0 #[]
      dsimp only
      rw [show v.plain.device = v.device from rfl, show (0 : UInt16) = UInt16.ofNat 0 from rfl]
      cases hplain : ProcessImage.unpackSlots v.plain dir frame 0 v.device.slots.toList #[] with
      | error e =>
        rw [hplain] at hread
        obtain ⟨left, hanswer⟩ := hread
        rw [hanswer]
        rfl
      | ok slots =>
        rw [hplain] at hread
        rw [show v.unpackSlots .wraps dir frame (UInt16.ofNat 0) v.device.slots.toList #[] = _ from hread]
        rfl

/-- All access to frames and images in words: none of it stops, and each gives what it gives in
numbers. -/
structure Exact (v : WordView) : Prop where
  field : ∀ slot signal, (v.field slot signal).map WordField.plain = v.plain.field slot signal
  unpack : ∀ frame slot signal,
    v.unpack frame slot signal = some (v.plain.unpack frame slot signal)
  pack : ∀ frame slot signal values,
    v.pack frame slot signal values = some (v.plain.pack frame slot signal values)
  get : ∀ frame slot signal element,
    v.get frame slot signal element = some (v.plain.get frame slot signal element.toNat)
  set : ∀ frame slot signal element value, v.set frame slot signal element value =
    some (v.plain.set frame slot signal element.toNat value)
  status : ∀ frame slot, v.status frame slot = some (v.plain.status frame slot)
  setStatus : ∀ frame slot status,
    v.setStatus frame slot status = some (v.plain.setStatus frame slot status)
  packImage : ∀ p frame, v.packImage p frame = some (p.pack v.plain frame)
  unpackImage : ∀ p frame, v.unpackImage p frame = some (match p.unpack v.plain frame with
    | .error e => (.error e, p)
    | .ok q => (.ok (), q))

/-- **Sound layouts are enough,** whatever the device in the view, the image and the frame. -/
theorem Sound.exact (hv : v.Sound) : v.Exact where
  field slot signal := (hv.field_eq slot signal).1.symm
  unpack _ _ _ := hv.unpack_eq
  pack _ _ _ values := hv.pack_eq values
  get _ _ _ element := hv.get_eq element
  set _ _ _ element value := hv.set_eq element value
  status _ _ := hv.status_eq
  setStatus _ _ status := hv.setStatus_eq status
  packImage := hv.packImage_eq
  unpackImage := hv.unpackImage_eq

/-- **The layouts of valid devices are sound,** for the frames of whatever device. -/
theorem sound_ofDevice {d : Device} (hd : d.Valid) (dir : Direction) (device : Device)
    (order : ByteOrder) : Sound ⟨device, WordFrameMap.ofDevice d dir, order⟩ := by
  have hplain := WordFrameMap.plain_ofDevice hd dir
  refine ⟨?_, ?_⟩
  · dsimp only
    rw [hplain]
    exact FrameMap.inBounds_ofDevice d dir
  · show (WordFrameMap.ofDevice d dir).plain.size ≤ 2 ^ 51
    rw [hplain, FrameMap.size_ofDevice]
    exact Nat.le_trans (hd.frameSize_le dir) (by decide)

end WordView

end Fieldbus
