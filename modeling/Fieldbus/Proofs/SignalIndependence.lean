import Fieldbus.Proofs.ArrayFields
import Fieldbus.Proofs.RoundTrip
/-!
Signals of a frame do not disturb each other.

There are three ways to write to a frame: a whole signal, one of its elements, or the status byte of
a slot (`FrameWrite`). Each of them is accepted or refused for its indices and the length of the
frame only, and a write that is refused leaves the frame (`FrameWrite.run_eq_error`).

A write that is accepted is told by two things (`FrameWrite.run_spec`): the positions that it covers,
and what they hold afterwards, which is the same whatever the frame held before. All else follows
from where the places of a device lie. A position is covered by writes to one signal or to one
status byte only, so what is read of all others is what it was; and two writes to different places
may come in either order (`FrameWrite.run_comm`), since each leaves the positions of the other.

So the whole of it rests on two facts about bits. Positions of different places are different, which
is said of the layout once (`FramePlace.Has.unique`), and what a write puts at the positions it
covers does not depend on what was there (`FrameWrite.Holds.bitAt_eq`). That two writes commute is
then seen bit by bit: every position is covered by the one, by the other or by neither, and has the
same bit in either order.

An element is a place of its own among the elements of its signal, but not for reading, where a
signal is read as a whole. So writes to two elements of one signal are apart and commute, while what
is read of the signal depends on both.
-/

namespace Fieldbus

/-! ## Reading what has not changed

What is read of a signal depends on the bits of its field only, in frames of the right length; and a
field reads as one list of values, so two frames with the same bits there read alike. -/

/-- What a field reads as is read from every buffer that has the same bits there. -/
theorem BitField.Reads.congr {f : BitField} {order : ByteOrder} {a b : Bytes}
    {values : Array UInt64} (h : f.Reads order a values)
    (heq : ∀ p, f.Covers p → bitAt order b p = bitAt order a p) : f.Reads order b values := by
  refine ⟨h.size, fun k hk => ⟨(h.elements k hk).1, fun i hi => ?_⟩⟩
  rw [(h.elements k hk).2 i hi, heq _ (f.covers_start_add (by rw [← h.size]; exact hk) hi)]

/-- **A field reads as one list of values only.** -/
theorem BitField.Reads.unique {f : BitField} {order : ByteOrder} {data : Bytes}
    {values values' : Array UInt64} (h : f.Reads order data values)
    (h' : f.Reads order data values') : values = values' := by
  apply Array.ext
  · rw [h.size, h'.size]
  · intro k hk hk'
    exact (h.elements k hk).unique (h'.elements k hk')

section Reading
variable {d : Device} {dir : Direction} {order : ByteOrder} {frame : Bytes} {slot signal : UInt16}
  {f : BitField}

/-- A signal is read from a frame of the right length as what its field reads as. -/
theorem unpack_ownView_eq_ok (hframe : frame.size = d.frameSize dir)
    (hf : d.SignalAt dir slot.toNat signal.toNat f) {values : Array UInt64}
    (h : f.Reads order frame values) :
    (d.ownView dir order).unpack frame slot signal = .ok values := by
  obtain ⟨read, hread, hreads⟩ := BitField.unpack_spec order (hf.fits hframe)
  rw [FrameView.unpack, Device.checkSize_ownView.2 hframe]
  dsimp only
  rw [FrameView.unpackField, Device.field_ownView.2 hf]
  dsimp only
  rw [show (d.ownView dir order).order = order from rfl, hread, hreads.unique h]
  rfl

/-- A signal without a field is read from no frame. -/
theorem unpack_ownView_eq_error (order : ByteOrder) (hframe : frame.size = d.frameSize dir)
    (h : ∀ f, ¬ d.SignalAt dir slot.toNat signal.toNat f) :
    ∃ e, (d.ownView dir order).field slot signal = .error e ∧
      (d.ownView dir order).unpack frame slot signal = .error e := by
  cases hfield : (d.ownView dir order).field slot signal with
  | ok f => exact absurd (Device.field_ownView.1 hfield) (h f)
  | error e =>
    refine ⟨e, rfl, ?_⟩
    rw [FrameView.unpack, Device.checkSize_ownView.2 hframe]
    dsimp only
    rw [FrameView.unpackField, hfield]

/-- **What is read of a signal depends on the bits of its field only.** -/
theorem unpack_ownView_congr {frame' : Bytes} (hframe : frame.size = d.frameSize dir)
    (hframe' : frame'.size = d.frameSize dir)
    (heq : ∀ f, d.SignalAt dir slot.toNat signal.toNat f →
      ∀ p, f.Covers p → bitAt order frame' p = bitAt order frame p) :
    (d.ownView dir order).unpack frame' slot signal =
      (d.ownView dir order).unpack frame slot signal := by
  by_cases hsignal : ∃ f, d.SignalAt dir slot.toNat signal.toNat f
  · obtain ⟨f, hf⟩ := hsignal
    obtain ⟨values, -, hreads⟩ := BitField.unpack_spec order (hf.fits hframe)
    rw [unpack_ownView_eq_ok hframe hf hreads,
      unpack_ownView_eq_ok hframe' hf (hreads.congr (heq f hf))]
  · have hnone : ∀ f, ¬ d.SignalAt dir slot.toNat signal.toNat f := not_exists.1 hsignal
    obtain ⟨e, he, herror⟩ := unpack_ownView_eq_error order hframe hnone
    obtain ⟨e', he', herror'⟩ := unpack_ownView_eq_error order hframe' hnone
    rw [he] at he'
    cases he'
    rw [herror, herror']

/-- A status byte is read from its place. -/
theorem status_ownView_eq_ok (hframe : frame.size = d.frameSize dir) {t : Nat}
    (ht : d.StatusAt dir slot.toNat t) :
    (d.ownView dir order).status frame slot = .ok (frame.getD t 0) := by
  rw [FrameView.status, FrameView.statusPlace, Device.checkSize_ownView.2 hframe]
  dsimp only
  rw [Device.statusOffset_ownView.2 ht]

/-- What is read of a status byte depends on its bits only. -/
theorem status_ownView_congr {frame' : Bytes} (hframe : frame.size = d.frameSize dir)
    (hframe' : frame'.size = d.frameSize dir)
    (heq : ∀ p, d.StatusAt dir slot.toNat (p / 8) → bitAt order frame' p = bitAt order frame p) :
    (d.ownView dir order).status frame' slot = (d.ownView dir order).status frame slot := by
  cases hoffset : (d.ownView dir order).map.statusOffset slot with
  | some t =>
    have ht := Device.statusOffset_ownView.1 hoffset
    rw [status_ownView_eq_ok hframe ht, status_ownView_eq_ok hframe' ht]
    exact congrArg _ (getD_eq_of_bitAt_eq fun p hp => heq p (hp ▸ ht))
  | none =>
    rw [FrameView.status, FrameView.status, FrameView.statusPlace, FrameView.statusPlace,
      Device.checkSize_ownView.2 hframe, Device.checkSize_ownView.2 hframe']
    dsimp only
    rw [hoffset]

end Reading

/-! ## Places

A place is a signal or a status byte, and a position is in it if it is one of its bits. Bits of
padding are in no place. -/

/-- What can be read from a frame on its own: a signal, or the status byte of a slot. -/
inductive FramePlace where
  | signal (slot signal : UInt16)
  | status (slot : UInt16)
deriving DecidableEq, Repr

namespace FramePlace
variable {d : Device} {dir : Direction} {p : Nat} {a b : FramePlace}

/-- A position that is a bit of an element of the signal, or of the status byte. -/
def Has (d : Device) (dir : Direction) (p : Nat) : FramePlace → Prop
  | .signal slot index => ∃ f, d.SignalAt dir slot.toNat index.toNat f ∧ f.Covers p
  | .status slot => d.StatusAt dir slot.toNat (p / 8)

theorem Has.carries (h : a.Has d dir p) : ∃ i, d.CarriesAt dir i p := by
  cases a with
  | signal slot signal =>
    obtain ⟨f, hf, hp⟩ := h
    exact ⟨slot.toNat, Or.inl ⟨signal.toNat, f, hf, hp⟩⟩
  | status slot => exact ⟨slot.toNat, Or.inr h⟩

/-- No position of a signal is in a status byte. -/
theorem not_has_status {slot signal slot' : UInt16} (h : (FramePlace.signal slot signal).Has d dir p) :
    ¬ (status slot').Has d dir p := by
  intro ht
  obtain ⟨f, hf, hp⟩ := h
  change d.StatusAt dir slot'.toNat (p / 8) at ht
  rw [ht.inSlot.unique (hf.inSlot hp.occupies)] at ht
  have hlt := hf.lt_status hp.occupies ht
  omega

/-- **No position is in two places.** -/
theorem Has.unique (ha : a.Has d dir p) (hb : b.Has d dir p) : a = b := by
  cases a with
  | signal slot signal =>
    cases b with
    | signal slot' signal' =>
      obtain ⟨f, hf, hp⟩ := ha
      obtain ⟨f', hf', hp'⟩ := hb
      have hslot := (hf.inSlot hp.occupies).unique (hf'.inSlot hp'.occupies)
      rw [hslot] at hf
      have hsignal := hf.eq_of_occupies hf' hp.occupies hp'.occupies
      rw [UInt16.toNat_inj.1 hslot, UInt16.toNat_inj.1 hsignal]
    | status slot' => exact absurd hb (not_has_status ha)
  | status slot =>
    cases b with
    | signal slot' signal' => exact absurd ha (not_has_status hb)
    | status slot' =>
      change d.StatusAt dir slot.toNat (p / 8) at ha
      change d.StatusAt dir slot'.toNat (p / 8) at hb
      rw [UInt16.toNat_inj.1 (ha.inSlot.unique hb.inSlot)]

end FramePlace

/-! ## Writes

The three kinds of writes with what has to be said of them: which are accepted
(`FrameWrite.Accepted`), which are apart (`FrameWrite.Apart`), and what is read back
(`FrameWrite.ReadsBack`), all in terms of the device and not of the frame. -/

/-- A write to a frame. -/
inductive FrameWrite where
  /-- All elements of a signal. -/
  | pack (slot signal : UInt16) (values : Array UInt64)
  /-- One element of a signal. -/
  | set (slot signal : UInt16) (element : Nat) (value : Value)
  /-- The status byte of a slot. -/
  | setStatus (slot : UInt16) (status : UInt8)
deriving DecidableEq, Repr

namespace FrameWrite

/-- A frame that is written to in place: a write that gives no frame leaves the one there is. -/
def inPlace (frame : Bytes) : Except Error Bytes → Written Error
  | .error e => (.error e, frame)
  | .ok written => (.ok (), written)

/-- Does a write, and gives the frame as it leaves it. -/
def run (v : FrameView) (frame : Bytes) : FrameWrite → Written Error
  | pack slot signal values => v.pack frame slot signal values
  | set slot signal element value => inPlace frame (v.set frame slot signal element value)
  | setStatus slot status => inPlace frame (v.setStatus frame slot status)

/-- The signal or the status byte that a write goes to. -/
def place : FrameWrite → FramePlace
  | pack slot signal _ => .signal slot signal
  | set slot signal _ _ => .signal slot signal
  | setStatus slot _ => .status slot

/-- Writes that go to different signals, different elements of one, different status bytes, or one
to a signal and one to a status byte. -/
def Apart : FrameWrite → FrameWrite → Prop
  | set slot signal element _, set slot' signal' element' _ =>
    (slot, signal, element) ≠ (slot', signal', element')
  | a, b => a.place ≠ b.place

/-- Writes to what there is in a device: a signal with one value per element, an element, or a
slot. -/
def Accepted (d : Device) (dir : Direction) : FrameWrite → Prop
  | pack slot signal values => ∃ x, d.signal dir slot signal = .ok x ∧ values.size = x.elements
  | set slot signal element _ => ∃ x, d.signal dir slot signal = .ok x ∧ element < x.elements
  | setStatus slot _ => slot.toNat < d.slots.size

/-- What is read back after a write: what was written, reduced to the width of the signal's
elements, and all other elements of the signal as before. -/
def ReadsBack (d : Device) (dir : Direction) (v : FrameView) (before after : Bytes) :
    FrameWrite → Prop
  | pack slot signal values => ∃ x, d.signal dir slot signal = .ok x ∧
    v.unpack after slot signal =
      .ok (values.map fun word => UInt64.ofNat (word.toNat % 2 ^ x.width))
  | set slot signal element value => ∃ x old, d.signal dir slot signal = .ok x ∧
    v.unpack before slot signal = .ok old ∧ element < old.size ∧
    v.unpack after slot signal =
      .ok (old.setIfInBounds element (UInt64.ofNat (value.toRaw.toNat % 2 ^ x.width)))
  | setStatus slot status => v.status after slot = .ok status

/-! ### What a write covers

An element covers its own bits, a signal those of all its elements, a status byte its eight. What a
write covers lies in the place it goes to, and writes that are apart cover different positions; for
two elements of one signal that is because they lie back to back. -/

/-- The positions that a write puts something at. -/
def Covers (d : Device) (dir : Direction) (p : Nat) : FrameWrite → Prop
  | pack slot signal _ => ∃ f, d.SignalAt dir slot.toNat signal.toNat f ∧ f.Covers p
  | set slot signal element _ => ∃ f, d.SignalAt dir slot.toNat signal.toNat f ∧
    element < f.count ∧ f.start element ≤ p ∧ p < f.start element + f.bits
  | setStatus slot _ => d.StatusAt dir slot.toNat (p / 8)

/-- What a frame has at these positions after the write. -/
def Holds (d : Device) (dir : Direction) (order : ByteOrder) (frame : Bytes) : FrameWrite → Prop
  | pack slot signal values =>
    ∀ f, d.SignalAt dir slot.toNat signal.toNat f → f.Holds order frame values
  | set slot signal element value =>
    ∀ f, d.SignalAt dir slot.toNat signal.toNat f → ∀ i < f.bits,
      bitAt order frame (f.start element + i) = wordBit value.toRaw (order.rank f.bits i)
  | setStatus slot status => ∀ t, d.StatusAt dir slot.toNat t → frame.getD t 0 = status

section
variable {d : Device} {dir : Direction} {order : ByteOrder} {frame : Bytes} {p : Nat}
  {w a b : FrameWrite}

/-- **What a write covers is in the place that it goes to.** -/
theorem Covers.has (h : w.Covers d dir p) : w.place.Has d dir p := by
  cases w with
  | pack slot signal values => exact h
  | set slot signal element value =>
    obtain ⟨f, hf, helement, hle, hlt⟩ := h
    have hp := f.covers_start_add helement (i := p - f.start element) (by omega)
    rw [show f.start element + (p - f.start element) = p by omega] at hp
    exact ⟨f, hf, hp⟩
  | setStatus slot status => exact h

/-- **Writes that are apart cover different positions.** -/
theorem Apart.not_covers (h : a.Apart b) (ha : a.Covers d dir p) : ¬ b.Covers d dir p := by
  intro hb
  have hplace : a.place = b.place := ha.has.unique hb.has
  cases a with
  | pack slot signal values => cases b <;> exact h hplace
  | setStatus slot status => cases b <;> exact h hplace
  | set slot signal element value =>
    cases b with
    | pack slot' signal' values' => exact h hplace
    | setStatus slot' status' => exact h hplace
    | set slot' signal' element' value' =>
      -- in one signal, it is the elements that are different
      cases hplace
      obtain ⟨f, hf, -, hle, hlt⟩ := ha
      obtain ⟨f', hf', -, hle', hlt'⟩ := hb
      cases hf.unique hf'
      have hne : element ≠ element' := fun e => h (by rw [e])
      refine f.not_mem_of_ne (i := p - f.start element) hne (by omega) ?_
      omega

/-- **What is put at the covered positions does not depend on the frame.** -/
theorem Holds.bitAt_eq {frame' : Bytes} (h : w.Holds d dir order frame)
    (h' : w.Holds d dir order frame') (hp : w.Covers d dir p) :
    bitAt order frame p = bitAt order frame' p := by
  cases w with
  | pack slot signal values =>
    obtain ⟨f, hf, hcovers⟩ := hp
    exact (h f hf).bitAt_eq (h' f hf) hcovers
  | set slot signal element value =>
    obtain ⟨f, hf, -, hle, hlt⟩ := hp
    have hbit := h f hf (p - f.start element) (by omega)
    have hbit' := h' f hf (p - f.start element) (by omega)
    rw [show f.start element + (p - f.start element) = p by omega] at hbit hbit'
    rw [hbit, hbit']
  | setStatus slot status =>
    unfold bitAt
    rw [h _ hp, h' _ hp]

/-! ### What a write does

One law for accepted writes and one for all others. The first is a case for each kind of write, and
in each the law of the access below it is put into the terms of places; from there on the kinds are
not told apart any more. -/

theorem signalAt_of_signal {slot signal : UInt16} {x : Signal}
    (h : d.signal dir slot signal = .ok x) :
    ∃ f, d.SignalAt dir slot.toNat signal.toNat f ∧ f.bits = x.width ∧ f.count = x.elements := by
  obtain ⟨s, hs, hx⟩ := Device.signal_eq_ok_iff.1 h
  exact ⟨_, ⟨s, x, hs, hx, rfl⟩, rfl, rfl⟩

/-- **What a write leaves that is accepted.** -/
theorem run_spec (order : ByteOrder) (hframe : frame.size = d.frameSize dir)
    (hw : w.Accepted d dir) :
    ∃ out, w.run (d.ownView dir order) frame = (.ok (), out) ∧ out.size = frame.size ∧
      w.Holds d dir order out ∧
      ∀ p, ¬ w.Covers d dir p → bitAt order out p = bitAt order frame p := by
  have hcheck : (d.ownView dir order).checkSize frame = .ok () := Device.checkSize_ownView.2 hframe
  cases w with
  | pack slot signal values =>
    obtain ⟨x, hx, hsize⟩ := hw
    obtain ⟨f, hf, -, hcount⟩ := signalAt_of_signal hx
    -- all elements at once: the field is packed
    obtain ⟨out, hout, hlen, hholds, hsame⟩ :=
      BitField.pack_spec order (hf.fits hframe) (hsize.trans hcount.symm)
    refine ⟨out, ?_, hlen, fun f' hf' => by rw [hf'.unique hf]; exact hholds,
      fun p hp => hsame p fun hcovers => hp ⟨f, hf, hcovers⟩⟩
    rw [run, FrameView.pack, hcheck]
    dsimp only
    rw [FrameView.packField, Device.field_ownView.2 hf]
    dsimp only
    rw [show (d.ownView dir order).order = order from rfl, hout]
    rfl
  | set slot signal element value =>
    obtain ⟨x, hx, helement⟩ := hw
    obtain ⟨f, hf, -, hcount⟩ := signalAt_of_signal hx
    have hlt : element < f.count := by rw [hcount]; exact helement
    -- one element: the other elements of the field are not covered either
    obtain ⟨out, hout, hlen, hhere, hothers, hsame⟩ :=
      BitField.set_spec order (hf.fits hframe) hlt value.toRaw
    refine ⟨out, ?_, hlen, fun f' hf' => by rw [hf'.unique hf]; exact hhere, fun p hp => ?_⟩
    · rw [run, FrameView.set, hcheck]
      dsimp only
      rw [Device.field_ownView.2 hf]
      dsimp only
      rw [show (d.ownView dir order).order = order from rfl, hout]
      rfl
    · by_cases hcovers : f.Covers p
      · -- a bit of another element
        obtain ⟨k, hk, i, hi, rfl⟩ := hcovers.exists_start
        refine hothers k (fun e => hp ⟨f, hf, hlt, ?_, ?_⟩) i hi <;> rw [e] <;> omega
      · exact hsame p hcovers
  | setStatus slot status =>
    have ht : d.StatusAt dir slot.toNat _ := ⟨d.slots[slot.toNat], Array.getElem?_eq_getElem hw, rfl⟩
    refine ⟨_, ?_, Array.size_setIfInBounds, fun t' ht' => ?_, fun p hp =>
      bitAt_setIfInBounds_of_ne order frame status fun e => hp (show d.StatusAt _ _ _ from e ▸ ht)⟩
    · rw [run, FrameView.setStatus, FrameView.statusPlace, hcheck]
      dsimp only
      rw [Device.statusOffset_ownView.2 ht]
      rfl
    · rw [ht'.unique ht, getD_setIfInBounds_self (by rw [hframe]; exact ht.lt_frameSize)]

/-- **A write that is not accepted leaves the frame,** and so does every write to a frame of another
length. -/
theorem run_eq_error (order : ByteOrder)
    (h : ¬ (frame.size = d.frameSize dir ∧ w.Accepted d dir)) :
    ∃ e, w.run (d.ownView dir order) frame = (.error e, frame) := by
  by_cases hframe : frame.size = d.frameSize dir
  · have hw : ¬ w.Accepted d dir := fun hw => h ⟨hframe, hw⟩
    have hcheck : (d.ownView dir order).checkSize frame = .ok () :=
      Device.checkSize_ownView.2 hframe
    -- the indices are right and something else is not, or they lead nowhere
    cases w with
    | pack slot signal values =>
      rw [run, FrameView.pack, hcheck]
      dsimp only
      rw [FrameView.packField]
      cases hfield : (d.ownView dir order).field slot signal with
      | error e => exact ⟨e, rfl⟩
      | ok f =>
        obtain ⟨s, x, hs, hx, rfl⟩ := Device.field_ownView.1 hfield
        have hsize : values.size ≠ x.elements := fun hsize =>
          hw ⟨x, Device.signal_eq_ok_iff.2 ⟨s, hs, hx⟩, hsize⟩
        dsimp only
        rw [BitField.pack_of_size_ne hsize]
        exact ⟨_, rfl⟩
    | set slot signal element value =>
      rw [run, FrameView.set, hcheck]
      dsimp only
      cases hfield : (d.ownView dir order).field slot signal with
      | error e => exact ⟨e, rfl⟩
      | ok f =>
        obtain ⟨s, x, hs, hx, rfl⟩ := Device.field_ownView.1 hfield
        have helement : x.elements ≤ element := Nat.le_of_not_lt fun helement =>
          hw ⟨x, Device.signal_eq_ok_iff.2 ⟨s, hs, hx⟩, helement⟩
        dsimp only
        rw [BitField.set, if_pos helement]
        exact ⟨_, rfl⟩
    | setStatus slot status =>
      rw [run, FrameView.setStatus, FrameView.statusPlace, hcheck]
      dsimp only
      cases hoffset : (d.ownView dir order).map.statusOffset slot with
      | none => exact ⟨_, rfl⟩
      | some t =>
        obtain ⟨s, hs, -⟩ := Device.statusOffset_ownView.1 hoffset
        exact absurd (Array.getElem?_eq_some_iff.1 hs).1 hw
  · -- the length is looked at first, whatever the write
    have hcheck : (d.ownView dir order).checkSize frame = .error .frameSize :=
      checkSize_ownView_eq_error hframe
    refine ⟨.frameSize, ?_⟩
    cases w with
    | pack slot signal values => rw [run, FrameView.pack, hcheck]
    | set slot signal element value =>
      rw [run, FrameView.set, hcheck]
      rfl
    | setStatus slot status =>
      rw [run, FrameView.setStatus, FrameView.statusPlace, hcheck]
      rfl

/-- Which writes are accepted. -/
theorem exists_run_iff :
    (∃ out, w.run (d.ownView dir order) frame = (.ok (), out)) ↔
      frame.size = d.frameSize dir ∧ w.Accepted d dir := by
  constructor
  · rintro ⟨out, hout⟩
    by_cases h : frame.size = d.frameSize dir ∧ w.Accepted d dir
    · exact h
    · obtain ⟨e, he⟩ := run_eq_error order h
      rw [he] at hout
      cases hout
  · rintro ⟨hframe, hw⟩
    obtain ⟨out, hout, -⟩ := run_spec order hframe hw
    exact ⟨out, hout⟩

/-- What was written is read back. -/
theorem readsBack {out : Bytes} (hframe : frame.size = d.frameSize dir) (hw : w.Accepted d dir)
    (hsize : out.size = frame.size) (hholds : w.Holds d dir order out)
    (hsame : ∀ p, ¬ w.Covers d dir p → bitAt order out p = bitAt order frame p) :
    w.ReadsBack d dir (d.ownView dir order) frame out := by
  have hout : out.size = d.frameSize dir := hsize.trans hframe
  cases w with
  | pack slot signal values =>
    obtain ⟨x, hx, -⟩ := hw
    obtain ⟨f, hf, hbits, -⟩ := signalAt_of_signal hx
    -- what the field holds is read, reduced to its width
    obtain ⟨read, -, hreads⟩ := BitField.unpack_spec order (hf.fits hout)
    refine ⟨x, hx, ?_⟩
    rw [unpack_ownView_eq_ok hout hf hreads, hreads.eq_of_holds hf.bits_bounds.2 (hholds f hf),
      ← hbits]
    congr 2
    funext word
    exact and_lowMask_eq_ofNat_mod word hf.bits_bounds.2
  | set slot signal element value =>
    obtain ⟨x, hx, helement⟩ := hw
    obtain ⟨f, hf, hbits, hcount⟩ := signalAt_of_signal hx
    obtain ⟨old, -, hreads⟩ := BitField.unpack_spec order (hf.fits hframe)
    refine ⟨x, old, hx, unpack_ownView_eq_ok hframe hf hreads,
      by rw [hreads.size, hcount]; exact helement, unpack_ownView_eq_ok hout hf ?_⟩
    rw [← hbits, ← and_lowMask_eq_ofNat_mod _ hf.bits_bounds.2]
    refine ⟨by rw [Array.size_setIfInBounds, hreads.size], fun k hk => ?_⟩
    rw [Array.size_setIfInBounds] at hk
    rw [Array.getElem_setIfInBounds hk]
    -- the element that was written reads as its value, the others as before
    by_cases hk' : element = k
    · subst hk'
      rw [if_pos rfl]
      exact readsAs_and_lowMask hf.bits_bounds.2 (hholds f hf)
    · rw [if_neg hk']
      refine ⟨(hreads.elements k hk).1, fun i hi => ?_⟩
      rw [(hreads.elements k hk).2 i hi, hsame]
      rintro ⟨f', hf', -, hmem⟩
      cases hf'.unique hf
      exact f.not_mem_of_ne (Ne.symm hk') hi hmem
  | setStatus slot status =>
    have ht : d.StatusAt dir slot.toNat _ := ⟨d.slots[slot.toNat], Array.getElem?_eq_getElem hw, rfl⟩
    show (d.ownView dir order).status out slot = .ok status
    rw [status_ownView_eq_ok hout ht, hholds _ ht]

/-- **Writes that are apart may come in either order.** -/
theorem run_comm {fa fb : Bytes} (h : a.Apart b)
    (ha : a.run (d.ownView dir order) frame = (.ok (), fa))
    (hb : b.run (d.ownView dir order) frame = (.ok (), fb)) :
    ∃ out, b.run (d.ownView dir order) fa = (.ok (), out) ∧
      a.run (d.ownView dir order) fb = (.ok (), out) := by
  obtain ⟨hframe, haccepted⟩ := exists_run_iff.1 ⟨fa, ha⟩
  obtain ⟨-, hbccepted⟩ := exists_run_iff.1 ⟨fb, hb⟩
  obtain ⟨fa', ha', hsizea, hholdsa, hsamea⟩ := run_spec order hframe haccepted
  obtain ⟨fb', hb', hsizeb, hholdsb, hsameb⟩ := run_spec order hframe hbccepted
  rw [ha] at ha'
  cases ha'
  rw [hb] at hb'
  cases hb'
  obtain ⟨ab, hab, hsizeab, hholdsab, hsameab⟩ :=
    run_spec order (hsizea.trans hframe) hbccepted
  obtain ⟨ba, hba, hsizeba, hholdsba, hsameba⟩ :=
    run_spec order (hsizeb.trans hframe) haccepted
  have heq : ab = ba := by
    apply bytes_ext order
    · rw [hsizeab, hsizeba, hsizea, hsizeb]
    · intro p _
      -- each position has what the one write that covers it puts there
      by_cases hpa : a.Covers d dir p
      · rw [hsameab p (h.not_covers hpa), hholdsa.bitAt_eq hholdsba hpa]
      · by_cases hpb : b.Covers d dir p
        · rw [hsameba p hpa, hholdsab.bitAt_eq hholdsb hpb]
        · rw [hsameab p hpb, hsamea p hpa, hsameba p hpa, hsameb p hpb]
  exact ⟨ab, hab, heq ▸ hba⟩

end

end FrameWrite

/-- **Signals and status bytes of a frame are independent.** In the frames of a valid device, in
either direction and with either order of bits,

* a write that is refused leaves the frame, whatever its length;
* on a frame of the right length, a signal is written exactly if it exists and gets one value per
  element, an element if signal and element exist, a status byte if the slot exists. What was
  written is read back, reduced to the width of the signal; all other elements of the signal, all
  other signals, all other status bytes and all padding are as they were;
* writes to different signals, elements or status bytes, or to a signal and a status byte, have the
  same result in either order. -/
theorem signals_independent (d : Device) (hd : d.validate = .ok ()) (dir : Direction)
    (order : ByteOrder) :
    let v : FrameView := ⟨d, FrameMap.ofDevice d dir, order⟩
    (∀ (w : FrameWrite) (frame : Bytes) (e : Error) (left : Bytes),
      w.run v frame = (.error e, left) → left = frame) ∧
    (∀ (w : FrameWrite) (frame : Bytes), frame.size = v.map.size →
      ((∃ out, w.run v frame = (.ok (), out)) ↔ w.Accepted d dir) ∧
      ∀ out, w.run v frame = (.ok (), out) →
        w.ReadsBack d dir v frame out ∧
        (∀ slot signal, w.place ≠ .signal slot signal →
          v.unpack out slot signal = v.unpack frame slot signal) ∧
        (∀ slot, w.place ≠ .status slot → v.status out slot = v.status frame slot) ∧
        out.size = frame.size ∧
        ∀ p, v.Padding p → bitAt order out p = bitAt order frame p) ∧
    ∀ (a b : FrameWrite) (frame fa fb : Bytes), a.Apart b →
      a.run v frame = (.ok (), fa) → b.run v frame = (.ok (), fb) →
      ∃ out, b.run v fa = (.ok (), out) ∧ a.run v fb = (.ok (), out) := by
  have hv := (Device.validate_eq_ok_iff d).1 hd
  refine ⟨fun w frame e left h => ?_, fun w frame hframe => ?_,
    fun a b frame fa fb h ha hb => FrameWrite.run_comm h ha hb⟩
  · have hnot : ¬ (frame.size = d.frameSize dir ∧ w.Accepted d dir) := fun hok => by
      obtain ⟨out, hout, -⟩ := FrameWrite.run_spec order hok.1 hok.2
      rw [show FrameView.mk d _ order = d.ownView dir order from rfl, hout] at h
      cases h
    obtain ⟨e', he'⟩ := FrameWrite.run_eq_error order hnot
    exact (congrArg Prod.snd (h.symm.trans he'))
  · have hsize : frame.size = d.frameSize dir := hframe.trans (FrameMap.size_ofDevice d dir)
    refine ⟨FrameWrite.exists_run_iff.trans (and_iff_right hsize), fun out hrun => ?_⟩
    obtain ⟨-, hw⟩ := FrameWrite.exists_run_iff.1 ⟨out, hrun⟩
    obtain ⟨out', hout', hlen, hholds, hsame⟩ := FrameWrite.run_spec order hsize hw
    rw [show FrameView.mk d _ order = d.ownView dir order from rfl, hout'] at hrun
    cases hrun
    have hout := hlen.trans hsize
    refine ⟨FrameWrite.readsBack hsize hw hlen hholds hsame, fun slot signal hne => ?_,
      fun slot hne => ?_, hlen, fun p hp => ?_⟩
    · refine unpack_ownView_congr hsize hout fun f hf p hp => hsame p fun hcovers => ?_
      exact hne (hcovers.has.unique ⟨f, hf, hp⟩)
    · refine status_ownView_congr hsize hout fun p hp => hsame p fun hcovers => ?_
      exact hne (hcovers.has.unique hp)
    · rcases Nat.lt_or_ge p (8 * d.frameSize dir) with hlt | hge
      · refine hsame p fun hcovers => ?_
        obtain ⟨i, hi⟩ := hcovers.has.carries
        exact (padding_ownView hv hlt).1 hp i hi
      · rw [bitAt_of_size_le _ (by rw [hout]; exact hge),
          bitAt_of_size_le _ (by rw [hsize]; exact hge)]

/-- One of three values of five bits, and the status byte behind them, in a frame with gaps. -/
theorem signals_independent_gapped :
    gappedDevice.validate = .ok () ∧
      ∃ fa fb out, (FrameWrite.set 0 1 1 (.raw 0x2A)).run (gappedDevice.ownView .tx .big)
          (Array.replicate 7 0xFF) = (.ok (), fa) ∧
        (FrameWrite.setStatus 0 7).run (gappedDevice.ownView .tx .big) (Array.replicate 7 0xFF) =
          (.ok (), fb) ∧
        (FrameWrite.setStatus 0 7).run (gappedDevice.ownView .tx .big) fa = (.ok (), out) ∧
        (FrameWrite.set 0 1 1 (.raw 0x2A)).run (gappedDevice.ownView .tx .big) fb = (.ok (), out) ∧
        (gappedDevice.ownView .tx .big).unpack fa 1 0 = .ok #[0xFFFF] := by
  have hvalid : gappedDevice.validate = .ok () := by
    simp [Device.validate, validateSlots, Slot.validate, gappedDevice, maxItems]
  obtain ⟨-, hwrite, hcomm⟩ := signals_independent gappedDevice hvalid .tx .big
  have hset : (FrameWrite.set 0 1 1 (.raw 0x2A)).run (gappedDevice.ownView .tx .big)
      (Array.replicate 7 0xFF) = (.ok (), #[0xFF, 0xFA, 0xBF, 0xFF, 0xFF, 0xFF, 0xFF]) := by
    decide +kernel
  have hstatus : (FrameWrite.setStatus 0 7).run (gappedDevice.ownView .tx .big)
      (Array.replicate 7 0xFF) = (.ok (), #[0xFF, 0xFF, 0xFF, 7, 0xFF, 0xFF, 0xFF]) := by
    decide +kernel
  have hapart : (FrameWrite.set 0 1 1 (.raw 0x2A)).Apart (.setStatus 0 7) := by
    intro e
    cases e
  obtain ⟨out, hout, hout'⟩ := hcomm _ _ _ _ _ hapart hset hstatus
  obtain ⟨-, hothers, -⟩ := (hwrite _ (Array.replicate 7 0xFF) (by decide +kernel)).2 _ hset
  have hword : (gappedDevice.ownView .tx .big).unpack (Array.replicate 7 0xFF) 1 0 =
      .ok #[0xFFFF] := by decide +kernel
  exact ⟨hvalid, _, _, out, hset, hstatus, hout, hout', (hothers 1 0 (by decide)).trans hword⟩

end Fieldbus
