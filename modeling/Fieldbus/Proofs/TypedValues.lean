import Fieldbus.Proofs.Coherence
import Fieldbus.Proofs.SignalIndependence
/-!
Typed values survive the frame.

An element of a frame has the width of its type and no more, a value of the image is a whole word.
So two cuts are made on the way of a value: packing keeps the lowest bits of the word, and reading
by the type drops what the type has no room for. `Value.ofRaw_mod` says that they agree: cutting the
word first changes no value but a raw one, which is reduced to the width of its signal. The other
half is that no type loses anything of its own values (`Value.ofRaw_toRaw`), whatever their sign or
bit pattern.

From the two follows what is read where a value was written, in a frame (`typed_values_survive`,
first part) and on the way from the process image to the adapter (second part).

A pattern that is no number is a value like all others here. Reals are carried as their bits, and
nothing in a gateway computes with them.
-/

namespace Fieldbus

/-! ## Cutting words and reading them

One case for each type, as each has a width of its own and its own way to be made from a word.
Signed numbers are made from the unsigned ones of their width, so that the sign survives is not an
argument of its own. -/

namespace Value

/-- The value as an element of the given width has it: a raw value loses the bits above. -/
def reduced (width : Nat) : Value → Value
  | .raw word => .raw (UInt64.ofNat (word.toNat % 2 ^ width))
  | v => v

/-- A value that elements of a type have: of their variant, and within their width if it is raw. -/
def Fits (v : Value) (type : DataType) : Prop :=
  v.hasType type = true ∧ ∀ word, v = .raw word → word.toNat < 2 ^ type.width

/-- The lowest bits of a word as a number. -/
theorem toNat_ofNat_mod (word : UInt64) {width : Nat} (h : width ≤ 64) :
    (UInt64.ofNat (word.toNat % 2 ^ width)).toNat = word.toNat % 2 ^ width := by
  rw [UInt64.toNat_ofNat']
  have hpow : 2 ^ width ≤ 2 ^ 64 := Nat.pow_le_pow_right (by decide) h
  have hlt : word.toNat % 2 ^ width < 2 ^ width := Nat.mod_lt _ (Nat.two_pow_pos width)
  exact Nat.mod_eq_of_lt (Nat.lt_of_lt_of_le hlt hpow)

section Narrow
variable (word : UInt64)

theorem toUInt8_mod : (UInt64.ofNat (word.toNat % 2 ^ 8)).toUInt8 = word.toUInt8 := by
  apply UInt8.toNat_inj.1
  rw [UInt64.toNat_toUInt8, UInt64.toNat_toUInt8, toNat_ofNat_mod word (by decide), Nat.mod_mod]

theorem toUInt16_mod : (UInt64.ofNat (word.toNat % 2 ^ 16)).toUInt16 = word.toUInt16 := by
  apply UInt16.toNat_inj.1
  rw [UInt64.toNat_toUInt16, UInt64.toNat_toUInt16, toNat_ofNat_mod word (by decide), Nat.mod_mod]

theorem toUInt32_mod : (UInt64.ofNat (word.toNat % 2 ^ 32)).toUInt32 = word.toUInt32 := by
  apply UInt32.toNat_inj.1
  rw [UInt64.toNat_toUInt32, UInt64.toNat_toUInt32, toNat_ofNat_mod word (by decide), Nat.mod_mod]

theorem ofNat_mod_self : UInt64.ofNat (word.toNat % 2 ^ 64) = word := by
  apply UInt64.toNat_inj.1
  rw [toNat_ofNat_mod word (Nat.le_refl 64), Nat.mod_eq_of_lt word.toNat_lt]

/-- One bit is kept by cutting to one bit. -/
theorem and_one_mod : UInt64.ofNat (word.toNat % 2 ^ 1) &&& 1 = word &&& 1 := by
  apply UInt64.toNat_inj.1
  rw [UInt64.toNat_and, UInt64.toNat_and, toNat_ofNat_mod word (by decide)]
  simp only [UInt64.toNat_one, Nat.and_one_is_mod, Nat.pow_one, Nat.mod_mod]

end Narrow

/-- **Reading a cut word.** The width of a type is all that its values are made of, so cutting the
word to it changes raw values only. -/
theorem ofRaw_mod (type : DataType) (word : UInt64) :
    ofRaw type (UInt64.ofNat (word.toNat % 2 ^ type.width)) =
      (ofRaw type word).reduced type.width := by
  cases type with
  | bool => exact congrArg (fun bit => Value.bool (bit != 0)) (and_one_mod word)
  | int8 => exact congrArg (fun byte => Value.int8 byte.toInt8) (toUInt8_mod word)
  | int16 => exact congrArg (fun half => Value.int16 half.toInt16) (toUInt16_mod word)
  | int32 => exact congrArg (fun half => Value.int32 half.toInt32) (toUInt32_mod word)
  | int64 => exact congrArg (fun full => Value.int64 full.toInt64) (ofNat_mod_self word)
  | uint8 => exact congrArg Value.uint8 (toUInt8_mod word)
  | uint16 => exact congrArg Value.uint16 (toUInt16_mod word)
  | uint32 => exact congrArg Value.uint32 (toUInt32_mod word)
  | uint64 => exact congrArg Value.uint64 (ofNat_mod_self word)
  | real32 => exact congrArg Value.real32 (toUInt32_mod word)
  | real64 => exact congrArg Value.real64 (ofNat_mod_self word)
  | bitfield bits => rfl
  | unknown code => rfl

/-- **A type reads its own values back**, negative ones and patterns that are no number too. -/
theorem ofRaw_toRaw {v : Value} {type : DataType} (h : v.hasType type = true) :
    ofRaw type v.toRaw = v := by
  cases v <;> cases type <;> cases h
  case bool.bool b => cases b <;> rfl
  all_goals simp [ofRaw, toRaw]

/-- A value that fits is not changed by the width of the type. -/
theorem Fits.ofRaw_mod {v : Value} {type : DataType} (h : v.Fits type) :
    ofRaw type (UInt64.ofNat (v.toRaw.toNat % 2 ^ type.width)) = v := by
  rw [Value.ofRaw_mod, ofRaw_toRaw h.1]
  cases v with
  | raw word => rw [reduced, Nat.mod_eq_of_lt (h.2 word rfl), UInt64.ofNat_toNat]
  | _ => rfl

end Value

/-! ## Elements of a frame

An element is read as the word that unpacking gives for it, and written as a word of which the
lowest bits go in. That an element can be written depends on its index and not on the variant of the
value: a value for another type is written as the word that it is. -/

section Frame
variable {d : Device} {dir : Direction} {order : ByteOrder} {frame : Bytes} {slot signal : UInt16}
  {element : Nat} {x : Signal}

/-- **What is read of an element** is the word that is unpacked for it, by the type of the
signal. -/
theorem get_of_reads (hframe : frame.size = d.frameSize dir)
    (hx : d.signal dir slot signal = .ok x) {f : BitField}
    (hf : d.SignalAt dir slot.toNat signal.toNat f) {values : Array UInt64}
    (hreads : f.Reads order frame values) (helement : element < values.size) :
    (d.ownView dir order).get frame slot signal element =
      .ok (.ofRaw x.type values[element]) := by
  have hsignal : (d.ownView dir order).signal slot signal = .ok x := by
    rw [FrameView.signal, Device.direction_ownView]
    exact hx
  rw [FrameView.get, Device.checkSize_ownView.2 hframe]
  dsimp only
  rw [hsignal, Device.field_ownView.2 hf]
  dsimp only
  rw [show (d.ownView dir order).order = order from rfl,
    hreads.get_eq (hf.fits hframe) element helement]

/-- The elements that there are can be written, and no others. -/
theorem exists_set_iff {value : Value} :
    (∃ out, (d.ownView dir order).set frame slot signal element value = .ok out) ↔
      frame.size = d.frameSize dir ∧ ∃ x, d.signal dir slot signal = .ok x ∧
        element < x.elements := by
  have hrun : (∃ out, (FrameWrite.set slot signal element value).run (d.ownView dir order) frame =
      (.ok (), out)) ↔ _ := FrameWrite.exists_run_iff
  refine Iff.trans ?_ hrun
  cases hset : (d.ownView dir order).set frame slot signal element value with
  | ok written => exact iff_of_true ⟨_, rfl⟩ ⟨written, by rw [FrameWrite.run, hset]; rfl⟩
  | error e =>
    rw [FrameWrite.run, hset]
    constructor <;> rintro ⟨_, h⟩ <;> cases h

/-- **An element that was written** is read as its value, cut to the width of the signal. -/
theorem get_of_set {value : Value} {out : Bytes}
    (hset : (d.ownView dir order).set frame slot signal element value = .ok out) :
    ∃ x, d.signal dir slot signal = .ok x ∧ element < x.elements ∧ out.size = frame.size ∧
      (d.ownView dir order).get out slot signal element =
        .ok (.ofRaw x.type (UInt64.ofNat (value.toRaw.toNat % 2 ^ x.type.width))) := by
  obtain ⟨hframe, x, hx, helement⟩ := exists_set_iff.1 ⟨out, hset⟩
  obtain ⟨f, hf, hbits, hcount⟩ := FrameWrite.signalAt_of_signal hx
  have hrun : (FrameWrite.set slot signal element value).run (d.ownView dir order) frame =
      (.ok (), out) := by rw [FrameWrite.run, hset]; rfl
  have haccepted : (FrameWrite.set slot signal element value).Accepted d dir :=
    ⟨x, hx, helement⟩
  obtain ⟨out', hout', hsize, hholds, -⟩ := FrameWrite.run_spec order hframe haccepted
  cases hrun.symm.trans hout'
  obtain ⟨values, -, hreads⟩ := BitField.unpack_spec order (hf.fits (hsize.trans hframe))
  have hlt : element < values.size := by rw [hreads.size, hcount]; exact helement
  refine ⟨x, hx, helement, hsize, ?_⟩
  -- the word that is read is the only one whose bits are those that were written
  rw [get_of_reads (hsize.trans hframe) hx hf hreads hlt,
    (hreads.elements element hlt).unique (readsAs_and_lowMask hf.bits_bounds.2 (hholds f hf)),
    and_lowMask_eq_ofNat_mod _ hf.bits_bounds.2, hbits]
  rfl

end Frame

/-! ## From the image to the adapter

The image has words, and no types. So the value of an element is made from its word in the image and
in the frame alike, and the two differ for raw values only, by what the frame has no room for. -/

section Image
variable {d : Device} {dir : Direction} {slot signal : UInt16} {element : Nat} {x : Signal}

/-- An image of the shape of a device has a word for each element of its signals. -/
theorem exists_word (p : ProcessImage) (hp : Shaped d dir (p.slots dir))
    (hx : d.signal dir slot signal = .ok x) (helement : element < x.elements) :
    ∃ s values, (p.slots dir)[slot.toNat]? = some s ∧ s.signals[signal.toNat]? = some values ∧
      ∃ h : element < values.size,
        p.value d dir slot signal element = .ok (.ofRaw x.type values[element]) := by
  obtain ⟨f, hf, -, hcount⟩ := FrameWrite.signalAt_of_signal hx
  obtain ⟨hsize, hfits⟩ := shaped_iff.1 hp
  have hi : slot.toNat < (p.slots dir).size := by
    obtain ⟨y, -, hy, -⟩ := hf
    rw [hsize]
    exact (Array.getElem?_eq_some_iff.1 hy).1
  have hj := (hfits _ hi).lt_size hf
  obtain ⟨f', hf', hlen⟩ := (hfits _ hi).exists_field hj
  cases hf'.unique hf
  have hslot := Array.getElem?_eq_getElem hi
  have hvalues := Array.getElem?_eq_getElem hj
  have hlt : element < ((p.slots dir)[slot.toNat].signals[signal.toNat]).size := by
    rw [hlen, hcount]
    exact helement
  have hget := ProcessImage.get_eq_ok_iff.2 ⟨_, ProcessImage.slot_eq_ok_iff.2 hslot, hvalues⟩
  refine ⟨_, _, hslot, hvalues, hlt, ?_⟩
  rw [ProcessImage.value, hx]
  dsimp only
  rw [hget]
  dsimp only
  rw [Array.getElem?_eq_getElem hlt]

/-- **What a frame has of an image** is what the image has, cut to the width of the signal. -/
theorem get_of_frameHolds {order : ByteOrder} {p : ProcessImage} {frame : Bytes}
    (hp : Shaped d dir (p.slots dir)) (hframe : frame.size = d.frameSize dir)
    (hholds : FrameHolds d dir order frame (p.slots dir))
    (hx : d.signal dir slot signal = .ok x) (helement : element < x.elements) :
    ∃ v, p.value d dir slot signal element = .ok v ∧ v.hasType x.type = true ∧
      (d.ownView dir order).get frame slot signal element = .ok (v.reduced x.type.width) := by
  obtain ⟨s, values, hs, hvalues, hlt, hvalue⟩ := exists_word p hp hx helement
  obtain ⟨f, hf, hbits, -⟩ := FrameWrite.signalAt_of_signal hx
  obtain ⟨hi, hs⟩ := Array.getElem?_eq_some_iff.1 hs
  obtain ⟨hj, hvalues⟩ := Array.getElem?_eq_some_iff.1 hvalues
  subst hs hvalues
  obtain ⟨read, -, hreads⟩ := BitField.unpack_spec order (hf.fits hframe)
  have hread := hreads.eq_of_holds hf.bits_bounds.2 ((hholds _ hi).1 _ hj f hf)
  subst hread
  refine ⟨_, hvalue, Value.hasType_ofRaw .., ?_⟩
  rw [get_of_reads hframe hx hf hreads (by rw [Array.size_map]; exact hlt), Array.getElem_map,
    and_lowMask_eq_ofNat_mod _ hf.bits_bounds.2, hbits]
  exact congrArg _ (Value.ofRaw_mod x.type _)

end Image

/-- **Typed values survive the frame.** Elements of a type are read from its words:

* in the frames of a device, in either direction and with either order of bits, an element that
  exists is written, whatever the variant of the value, and read as the value that its type makes of
  the lowest bits of what was written. That is the value itself, to the bit, if it is one that the
  type has;
* in every state of a run, so whatever signals and values were set before, each input element has a
  value of its type, and the frame that is handed to the adapter has the same value there, but for
  bits of raw values that the signal has no room for. -/
theorem typed_values_survive :
    (∀ (d : Device) (dir : Direction) (order : ByteOrder) (frame : Bytes) (slot signal : UInt16)
      (element : Nat) (value : Value),
      let v : FrameView := ⟨d, FrameMap.ofDevice d dir, order⟩
      frame.size = v.map.size →
      ((∃ out, v.set frame slot signal element value = .ok out) ↔
        ∃ x, d.signal dir slot signal = .ok x ∧ element < x.elements) ∧
      ∀ out, v.set frame slot signal element value = .ok out →
        ∃ x, d.signal dir slot signal = .ok x ∧
          v.get out slot signal element =
            .ok (.ofRaw x.type (UInt64.ofNat (value.toRaw.toNat % 2 ^ x.type.width))) ∧
          (value.Fits x.type → v.get out slot signal element = .ok value)) ∧
    ∀ (r : Run) {σ : Type} (h : Handler σ) (w : World σ), w.gateway = r.state →
      ∃ frame, w.writeInputs h = (.ok (), (w.ask h (.txFrame frame)).2) ∧
        ∀ (slot signal : UInt16) (element : Nat) (x : Signal),
          r.state.config.device.signal .tx slot signal = .ok x → element < x.elements →
          ∃ v, r.state.value .tx slot signal element = .ok v ∧ v.hasType x.type = true ∧
            (r.state.view .tx).get frame slot signal element =
              .ok (v.reduced x.type.width) := by
  constructor
  · intro d dir order frame slot signal element value v hframe
    have hsize : frame.size = d.frameSize dir := hframe.trans (FrameMap.size_ofDevice d dir)
    refine ⟨exists_set_iff.trans (and_iff_right hsize), fun out hout => ?_⟩
    obtain ⟨x, hx, -, -, hget⟩ := get_of_set hout
    exact ⟨x, hx, hget, fun hfits => hget.trans (congrArg _ hfits.ofRaw_mod)⟩
  · intro r σ h w hw
    have hk := r.coherent
    obtain ⟨frame, hpack, hwrite⟩ := World.writeInputs_eq h (w := w) (by rw [hw]; exact hk)
    refine ⟨frame, hwrite, fun slot signal element x hx helement => ?_⟩
    rw [hw, Gateway.packInputs, hk.view_eq] at hpack
    have hsize : (r.state.blankFrame .tx).size = r.state.config.device.frameSize .tx := by
      rw [Gateway.blankFrame, size_zeroBytes, hk.size_layout]
    obtain ⟨packed, hpacked, hlen, hholds, -⟩ :=
      pack_ownView hk.device_valid r.state.settings.order (hk.image .tx) hsize
    -- the frame that was packed is the one that is handed over
    cases hpacked.symm.trans hpack
    rw [hk.view_eq]
    exact get_of_frameHolds (hk.image .tx) (hlen.trans hsize) hholds hx helement

/-- A device with signed numbers, a real and five raw bits. -/
def signedDevice : Device where
  name := "signed"
  slots := #[{
    name := "only"
    inputs := #[⟨"rate", .real32, none⟩, ⟨"five", .bitfield 5, none⟩]
    outputs := #[⟨"levels", .int16, some 2⟩, ⟨"rate", .real32, none⟩, ⟨"five", .bitfield 5, none⟩] }]

/-- A run that sets its inputs to a pattern that is no number, and to a value for another type. -/
def signedRun : Run :=
  (Run.ofValid { order := .big } signedDevice (by decide +kernel)).andThen
    [.setValue 0 0 0 (.real32 0xFFC00001), .setValue 0 1 0 (.int8 (-3))]

/-- A pattern that is no number comes back, of a value for another type the five lowest bits. So it
is in the frame that is handed to the adapter, where the image still has all bits. -/
theorem typed_values_survive_signed :
    (signedDevice.ownView .rx .big).set (zeroBytes 10) 0 1 0 (.real32 0xFFC00001) =
        .ok #[0, 0, 0, 0, 0xFF, 0xC0, 0, 1, 0, 0] ∧
      (signedDevice.ownView .rx .big).get #[0, 0, 0, 0, 0xFF, 0xC0, 0, 1, 0, 0] 0 1 0 =
        .ok (.real32 0xFFC00001) ∧
      (signedDevice.ownView .rx .big).set (zeroBytes 10) 0 2 0 (.int8 (-3)) =
        .ok #[0, 0, 0, 0, 0, 0, 0, 0, 0xE8, 0] ∧
      (signedDevice.ownView .rx .big).get #[0, 0, 0, 0, 0, 0, 0, 0, 0xE8, 0] 0 2 0 =
        .ok (.raw 0x1D) ∧
      signedRun.state.value .tx 0 1 0 = .ok (.raw 0xFD) ∧
      ∃ frame, World.writeInputs ⟨signedRun.state, ()⟩ .nobody =
          (.ok (), (World.ask ⟨signedRun.state, ()⟩ .nobody (.txFrame frame)).2) ∧
        (signedRun.state.view .tx).get frame 0 0 0 = .ok (.real32 0xFFC00001) ∧
        (signedRun.state.view .tx).get frame 0 1 0 = .ok (.raw 0x1D) := by
  have hlaw := typed_values_survive.1 signedDevice .rx .big (zeroBytes 10)
  have hrate : (signedDevice.ownView .rx .big).set (zeroBytes 10) 0 1 0 (.real32 0xFFC00001) =
      .ok #[0, 0, 0, 0, 0xFF, 0xC0, 0, 1, 0, 0] := by decide +kernel
  have hfive : (signedDevice.ownView .rx .big).set (zeroBytes 10) 0 2 0 (.int8 (-3)) =
      .ok #[0, 0, 0, 0, 0, 0, 0, 0, 0xE8, 0] := by decide +kernel
  obtain ⟨rate, hsignal, -, hsame⟩ := (hlaw 0 1 0 _ (by decide +kernel)).2 _ hrate
  cases (show signedDevice.signal .rx 0 1 = .ok ⟨"rate", .real32, none⟩ from rfl).symm.trans hsignal
  obtain ⟨five, hsignal, hcut, -⟩ := (hlaw 0 2 0 _ (by decide +kernel)).2 _ hfive
  cases (show signedDevice.signal .rx 0 2 = .ok ⟨"five", .bitfield 5, none⟩ from rfl).symm.trans
    hsignal
  have hfits : (Value.real32 0xFFC00001).Fits .real32 := ⟨rfl, fun _ h => nomatch h⟩
  -- in the run, each element of the frame is the value that the image has, cut to its width
  obtain ⟨frame, hwrite, helements⟩ :=
    typed_values_survive.2 signedRun .nobody ⟨signedRun.state, ()⟩ rfl
  have hinput : ∀ i x, signedRun.state.config.device.signal .tx 0 i = .ok x → 0 < x.elements →
      ∀ v, signedRun.state.value .tx 0 i 0 = .ok v →
        (signedRun.state.view .tx).get frame 0 i 0 = .ok (v.reduced x.type.width) := by
    intro i x hx hsome v hv
    obtain ⟨v', hv', -, hget⟩ := helements 0 i 0 x hx hsome
    cases hv.symm.trans hv'
    exact hget
  have hpattern : signedRun.state.value .tx 0 0 0 = .ok (.real32 0xFFC00001) := by decide +kernel
  have hall : signedRun.state.value .tx 0 1 0 = .ok (.raw 0xFD) := by decide +kernel
  exact ⟨hrate, hsame hfits, hfive, hcut.trans (by decide +kernel), hall, frame, hwrite,
    hinput 0 ⟨"rate", .real32, none⟩ (by decide +kernel) (by decide) _ hpattern,
    hinput 1 ⟨"five", .bitfield 5, none⟩ (by decide +kernel) (by decide) _ hall⟩

end Fieldbus
