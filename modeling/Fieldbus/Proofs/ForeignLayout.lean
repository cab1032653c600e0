import Fieldbus.Proofs.GuardedFrames
/-!
Layouts of another device.

Nothing makes sure that the device and the layout of a view belong together, nor that an image was
made for either of them. Signals may be missing in the layout, or have a place there that ends
before their last element does; the frame is only known to be as long as the layout says.

What can be relied on even so: the places of every layout lie within its frames, so no access stops
(`WordView.Sound.exact`), and what was read without an error has the shape of the device
(`FrameView.shaped_of_unpack`).

The shape that is wanted is the one of the device, and the length of the frame is the one of the
layout. So a frame may be read without an error as a device it was not made for, if it is long
enough everywhere; that is safe, and is all that is claimed here.

The device in the view has to be valid for one reason: its indices have to be ones that a counter
can have. The device of the layout has to be valid for the layout to have been computed from it.
-/

namespace Fieldbus

/-- The layouts that there are: the default, which maps no frame, and those of valid devices. -/
inductive WordFrameMap.Computed : WordFrameMap → Prop
  | default : Computed {}
  | ofDevice {d : Device} (hd : d.validate = .ok ()) (dir : Direction) : Computed (ofDevice d dir)

/-- **All layouts that there are have their places within their frames.** -/
theorem WordView.sound_of_computed {v : WordView} (h : v.map.Computed) : v.Sound := by
  obtain ⟨device, map, order⟩ := v
  cases h with
  | default =>
    refine ⟨fun s hs => ?_, Nat.zero_le _⟩
    rw [WordFrameMap.plain, Array.map_empty] at hs
    exact absurd hs (Array.not_mem_empty s)
  | ofDevice hd dir => exact sound_ofDevice ((Device.validate_eq_ok_iff _).1 hd) dir device order

/-- **No layout leads out of a frame.** For a valid device, a layout that was computed for this or
for another valid device, or for none, and for all frames, images and indices:

* every access ends, with a result or an error: nothing outside the frame is touched, and the result
  is that of the access in numbers;
* whatever is written, and whether that succeeds or not, the frame keeps its length;
* an image that could not be read into is as before. If it could, then the direction that the layout
  is for has the shape of the device, and the other direction is as before. -/
theorem safe_with_any_layout (v : WordView) (hd : v.device.validate = .ok ())
    (hmap : v.map.Computed) :
    v.Exact ∧
    (∀ frame : Bytes,
      (∀ slot signal values outcome out,
        v.pack frame slot signal values = some (outcome, out) → out.size = frame.size) ∧
      (∀ slot signal element value out,
        v.set frame slot signal element value = some (.ok out) → out.size = frame.size) ∧
      (∀ slot status out,
        v.setStatus frame slot status = some (.ok out) → out.size = frame.size) ∧
      ∀ p outcome out, v.packImage p frame = some (outcome, out) → out.size = frame.size) ∧
    ∀ p frame,
      (∀ e q, v.unpackImage p frame = some (.error e, q) → q = p) ∧
      ∀ q, v.unpackImage p frame = some (.ok (), q) → ∃ dir, v.map.direction = some dir ∧
        Shaped v.device dir (q.slots dir) ∧
        ∀ other, other ≠ dir → q.slots other = p.slots other := by
  -- all that is to be shown is of access in numbers
  have hexact := (WordView.sound_of_computed hmap).exact
  refine ⟨hexact, fun frame => ⟨?_, ?_, ?_, ?_⟩, fun p frame => ⟨fun e q h => ?_, fun q h => ?_⟩⟩
  · intro slot signal values outcome out h
    have hsize := v.plain.size_pack frame slot signal values
    rw [hexact.pack, Option.some_inj] at h
    rwa [h] at hsize
  · intro slot signal element value out h
    rw [hexact.set, Option.some_inj] at h
    exact FrameView.size_of_set h
  · intro slot status out h
    rw [hexact.setStatus, Option.some_inj] at h
    exact FrameView.size_of_setStatus h
  · intro p outcome out h
    have hsize := p.size_pack (v := v.plain) frame
    rw [hexact.packImage, Option.some_inj] at h
    rwa [h] at hsize
  · rw [hexact.unpackImage] at h
    cases hunpack : p.unpack v.plain frame <;> rw [hunpack] at h <;> cases h
    rfl
  · rw [hexact.unpackImage] at h
    cases hunpack : p.unpack v.plain frame <;> rw [hunpack] at h <;> cases h
    exact FrameView.shaped_of_unpack ((Device.validate_eq_ok_iff _).1 hd) hunpack

/-- A device with one signal of one element. -/
def oneSignalDevice (type : DataType) : Device where
  name := "single"
  slots := #[{ name := "only", inputs := #[⟨"only", type, none⟩] }]

/-- A signal of one byte that is read by the layout of one with eight, and the other way round. -/
theorem safe_with_any_layout_single :
    let narrow : WordView := ⟨oneSignalDevice .uint8, .ofDevice (oneSignalDevice .uint64) .tx, .big⟩
    let wide : WordView := ⟨oneSignalDevice .uint64, .ofDevice (oneSignalDevice .uint8) .tx, .big⟩
    narrow.unpackImage {} #[7, 0, 0, 0, 0, 0, 0, 0, 1] =
        some (.ok (), { tx := #[⟨#[#[7]], 1⟩] }) ∧
      Shaped (oneSignalDevice .uint8) .tx #[⟨#[#[7]], 1⟩] ∧
      wide.unpackImage {} #[7, 1] = some (.error (.ofAccess (.tooShort 2)), {}) ∧
      wide.Exact := by
  intro narrow wide
  have hvalid : ∀ type, (oneSignalDevice type).validate = .ok () := by
    intro type
    simp [Device.validate, validateSlots, Slot.validate, oneSignalDevice, maxItems]
  obtain ⟨-, -, hread⟩ := safe_with_any_layout narrow (hvalid _) (.ofDevice (hvalid _) .tx)
  obtain ⟨hexact, -, -⟩ := safe_with_any_layout wide (hvalid _) (.ofDevice (hvalid _) .tx)
  have hok : narrow.unpackImage {} #[7, 0, 0, 0, 0, 0, 0, 0, 1] =
      some (.ok (), { tx := #[⟨#[#[7]], 1⟩] }) := by decide +kernel
  obtain ⟨dir, hdir, hshaped, -⟩ := (hread _ _).2 _ hok
  cases (show some Direction.tx = some dir from hdir)
  exact ⟨hok, hshaped, by decide +kernel, hexact⟩

end Fieldbus
