import Fieldbus.Proofs.Coherence
/-!
Round trips: images through frames, and frames through images.

An image that is packed and unpacked comes back, but for bits of its elements that no signal has
room for. A frame that is unpacked and packed into itself comes back as it is. What a frame has
besides the image is its padding: packing leaves it alone, so frames made from zeros have none set.

The two are not inverse to each other. From images to frames and back loses the bits above the
width, and padding can never come out of an image. From frames to images and back loses nothing, for
a frame that is packed into is the one that was unpacked, with its padding in it.

Both are drawn from the laws of what a frame holds, for either direction and either order of bits,
and for an image of the right shape that may come from anywhere.
-/

namespace Fieldbus

variable {d : Device} {dir : Direction}

/-- What is unpacked from a packed frame is the image that was packed, reduced; the other direction
is as it was. -/
theorem exists_unpack_of_holds (hd : d.Valid) {order : ByteOrder} {p : ProcessImage}
    (hp : Shaped d dir (p.slots dir)) {frame : Bytes} (hframe : frame.size = d.frameSize dir)
    (h : FrameHolds d dir order frame (p.slots dir)) (q : ProcessImage) :
    ∃ q', q.unpack (d.ownView dir order) frame = .ok q' ∧
      q'.slots dir = reducedSlots d dir (p.slots dir) ∧
      ∀ other, other ≠ dir → q'.slots other = q.slots other := by
  obtain ⟨read, hread, hreads, hunpack⟩ := unpack_ownView hd order hframe
  refine ⟨q.withSlots dir read, hunpack q, ?_, fun other hne =>
    ProcessImage.slots_withSlots_of_ne q hne read⟩
  rw [ProcessImage.slots_withSlots]
  exact hreads.eq_reducedSlots hread hp h

/-- **A frame is restored by packing what was unpacked from it.** -/
theorem exists_pack_of_unpack (hd : d.Valid) (order : ByteOrder) {frame : Bytes}
    (hframe : frame.size = d.frameSize dir) (q : ProcessImage) :
    ∃ q', q.unpack (d.ownView dir order) frame = .ok q' ∧
      q'.pack (d.ownView dir order) frame = (.ok (), frame) := by
  obtain ⟨read, hread, hreads, hunpack⟩ := unpack_ownView hd order hframe
  have hslots : (q.withSlots dir read).slots dir = read := ProcessImage.slots_withSlots q dir read
  refine ⟨q.withSlots dir read, hunpack q, ?_⟩
  apply FrameHolds.pack_self hd
  · rw [hslots]
    exact hread
  · exact hframe
  · rw [hslots]
    exact hreads.holds

/-- The inputs that are written have all padding clear. -/
theorem World.padding_writeInputs {σ : Type} (h : Handler σ) {w : World σ}
    (hk : w.gateway.config.Coherent) :
    ∃ frame, w.writeInputs h = (.ok (), (w.ask h (.txFrame frame)).2) ∧
      ∀ b, (w.gateway.view .tx).Padding b → bitAt w.gateway.settings.order frame b = false := by
  obtain ⟨frame, hpack, hwrite⟩ := World.writeInputs_eq h hk
  refine ⟨frame, hwrite, fun b hb => ?_⟩
  have hsize : (w.gateway.blankFrame .tx).size = w.gateway.config.device.frameSize .tx := by
    rw [Gateway.blankFrame, size_zeroBytes, hk.size_layout]
  rw [Gateway.packInputs, hk.view_eq] at hpack
  rw [hk.view_eq] at hb
  obtain ⟨packed, hpacked, hlen, -, hout⟩ :=
    pack_ownView hk.device_valid w.gateway.settings.order (hk.image .tx) hsize
  rw [hpacked] at hpack
  cases hpack
  rcases Nat.lt_or_ge b (8 * frame.size) with hlt | hge
  · rw [hlen, hsize] at hlt
    rw [hout b ((padding_ownView hk.device_valid hlt).1 hb)]
    exact bitAt_zeroBytes ..
  · exact bitAt_of_size_le _ hge

/-- **Frames and images of a valid device go into each other.** In either direction, with either
order of bits:

* an image of the device's shape, whatever its elements, is packed into any frame of the right
  length. Unpacking that frame into any image gives the image back, each element reduced to the
  width of its signal, and leaves the other direction alone. Packing touches no padding, so two
  frames that the image is packed into differ at most there;
* any frame of the right length is unpacked, and packing the result into it gives the same frame;
* the inputs that a gateway writes have all padding clear. -/
theorem frame_roundTrip (d : Device) (hd : d.validate = .ok ()) (dir : Direction)
    (order : ByteOrder) :
    (∀ (p : ProcessImage) (frame : Bytes), Shaped d dir (p.slots dir) →
      frame.size = (FrameMap.ofDevice d dir).size →
      ∃ packed, p.pack (d.ownView dir order) frame = (.ok (), packed) ∧
        packed.size = frame.size ∧
        (∀ q : ProcessImage, ∃ q', q.unpack (d.ownView dir order) packed = .ok q' ∧
          q'.slots dir = reducedSlots d dir (p.slots dir) ∧
          ∀ other, other ≠ dir → q'.slots other = q.slots other) ∧
        (∀ b, (d.ownView dir order).Padding b → bitAt order packed b = bitAt order frame b) ∧
        ∀ frame' packed', frame'.size = frame.size →
          p.pack (d.ownView dir order) frame' = (.ok (), packed') →
          ∀ b, bitAt order packed b ≠ bitAt order packed' b → (d.ownView dir order).Padding b) ∧
    (∀ (q : ProcessImage) (frame : Bytes), frame.size = (FrameMap.ofDevice d dir).size →
      ∃ q', q.unpack (d.ownView dir order) frame = .ok q' ∧
        q'.pack (d.ownView dir order) frame = (.ok (), frame)) ∧
    ∀ (r : Run) {σ : Type} (h : Handler σ) (w : World σ), w.gateway = r.state →
      ∃ frame, w.writeInputs h = (.ok (), (w.ask h (.txFrame frame)).2) ∧
        ∀ b, (w.gateway.view .tx).Padding b →
          bitAt w.gateway.settings.order frame b = false := by
  have hv := (Device.validate_eq_ok_iff d).1 hd
  rw [FrameMap.size_ofDevice]
  refine ⟨?_, fun q frame hframe => exists_pack_of_unpack hv order hframe q, ?_⟩
  · intro p frame hp hframe
    obtain ⟨packed, hpacked, hsize, hholds, hout⟩ := pack_ownView hv order hp hframe
    refine ⟨packed, hpacked, hsize, ?_, ?_, ?_⟩
    · exact exists_unpack_of_holds hv hp (hsize.trans hframe) hholds
    · intro b hb
      rcases Nat.lt_or_ge b (8 * d.frameSize dir) with hlt | hge
      · exact hout b ((padding_ownView hv hlt).1 hb)
      · rw [bitAt_of_size_le _ (by rw [hsize, hframe]; exact hge),
          bitAt_of_size_le _ (by rw [hframe]; exact hge)]
    · intro frame' packed' hframe' hpack' b hne
      -- packing has one result, so what the law says of some packed frame it says of this one
      obtain ⟨other, hother, hsize', hholds', -⟩ :=
        pack_ownView hv order hp (hframe'.trans hframe)
      rw [hother] at hpack'
      cases hpack'
      rcases Nat.lt_or_ge b (8 * d.frameSize dir) with hlt | hge
      · -- where the image puts something, both frames hold it
        exact (padding_ownView hv hlt).2 fun i hi => hne (hholds.bitAt_eq hholds' hp hi)
      · rw [bitAt_of_size_le _ (by rw [hsize, hframe]; exact hge),
          bitAt_of_size_le _ (by rw [hsize', hframe', hframe]; exact hge)] at hne
        exact absurd rfl hne
  · intro r σ h w hw
    exact World.padding_writeInputs h (by rw [hw]; exact r.coherent)

/-- A device with gaps in its frames: three flags take a byte, three values of five bits two. -/
def gappedDevice : Device where
  name := "gapped"
  slots := #[
    { name := "first", inputs := #[⟨"flags", .bool, some 3⟩, ⟨"fives", .bitfield 5, some 3⟩] },
    { name := "second", inputs := #[⟨"word", .uint16, none⟩] }]

/-- An image of it with bits that its signals have no room for. -/
def gappedImage : ProcessImage where
  tx := #[⟨#[#[1, 2, 3], #[0x21, 0x3E, 7]], 0xA5⟩, ⟨#[#[0x51234]], 0x5A⟩]

theorem frame_roundTrip_gapped :
    gappedDevice.validate = .ok () ∧
      ∃ packed, gappedImage.pack (gappedDevice.ownView .tx .big) (Array.replicate 7 0xFF) =
          (.ok (), packed) ∧
        ∀ q : ProcessImage, ∃ q', q.unpack (gappedDevice.ownView .tx .big) packed = .ok q' ∧
          q'.tx = #[⟨#[#[1, 0, 1], #[1, 0x1E, 7]], 0xA5⟩, ⟨#[#[0x1234]], 0x5A⟩] ∧ q'.rx = q.rx := by
  have hvalid : gappedDevice.validate = .ok () := by
    simp [Device.validate, validateSlots, Slot.validate, gappedDevice, maxItems]
  obtain ⟨hpack, -, -⟩ := frame_roundTrip gappedDevice hvalid .tx .big
  obtain ⟨packed, hpacked, -, hback, -⟩ := hpack gappedImage (Array.replicate 7 0xFF)
    (by unfold Shaped; decide +kernel) (by decide +kernel)
  refine ⟨hvalid, packed, hpacked, fun q => ?_⟩
  obtain ⟨q', hq', hslots, hother⟩ := hback q
  have hreduced : reducedSlots gappedDevice .tx (gappedImage.slots .tx) =
      #[⟨#[#[1, 0, 1], #[1, 0x1E, 7]], 0xA5⟩, ⟨#[#[0x1234]], 0x5A⟩] := by decide +kernel
  exact ⟨q', hq', hslots.trans hreduced, hother .rx (by decide)⟩

end Fieldbus
