import Fieldbus.Peer.Memory
import Fieldbus.Proofs.Coherence
import Fieldbus.Proofs.Contact
/-!
Outputs that are fetched while the device may be replaced.

To read its outputs, a gateway asks the adapter for a frame as long as those of its device. Until
the frame is there, the adapter may call back and others may have their turn, so by then another
device may be in place. The frame is unpacked as that one has it; what is looked at before is the
length of the frame (`Gateway.unpackOutputs_of_size`, `Gateway.unpackOutputs_of_ne`).

How frames are laid out and read is decided by the form of a device, the types of its signals and
the numbers of their elements (`FrameMap.ofDevice_congr`, `ProcessImage.unpack_congr`). So outputs
are read as what they were asked for if no device was put in place meanwhile, as with peers that
never call for one (`World.device_ask`, `Environment.fairBy_keepsDevice`), or one with outputs of
the same form. Of all others only those are found out whose output frames have another length: any
device with frames of the same length can take the place of the one that the frame was asked for,
and then the frame is read as one of its own (`Run.readOutputs_replacing`).

Nothing in a frame says which device it was made for. What is read is an image of the device in
place, and the gateway stays coherent; whether its values are those that the adapter meant is not
looked at, and could only be told by comparing devices and not lengths.
-/

namespace Fieldbus

/-! ## The form of a device

Names and defaults have nothing to do with frames. What a layout is made from is the list of types
and numbers of elements, slot by slot; devices with the same one have the same layout, and all that
reading asks of the device is in it as well. Each lemma carries this through one loop. -/

/-- What a signal is for those who lay it out or read it. -/
def Signal.form (x : Signal) : DataType × Nat := (x.type, x.elements)

/-- The forms of the signals of one direction, slot by slot. -/
def Device.form (d : Device) (dir : Direction) : Array (Array (DataType × Nat)) :=
  d.slots.map fun s => (s.signals dir).map Signal.form

/-- A loop that looks at one feature of its items does the same with items that have the same. -/
theorem foldl_eq_of_map_eq {α β γ : Type} {feature : α → β} {step : γ → α → γ}
    (hstep : ∀ st x y, feature x = feature y → step st x = step st y) {xs ys : Array α}
    (h : xs.map feature = ys.map feature) (st : γ) : xs.foldl step st = ys.foldl step st := by
  -- both are taken apart together, so the induction is on lists
  have hlists : ∀ (xs ys : List α) (st : γ), xs.map feature = ys.map feature →
      xs.foldl step st = ys.foldl step st := by
    intro xs
    induction xs with
    | nil =>
      intro ys st h
      rw [List.map_eq_nil_iff.1 h.symm]
    | cons x rest ih =>
      intro ys st h
      cases ys with
      | nil => cases h
      | cons y others =>
        obtain ⟨hx, hrest⟩ := List.cons.inj h
        rw [List.foldl_cons, List.foldl_cons, hstep st x y hx]
        exact ih others _ hrest
  rw [← Array.foldl_toList, ← Array.foldl_toList]
  exact hlists _ _ st (by rw [← Array.toList_map, ← Array.toList_map, h])

theorem Signal.byteSize_congr {x y : Signal} (h : x.form = y.form) : x.byteSize = y.byteSize := by
  obtain ⟨htype, helements⟩ := Prod.mk.inj h
  unfold byteSize bitSize width
  rw [htype, helements]

theorem SlotMap.ofSignals_congr {xs ys : Array Signal} (h : xs.map Signal.form = ys.map Signal.form)
    (start : Nat) : ofSignals start xs = ofSignals start ys :=
  foldl_eq_of_map_eq (fun m x y hxy => by rw [place, place, Signal.byteSize_congr hxy]) h _

section Form
variable {d d' : Device} {dir : Direction}

/-- **Devices of the same form have the same layout.** -/
theorem FrameMap.ofDevice_congr (h : d.form dir = d'.form dir) :
    ofDevice d dir = ofDevice d' dir :=
  foldl_eq_of_map_eq (fun m s s' hs => by rw [place, place, SlotMap.ofSignals_congr hs]) h _

/-- Devices of the same form have signals of the same form at the same indices. -/
theorem Device.signal_congr (h : d.form dir = d'.form dir) (i j : UInt16) :
    (d.signal dir i j).map Signal.form = (d'.signal dir i j).map Signal.form := by
  have hslot := congrArg (fun form => form[i.toNat]?) h
  simp only [form, Array.getElem?_map] at hslot
  unfold signal slot?
  cases hs : d.slots[i.toNat]? with
  | none =>
    rw [hs, Option.map_none] at hslot
    rw [Option.map_eq_none_iff.1 hslot.symm]
  | some s =>
    rw [hs, Option.map_some] at hslot
    obtain ⟨s', hs', hforms⟩ := Option.map_eq_some_iff.1 hslot.symm
    rw [hs']
    have hsignal := congrArg (fun forms => forms[j.toNat]?) hforms
    simp only [Array.getElem?_map] at hsignal
    dsimp only
    cases hx : (s.signals dir)[j.toNat]? with
    | none =>
      rw [hx, Option.map_none] at hsignal
      rw [Option.map_eq_none_iff.1 hsignal]
    | some x =>
      rw [hx, Option.map_some] at hsignal
      obtain ⟨y, hy, hform⟩ := Option.map_eq_some_iff.1 hsignal
      rw [hy]
      exact congrArg Except.ok hform.symm

/-- Where a layout puts the elements of a signal depends on the device by its form only. -/
theorem FrameView.field_congr (h : d.form dir = d'.form dir) {m : FrameMap}
    (hm : m.direction = some dir) (order : ByteOrder) (i j : UInt16) :
    field ⟨d, m, order⟩ i j = field ⟨d', m, order⟩ i j := by
  have hsignal := Device.signal_congr h i j
  unfold field signal direction
  dsimp only
  rw [hm]
  dsimp only
  cases hx : d.signal dir i j <;> cases hy : d'.signal dir i j <;> rw [hx, hy] at hsignal
  case error.error => cases hsignal; rfl
  case ok.ok x y =>
    obtain ⟨htype, helements⟩ := Prod.mk.inj (Except.ok.inj hsignal)
    dsimp only [Signal.width]
    rw [htype, helements]
  all_goals cases hsignal

theorem FrameView.unpackField_congr (h : d.form dir = d'.form dir) {m : FrameMap}
    (hm : m.direction = some dir) (order : ByteOrder) (frame : Bytes) (i j : UInt16) :
    unpackField ⟨d, m, order⟩ frame i j = unpackField ⟨d', m, order⟩ frame i j := by
  unfold unpackField
  rw [field_congr h hm]

namespace ProcessImage
variable {m : FrameMap} {order : ByteOrder} {frame : Bytes}

theorem unpackSignals_congr (h : d.form dir = d'.form dir) (hm : m.direction = some dir)
    (slot : UInt16) (count signal : Nat) (read : Array (Array UInt64)) :
    unpackSignals ⟨d, m, order⟩ frame slot signal count read =
      unpackSignals ⟨d', m, order⟩ frame slot signal count read := by
  induction count generalizing signal read with
  | zero => rfl
  | succ count ih =>
    rw [unpackSignals, unpackSignals, FrameView.unpackField_congr h hm]
    cases FrameView.unpackField ⟨d', m, order⟩ frame slot (UInt16.ofNat signal) with
    | error e => rfl
    | ok values => exact ih _ _

/-- Slots of the same forms are read alike. -/
theorem unpackSlots_congr (h : d.form dir = d'.form dir) (hm : m.direction = some dir)
    {slots slots' : List Slot}
    (hslots : slots.map (fun s => (s.signals dir).map Signal.form) =
      slots'.map fun s => (s.signals dir).map Signal.form) (slot : Nat) (read : Array SlotImage) :
    unpackSlots ⟨d, m, order⟩ dir frame slot slots read =
      unpackSlots ⟨d', m, order⟩ dir frame slot slots' read := by
  induction slots generalizing slots' slot read with
  | nil =>
    rw [List.map_eq_nil_iff.1 hslots.symm]
    rfl
  | cons s rest ih =>
    cases slots' with
    | nil => cases hslots
    | cons s' rest' =>
      obtain ⟨hs, hrest⟩ := List.cons.inj hslots
      have hcount : (s.signals dir).size = (s'.signals dir).size := by
        have hsizes := congrArg Array.size hs
        rwa [Array.size_map, Array.size_map] at hsizes
      -- a status byte is looked up in the layout alone
      have hstatus : FrameView.status ⟨d, m, order⟩ frame (UInt16.ofNat slot) =
          FrameView.status ⟨d', m, order⟩ frame (UInt16.ofNat slot) := rfl
      rw [unpackSlots, unpackSlots, unpackSignals_congr h hm, hcount, hstatus]
      cases unpackSignals ⟨d', m, order⟩ frame (UInt16.ofNat slot) 0 (s'.signals dir).size #[] with
      | error e => rfl
      | ok signals =>
        cases FrameView.status ⟨d', m, order⟩ frame (UInt16.ofNat slot) with
        | error e => rfl
        | ok status => exact ih hrest _ _

/-- **A frame reads the same by devices of the same form.** -/
theorem unpack_congr (h : d.form dir = d'.form dir) (p : ProcessImage) :
    p.unpack (d.ownView dir order) frame = p.unpack (d'.ownView dir order) frame := by
  have hlists : d.slots.toList.map (fun s => (s.signals dir).map Signal.form) =
      d'.slots.toList.map fun s => (s.signals dir).map Signal.form := by
    rw [← Array.toList_map, ← Array.toList_map]
    exact congrArg Array.toList h
  have hread := @unpackSlots_congr d d' dir (FrameMap.ofDevice d dir) order frame h
    (FrameMap.ofDevice_direction d dir) _ _ hlists 0 #[]
  unfold unpack
  rw [Device.direction_ownView, Device.direction_ownView]
  unfold Device.ownView FrameView.checkSize
  rw [← FrameMap.ofDevice_congr h]
  dsimp only
  rw [hread]

end ProcessImage
end Form

/-! ## The device by the time the frame is there

The device of a gateway is changed by one change, and that is made by one operation. So peers that
never call it leave the device in place, which is a conduct. -/

namespace Gateway
variable {g g' : Gateway} {frame : Bytes}

/-- A frame of the right length is read as the device has it that is in place. -/
theorem unpackOutputs_of_size (hk : g.config.Coherent)
    (hframe : frame.size = g.config.device.frameSize .rx) :
    ∃ image, g.config.image.unpack (g.config.device.ownView .rx g.settings.order) frame =
        .ok image ∧ g.unpackOutputs frame = .ok { g with config.image := image } := by
  obtain ⟨image, himage⟩ := (exists_unpack_ownView_iff hk.device_valid).2 hframe
  refine ⟨image, himage, ?_⟩
  rw [unpackOutputs, hk.view_eq, himage]

/-- A frame of another length is found out. -/
theorem unpackOutputs_of_ne (hk : g.config.Coherent)
    (hframe : frame.size ≠ g.config.device.frameSize .rx) :
    g.unpackOutputs frame = .error .frameSize := by
  rw [unpackOutputs, hk.view_eq, unpack_ownView_of_ne _ hframe]

/-- The device changes with a new configuration only. -/
theorem device_apply (g : Gateway) {c : Change} (hc : ∀ d, c ≠ .install d) :
    (g.apply c).config.device = g.config.device := by
  refine g.config_apply (P := fun k => k.device = g.config.device) c rfl fun k hk => ?_
  cases hk with
  | installed hd => exact absurd rfl (hc _)
  | _ => rfl

end Gateway

/-- The conduct of leaving the device in place. -/
def Conduct.keepsDevice : Conduct := .only fun c => ∀ d, c ≠ .install d

theorem Gateway.LeadsBy.device {g g' : Gateway} (h : g.LeadsBy .keepsDevice g') :
    g'.config.device = g.config.device := by
  obtain ⟨cs, hcs, rfl⟩ := h
  exact after_keeps (fun c hc g' hsame => (g'.device_apply (hcs c hc)).trans hsame) rfl

/-- **Only a call for another device puts one in place.** -/
theorem Op.Makes.keepsDevice {op : Op} {cs : List Change} (h : op.Makes cs)
    (hop : ∀ d, op ≠ .reconfigure d) : Conduct.keepsDevice.Allows cs := by
  refine h.forall_mem (fun c hc d hinstall => ?_) fun f => ⟨nofun, nofun⟩
  rw [hc, hinstall] at h
  cases op with
  | reconfigure d => exact absurd rfl (hop d)
  | _ => simp [Op.Makes, Works, HandsOut, Serves, Reports] at h

section Reading
variable {σ : Type}

/-- Peers that never call for another device leave the one in place. -/
theorem Environment.fairBy_keepsDevice {env : Environment σ}
    (henv : env.CallsOnly fun op => ∀ d, op ≠ .reconfigure d) (depth : Nat) :
    (env.peers depth).FairBy .keepsDevice :=
  Environment.fairBy_peers (fun _ hop _ hmakes => hmakes.keepsDevice hop) henv depth

/-- Asking leaves the device in place if those who are asked do. -/
theorem World.device_ask {h : Handler σ} (hh : h.FairBy .keepsDevice) (w : World σ)
    (request : Request) : (w.ask h request).2.gateway.config.device = w.gateway.config.device :=
  (World.leadsBy_ask hh (Conduct.only_allows_singleton nofun) w).device

/-- Outputs were read by unpacking the frame in a view, and nothing else was done. -/
def World.UnpackedBy (w : World σ) (v : FrameView) (frame : Bytes)
    (read : Except Error Unit × World σ) : Prop :=
  ∃ image, w.gateway.config.image.unpack v frame = .ok image ∧
    read = (.ok (), w.change fun g => { g with config.image := image })

variable {r : Run} {h : Handler σ} {outside : σ} {w : World σ}
  {frame : Vector UInt8 (r.state.config.layout.frame .rx).size}

/-- What is to be read is decided when the frame is there. -/
theorem World.readOutputs_eq
    (hask : ask ⟨r.state, outside⟩ h (.rxFrame (r.state.config.layout.frame .rx).size) =
      (frame, w)) :
    readOutputs ⟨r.state, outside⟩ h = w.attempt (·.unpackOutputs frame.toArray) := by
  unfold readOutputs
  rw [hask]

/-- **Outputs of the right length are read by the device in place, all others are found out.** -/
theorem Run.readOutputs_cases (hh : h.FairBy .free)
    (hask : World.ask ⟨r.state, outside⟩ h (.rxFrame (r.state.config.layout.frame .rx).size) =
      (frame, w)) :
    w.gateway.config.Coherent ∧
    (w.gateway.config.device.frameSize .rx = r.state.config.device.frameSize .rx →
      w.UnpackedBy (w.gateway.config.device.ownView .rx r.settings.order) frame.toArray
        (World.readOutputs ⟨r.state, outside⟩ h)) ∧
    (w.gateway.config.device.frameSize .rx ≠ r.state.config.device.frameSize .rx →
      World.readOutputs ⟨r.state, outside⟩ h = (.error .frameSize, w)) := by
  obtain ⟨cs, hcs⟩ := r.exists_ask hh outside (.rxFrame (r.state.config.layout.frame .rx).size)
  rw [hask] at hcs
  have hk : w.gateway.config.Coherent := hcs ▸ (r.andThen cs).coherent
  have horder : w.gateway.settings = r.settings := hcs ▸ (r.andThen cs).settings_state
  have hframe : frame.toArray.size = r.state.config.device.frameSize .rx := by
    rw [Vector.size_toArray, r.coherent.size_layout]
  rw [World.readOutputs_eq hask]
  refine ⟨hk, fun hsize => ?_, fun hsize => ?_⟩
  · obtain ⟨image, himage, hread⟩ := Gateway.unpackOutputs_of_size hk (hframe.trans hsize.symm)
    rw [horder] at himage
    exact ⟨image, himage, World.attempt_of_ok hread⟩
  · have hne : frame.toArray.size ≠ w.gateway.config.device.frameSize .rx := by
      rw [hframe]
      exact hsize.symm
    exact World.attempt_of_error (Gateway.unpackOutputs_of_ne hk hne)

/-! ## Any device can come in between

An adapter that calls for another device when it is asked for outputs, and then hands over whatever
bytes it likes, shows that nothing is ruled out: any valid device can come in between, with any
frame as long as its outputs. -/

/-- Peers with an adapter that asks for another device when it is asked for outputs. -/
def Environment.replacing (d : Device) (bytes : Bytes) : Environment σ where
  adapter
    | .rxFrame size => .call (.reconfigure d) fun _ => .done (MemoryAdapter.fill bytes size)
    | request => .done request.idle
  application _ := .done ()

/-- A valid device is in place before the frame is handed over. -/
theorem Environment.ask_replacing {d : Device} {k : Configuration}
    (hk : Configuration.ofDevice d = .ok k) (bytes : Bytes) (depth size : Nat) (w : World σ) :
    w.ask ((replacing d bytes).peers (depth + 1)) (.rxFrame size) =
      (MemoryAdapter.fill bytes size,
        w.change fun g => (g.note (.asked (.rxFrame size))).install k) := by
  have hcall (w : World σ) :
      (replacing d bytes).perform depth (.reconfigure d) w = (.ok (), w.change (·.install k)) := by
    rw [perform_eq]
    show w.reconfigure _ d = _
    rw [World.reconfigure, hk]
  -- the script goes on whatever the call answers, in the world that it leaves
  exact congrArg (fun left : _ × World σ => (MemoryAdapter.fill bytes size, left.2)) (hcall _)

/-- The outputs of a gateway are read as those of a device that is fresh in place when the frame is
there; the adapter handed out some bytes. -/
def Run.ReadsAs (r : Run) (h : Handler σ) (outside : σ) (d : Device) (bytes : Bytes) : Prop :=
  let size := (r.state.config.layout.frame .rx).size
  ∃ w, World.ask ⟨r.state, outside⟩ h (.rxFrame size) = (MemoryAdapter.fill bytes size, w) ∧
    Configuration.ofDevice d = .ok w.gateway.config ∧
    w.UnpackedBy (d.ownView .rx r.settings.order) (MemoryAdapter.fill bytes size).toArray
      (World.readOutputs ⟨r.state, outside⟩ h)

/-- **Any device with outputs as long can come in between.** The frame was asked for one device and
is read as one of the other. -/
theorem Run.readOutputs_replacing (r : Run) {d : Device} (hd : d.validate = .ok ())
    (hsize : d.frameSize .rx = r.state.config.device.frameSize .rx) (bytes : Bytes) (depth : Nat)
    (outside : σ) :
    r.ReadsAs ((Environment.replacing d bytes).peers (depth + 1)) outside d bytes := by
  obtain ⟨k, hk⟩ := Configuration.exists_ofDevice hd
  obtain rfl : k.device = d := (Configuration.valid_of_ofDevice hk).1
  have hask := Environment.ask_replacing hk bytes depth (r.state.config.layout.frame .rx).size
    ⟨r.state, outside⟩
  obtain ⟨-, hread, -⟩ := readOutputs_cases (Environment.fairBy_free _ _) hask
  exact ⟨_, hask, hk, hread hsize⟩

/-- **Outputs are known by their length alone.** A gateway asks for a frame as long as the outputs
of its device. When it is there, another device may be in place, whatever adapter, application and
others did meanwhile. Then

* if its outputs are as long, reading succeeds, and the frame is read as one of the device now in
  place;
* if they are not, reading is refused, and nothing else is done;
* if they have the same form, they are laid out the same, and the frame is read as what it was
  asked for; and if no device was put in place meanwhile, the device is the same;
* but any valid device with outputs as long can be put in place by the adapter, whatever bytes it
  hands out, and they are read as outputs of that one. -/
theorem Run.outputs_accepted_by_length (r : Run) {σ : Type} (outside : σ) :
    (∀ h : Handler σ, h.FairBy .free → ∀ frame w,
      World.ask ⟨r.state, outside⟩ h (.rxFrame (r.state.config.layout.frame .rx).size) =
        (frame, w) →
      let before := r.state.config
      let now := w.gateway.config
      let read := World.readOutputs ⟨r.state, outside⟩ h
      (now.device.frameSize .rx = before.device.frameSize .rx →
        w.UnpackedBy (now.device.ownView .rx r.settings.order) frame.toArray read) ∧
      (now.device.frameSize .rx ≠ before.device.frameSize .rx → read = (.error .frameSize, w)) ∧
      (now.device.form .rx = before.device.form .rx →
        now.layout.frame .rx = before.layout.frame .rx ∧
          w.UnpackedBy (before.device.ownView .rx r.settings.order) frame.toArray read) ∧
      (h.FairBy .keepsDevice → now.device = before.device)) ∧
    ∀ d bytes depth, d.validate = .ok () →
      d.frameSize .rx = r.state.config.device.frameSize .rx →
      r.ReadsAs ((Environment.replacing d bytes).peers (depth + 1)) outside d bytes := by
  refine ⟨fun h hh frame w hask => ?_,
    fun d bytes depth hd hsize => r.readOutputs_replacing hd hsize bytes depth outside⟩
  obtain ⟨hk, hread, hrefused⟩ := readOutputs_cases hh hask
  refine ⟨hread, hrefused, fun hform => ?_, fun hkeeps => ?_⟩
  · -- devices of one form have one layout, so their frames have one length
    have hmap := FrameMap.ofDevice_congr hform
    have hlayout : w.gateway.config.layout.frame .rx = r.state.config.layout.frame .rx := by
      rw [hk.layout, r.coherent.layout]
      exact hmap
    have hsize : w.gateway.config.device.frameSize .rx = r.state.config.device.frameSize .rx := by
      rw [← FrameMap.size_ofDevice, hmap, FrameMap.size_ofDevice]
    obtain ⟨image, himage, hdone⟩ := hread hsize
    rw [ProcessImage.unpack_congr hform] at himage
    exact ⟨hlayout, image, himage, hdone⟩
  · have hdevice := World.device_ask hkeeps ⟨r.state, outside⟩
      (.rxFrame (r.state.config.layout.frame .rx).size)
    rwa [hask] at hdevice

end Reading

/-- A device with one slot that has outputs of some types. -/
def outputsDevice (types : List DataType) : Device where
  name := "outputs"
  slots := #[{ name := "only", outputs := (types.map fun type => ⟨"output", type, none⟩).toArray }]

/-- The frame that was asked for an output of two bytes is read as two outputs of one byte, and one
that is asked for a device with a shorter frame in the end is refused. -/
theorem Run.outputs_accepted_by_length_pair :
    let word := outputsDevice [.uint16]
    let pair := outputsDevice [.uint8, .uint8]
    let frame := #[0x34, 0x12, 0x80]
    (ProcessImage.zero word).unpack (word.ownView .rx .little) frame =
        .ok { tx := #[{}], rx := #[⟨#[#[0x1234]], 0x80⟩] } ∧
      ∃ r : Run, r.state.config.device = word ∧
        (∃ w, (Environment.replacing pair frame).perform 1 .readOutputs ⟨r.state, ()⟩ =
            (.ok (), w) ∧
          w.gateway.config.device = pair ∧
          w.gateway.config.image.rx = #[⟨#[#[0x34], #[0x12]], 0x80⟩]) ∧
        ((Environment.replacing (outputsDevice [.uint8]) frame).perform 1 .readOutputs
          ⟨r.state, ()⟩).1 = .error .frameSize := by
  intro word pair frame
  have hword : word.validate = .ok () := by decide +kernel
  have hpair : pair.validate = .ok () := by decide +kernel
  have hbyte : (outputsDevice [.uint8]).validate = .ok () := by decide +kernel
  obtain ⟨r, hsettings, hr⟩ := Run.exists_of_valid {} hword
  have hdevice := (Configuration.valid_of_ofDevice hr).1
  obtain ⟨hasked, hreplaced⟩ := r.outputs_accepted_by_length ()
  refine ⟨by decide +kernel, r, hdevice, ?_, ?_⟩
  · obtain ⟨w, -, hw, image, himage, hread⟩ :=
      hreplaced pair frame 0 hpair (by rw [hdevice]; decide +kernel)
    have hfresh : w.gateway.config.image = ProcessImage.zero pair :=
      congrArg Configuration.image (Configuration.ofDevice_eq_ok hw).2.2
    have hunpacked : (ProcessImage.zero pair).unpack (pair.ownView .rx .little)
        (MemoryAdapter.fill frame (word.frameSize .rx)).toArray =
        .ok { tx := #[{}], rx := #[⟨#[#[0x34], #[0x12]], 0x80⟩] } := by decide +kernel
    rw [hfresh, hsettings, r.coherent.size_layout, hdevice] at himage
    cases himage.symm.trans hunpacked
    exact ⟨_, hread, (Configuration.valid_of_ofDevice hw).1, rfl⟩
  · obtain ⟨k, hk⟩ := Configuration.exists_ofDevice hbyte
    obtain ⟨-, hrefused, -⟩ := hasked _ (Environment.fairBy_free _ 1) _ _
      (Environment.ask_replacing hk frame 0 _ ⟨r.state, ()⟩)
    have hne : k.device.frameSize .rx ≠ r.state.config.device.frameSize .rx := by
      rw [(Configuration.valid_of_ofDevice hk).1, hdevice]
      decide +kernel
    rw [Environment.perform_eq]
    exact congrArg Prod.fst (hrefused hne)

/-- **Not all outputs that are read are laid out and typed as when they were asked for.** -/
theorem not_all_outputs_read_as_fetched :
    ¬ ∀ (r : Run) {σ : Type} (env : Environment σ) (depth : Nat) (outside : σ),
      (env.perform depth .readOutputs ⟨r.state, outside⟩).1 = .ok () →
      let fetched := (World.ask ⟨r.state, outside⟩ (env.peers depth)
        (.rxFrame (r.state.config.layout.frame .rx).size)).2.gateway.config
      fetched.layout.frame .rx = r.state.config.layout.frame .rx ∧
        fetched.device.form .rx = r.state.config.device.form .rx := by
  intro h
  obtain ⟨r, -, hr⟩ := Run.exists_of_valid {} (d := outputsDevice [.uint16]) (by decide +kernel)
  have hdevice := (Configuration.valid_of_ofDevice hr).1
  obtain ⟨w, hask, hw, image, -, hread⟩ :=
    r.readOutputs_replacing (d := outputsDevice [.uint8, .uint8]) (by decide +kernel)
      (by rw [hdevice]; decide +kernel) #[0x34, 0x12, 0x80] 0 ()
  obtain ⟨-, hform⟩ := h r _ 1 () (congrArg Prod.fst hread)
  rw [hask, hdevice, (Configuration.valid_of_ofDevice hw).1] at hform
  exact absurd hform (by decide +kernel)

end Fieldbus
