import Fieldbus.Alarm
import Fieldbus.Device.Validity
import Fieldbus.Frame.Image
import Fieldbus.Param.Store
/-!
A configuration: a valid device with all that is kept for it.

Layouts, parameters, process image and alarms all have the shape of the device, so they are made
together and replaced together.

To make them together is also to check them together: a device is validated before anything is made
of it, so a configuration that exists is one of a valid device. And to replace them together means
that nothing of the device before is left: pending writes and active alarms go with it.
-/

namespace Fieldbus

/-- A device with all that is kept for it. -/
structure Configuration where
  device : Device
  layout : DeviceLayout
  params : ParamStore
  image : ProcessImage
  alarms : AlarmSet

namespace Configuration

/-- The configuration of a device as it is at first: parameters at their defaults, all process data
zero, no alarm. Only valid devices have one. -/
def ofDevice (d : Device) : Except Error Configuration :=
  match d.validate with
  | .error e => .error e
  | .ok () =>
    match ParamStore.ofDevice d with
    | .error e => .error e
    | .ok params =>
      .ok
        { device := d
          layout := DeviceLayout.ofDevice d
          params
          image := ProcessImage.zero d
          alarms := AlarmSet.none d }

/-- A configuration is of the device it was asked for, and that device is valid. -/
theorem valid_of_ofDevice {d : Device} {c : Configuration} (h : ofDevice d = .ok c) :
    c.device = d ∧ d.validate = .ok () := by
  unfold ofDevice at h
  split at h
  · cases h
  · next hv =>
    split at h
    · cases h
    · cases h; exact ⟨rfl, hv⟩

end Configuration
end Fieldbus
