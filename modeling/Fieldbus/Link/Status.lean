import Fieldbus.Text.Record
/-!
Status flags of the gateway, and the mask that selects the cyclic indications.

Both are words of 32 bits. All bits are kept, also those without a meaning.
-/

namespace Fieldbus

/-! ## Status

Setting and clearing are by mask, so several flags are changed at once and told of by one message. -/

/-- The status flags, as one word. -/
structure Status where
  bits : UInt32 := 0
deriving DecidableEq, Repr, Inhabited

namespace Status

/-- A device configuration is active. -/
def configured : UInt32 := 1
/-- The host and the gateway are in contact. -/
def connected : UInt32 := 2
/-- A controller exchanges data with the device. -/
def running : UInt32 := 4
/-- The watchdog supervises the contact with the host. -/
def watchdog : UInt32 := 8
/-- Flags that fall when the contact is lost. -/
def connectionDependent : UInt32 := connected ||| running

/-- Whether any of the given flags is set. -/
def has (s : Status) (flag : UInt32) : Bool := s.bits &&& flag != 0

/-- The status with the given flags set. -/
def withFlags (s : Status) (flags : UInt32) : Status := ⟨s.bits ||| flags⟩

/-- The status with the given flags cleared. -/
def withoutFlags (s : Status) (flags : UInt32) : Status := ⟨s.bits &&& ~~~flags⟩

/-- The flags with a name, then the number made of the others. -/
def record (s : Status) : RecordText where
  name := "Status"
  fields :=
    [ ("configured", toString (s.has configured)), ("connected", toString (s.has connected)),
      ("running", toString (s.has running)), ("watchdog", toString (s.has watchdog)),
      ("reserved_i", toString (s.bits >>> 4).toNat) ]

end Status

/-! ## Cyclic indications

Two bits have a meaning, and the rest is kept. -/

/-- Selects the indications sent in every cycle. -/
structure CycleMask where
  bits : UInt32 := 0
deriving DecidableEq, Repr, Inhabited

namespace CycleMask

/-- No indication per cycle: the host is only polled. -/
def freeRunning : CycleMask := ⟨0⟩

/-- Both indications in every cycle. -/
def synchronous : CycleMask := ⟨3⟩

/-- Whether outputs received from the controller are indicated. -/
def avail (m : CycleMask) : Bool := m.bits &&& 1 != 0

/-- Whether inputs requested by the controller are indicated. -/
def sync (m : CycleMask) : Bool := m.bits &&& 2 != 0

/-- The bits with a name, then the number made of the others. -/
def record (m : CycleMask) : RecordText where
  name := "EventMask"
  fields :=
    [ ("avail", toString m.avail), ("sync", toString m.sync),
      ("reserved_i", toString (m.bits >>> 2).toNat) ]

end CycleMask

example : CycleMask.synchronous.avail = true ∧ CycleMask.synchronous.sync = true := by decide
example : (Status.mk 7).withoutFlags Status.connectionDependent = ⟨1⟩ := by decide

end Fieldbus
