import Fieldbus.Error
import Fieldbus.Link.Status
/-!
Messages from the gateway to the host.

They tell the host that something has come up, and most carry no more than what it is. What it is
about stays in the gateway, to be asked for: a write of a parameter is announced by its indices, and
the value is taken by a call.
-/

namespace Fieldbus

/-- Something the host is to be told. -/
inductive Message where
  /-- Outputs from the controller are available. -/
  | avail
  /-- Inputs for the controller should be prepared. -/
  | sync
  /-- A parameter was written. -/
  | paramWrite (slot param : UInt16)
  /-- It is time to look around. -/
  | poll
  /-- The status changed; holds the new one. -/
  | status (s : Status)
  /-- A fault occurred. -/
  | error (fault : Fault)
deriving DecidableEq, Repr

/-- The name of each kind of message. -/
def Message.kind : Message → String
  | .avail => "AVAIL"
  | .sync => "SYNC"
  | .paramWrite _ _ => "PARAM_WRITE_IND"
  | .poll => "POLL_IND"
  | .status _ => "STATUS_IND"
  | .error _ => "ERROR_IND"

end Fieldbus
