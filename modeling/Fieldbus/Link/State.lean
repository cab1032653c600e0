import Fieldbus.Journal.Outbox
/-!
Changing the status: every actual change is journalled and sent to the host, and nothing else is.

Setting flags that are set already is no change, nor is clearing flags that are not. A message has
the whole status, with all flags and not only those that have changed, so the host needs the last
one only.
-/

namespace Fieldbus

/-- The status together with the outbox its changes go to. -/
structure Link where
  status : Status := {}
  outbox : Outbox

namespace Link

/-- Replaces the status; tells whether it changed. -/
def update (l : Link) (new : Status) : Bool × Link :=
  if new = l.status then (false, l)
  else (true, { status := new, outbox := (l.outbox.note (.statusChanged new)).post (.status new) })

/-- Sets flags; tells whether the status changed. -/
def set (l : Link) (flags : UInt32) : Bool × Link := l.update (l.status.withFlags flags)

/-- Clears flags; tells whether the status changed. -/
def clear (l : Link) (flags : UInt32) : Bool × Link := l.update (l.status.withoutFlags flags)

theorem status_update (l : Link) (new : Status) : (l.update new).2.status = new := by
  unfold update; split <;> simp_all

end Link
end Fieldbus
