import Fieldbus.Peer.Request
/-!
An adapter in memory: it keeps the frames it is given, hands out a frame set beforehand, and
records what it is told. With it a gateway runs without any fieldbus.

It never calls back, and fails to serve the transport only where it was set to. So it is the
plainest of adapters.
-/

namespace Fieldbus

/-- The memory of such an adapter. -/
structure MemoryAdapter where
  /-- The last input frame it was given. -/
  tx : Bytes := #[]
  /-- The output frame it hands out. -/
  rx : Bytes := #[]
  /-- Faults it was told, oldest first. -/
  faults : Array Fault := #[]
  /-- What serving the transport fails with, if it is to fail. -/
  failure : Option Fault := none
  /-- How often it was asked to serve the transport. -/
  services : Nat := 0
  /-- Alarms it was told of, oldest first, each with its slot and whether it was raised. -/
  alarms : Array (UInt16 × Alarm × Bool) := #[]
deriving Inhabited

namespace MemoryAdapter

/-- The first `size` bytes of a frame, with zeros for those it lacks. -/
def fill (frame : Bytes) (size : Nat) : Vector UInt8 size := Vector.ofFn fun i => frame.getD i 0

/-- Answers a request. -/
def handle (a : MemoryAdapter) : (r : Request) → r.Reply × MemoryAdapter
  | .txFrame frame => ((), { a with tx := frame })
  | .rxFrame size => (fill a.rx size, a)
  | .fault f => ((), { a with faults := a.faults.push f })
  | .service =>
    let outcome := match a.failure with
      | none => .ok ()
      | some f => .error f
    (outcome, { a with services := a.services + 1 })
  | .alarm slot alarm active => ((), { a with alarms := a.alarms.push (slot, alarm, active) })

end MemoryAdapter

example : (MemoryAdapter.fill #[1, 2, 3] 2).toArray = #[1, 2] := by decide
example : (MemoryAdapter.fill #[1] 3).toArray = #[1, 0, 0] := by decide

end Fieldbus
