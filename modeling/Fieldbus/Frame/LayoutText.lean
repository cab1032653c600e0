import Fieldbus.Frame.Layout
/-!
Frame layouts in words: one line per slot, and per slot one line for each signal and status byte of
either direction, with its offset and size.
-/

namespace Fieldbus

/-- One line about a stretch of a frame. -/
def stretchLine (label : String) (offset size : Nat) (what : String) : String :=
  "  " ++ label ++ " " ++ padLeft (toString offset) 5 ' ' ++ "  " ++ padLeft (toString size) 3 ' '
    ++ " bytes  " ++ what ++ "\n"

/-- The lines about one direction of the slot at index `slot`. -/
def directionLines (m : FrameMap) (label : String) (slot : Nat) (signals : Array Signal) : String :=
  let slotIndex := UInt16.ofNat slot
  let lines := signals.toList.zipIdx.map fun (s, i) =>
    stretchLine label ((m.signalOffset slotIndex (UInt16.ofNat i)).getD 0) s.byteSize
      (s.type.text ++ " " ++ quoted s.name)
  let status := match m.statusOffset slotIndex with
    | none => ""
    | some offset => stretchLine label offset 1 "status"
  String.join lines ++ status

/-- The lines about the slot at index `slot`. -/
def slotLines (l : DeviceLayout) (slot : Nat) (s : Slot) : String :=
  s!"slot {slot} {quoted s.name}\n"
    ++ directionLines l.tx "tx" slot s.inputs ++ directionLines l.rx "rx" slot s.outputs

/-- The layouts of a device, with the names and sizes of what they place. -/
def DeviceLayout.text (l : DeviceLayout) (d : Device) : String :=
  s!"tx frame {l.tx.size} bytes, rx frame {l.rx.size} bytes\n"
    ++ String.join (d.slots.toList.zipIdx.map fun (s, i) => slotLines l i s)

end Fieldbus
