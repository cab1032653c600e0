import Fieldbus.Journal.Outbox
import Fieldbus.Param.Memory
/-!
The parameter store: the current values, and the writes the host has not seen.

Every write is announced to the host by a message and remembered as pending until the host takes
it. A parameter is pending once, however often it is written, and holds its place from its first
write; what the host gets is the value at the time it takes it. So no write is lost even when the
message that announced it was dropped.

What a write needs is all checked before anything is changed: that the parameter exists, that the
length asked for is its own, that there are as many bytes. The length is given in bits and rounded
up to bytes. More bytes than the parameter has may be given, and the first ones are taken.
-/

namespace Fieldbus

/-- A parameter write handed to the host. -/
structure ParamWrite where
  slot : UInt16
  param : UInt16
  /-- Value of the parameter when it was handed over. -/
  data : Bytes
deriving DecidableEq, Repr

/-- The values of the parameters and the writes not yet taken. -/
structure ParamStore where
  /-- None if the device has no parameter. -/
  memory : Option ParamMemory := none
  /-- Written parameters not yet taken, in the order of their first writes. -/
  pending : List (UInt16 × UInt16) := []
deriving DecidableEq, Repr, Inhabited

namespace ParamStore

/-- The store of a device, with every parameter at its default. -/
def ofDevice (d : Device) : Except Error ParamStore :=
  match ParamMemory.allocate d with
  | none => .ok {}
  | some m =>
    match m.initDefaults d with
    | (.error e, _) => .error e
    | (.ok (), m) => .ok { memory := some m }

/-- The place of a parameter, if it exists and is `bits` bits long, rounded up to bytes. -/
def locate (s : ParamStore) (d : Device) (slot param : UInt16) (bits : Nat) :
    Except Error (ParamMemory × ByteRange) :=
  match d.param slot param with
  | .error e => .error e
  | .ok p =>
    if bytesFor bits ≠ p.byteLength.toNat then .error .parameterLength
    else
      match s.memory with
      | none => .error .missingParameter
      | some m =>
        match m.locate slot param with
        | none => .error .missingParameter
        | some r => .ok (m, r)

/-- A list of pending writes with one more parameter, unless it is in it. -/
def markPending (pending : List (UInt16 × UInt16)) (key : UInt16 × UInt16) :
    List (UInt16 × UInt16) :=
  if key ∈ pending then pending else pending ++ [key]

/-- Stores a new value and announces it. The value is the first bytes of `data`, as many as the
parameter has. -/
def write (s : ParamStore) (d : Device) (slot param : UInt16) (bits : Nat) (data : Bytes)
    (out : Outbox) : Except Error (ParamStore × Outbox) :=
  match s.locate d slot param bits with
  | .error e => .error e
  | .ok (m, r) =>
    if data.size < r.length then .error .parameterData
    else
      let value := data.extract 0 r.length
      .ok ({ memory := some (m.write r.start value), pending := markPending s.pending (slot, param) },
        (out.note (.parameterWritten slot param value)).post (.paramWrite slot param))

/-- Copies the value of a parameter to the front of a buffer; gives the number of bytes copied and
the buffer. -/
def read (s : ParamStore) (d : Device) (slot param : UInt16) (bits : Nat) (buffer : Bytes) :
    Except Error (Nat × Bytes) :=
  match s.locate d slot param bits with
  | .error e => .error e
  | .ok (m, r) =>
    if buffer.size < r.length then .error .parameterBuffer
    else .ok (r.length, ByteCursor.overwrite buffer 0 (m.slice r))

/-- The value of a parameter. -/
def get (s : ParamStore) (slot param : UInt16) : Option Bytes :=
  match s.memory with
  | none => none
  | some m => (m.locate slot param).map m.slice

/-- The first of the pending writes that has a value, and those behind it. -/
def firstPending (s : ParamStore) :
    List (UInt16 × UInt16) → Option ParamWrite × List (UInt16 × UInt16)
  | [] => (none, [])
  | (slot, param) :: rest =>
    match s.get slot param with
    | some data => (some ⟨slot, param, data⟩, rest)
    | none => firstPending s rest

/-- Takes the oldest pending write, with the current value of its parameter. -/
def takeWrite (s : ParamStore) : Option ParamWrite × ParamStore :=
  match s.firstPending s.pending with
  | (w, pending) => (w, { s with pending })

/-- The bytes of all parameters; none at all if the device has no parameter. -/
def bytes (s : ParamStore) : Bytes :=
  match s.memory with
  | none => #[]
  | some m => m.data

/-- A parameter is never pending twice. -/
theorem nodup_markPending {pending : List (UInt16 × UInt16)} (h : pending.Nodup)
    (key : UInt16 × UInt16) : (markPending pending key).Nodup := by
  unfold markPending
  split
  · exact h
  · next hn =>
    rw [List.nodup_append]
    refine ⟨h, by simp, ?_⟩
    intro a ha b hb e
    rw [List.mem_singleton] at hb
    exact hn (hb ▸ e ▸ ha)

/-- After a write its parameter is pending, and so is all that was. -/
theorem mem_markPending (pending : List (UInt16 × UInt16)) (key other : UInt16 × UInt16) :
    other ∈ markPending pending key ↔ other ∈ pending ∨ other = key := by
  unfold markPending
  split
  · next h =>
    constructor
    · exact Or.inl
    · rintro (h' | rfl)
      · exact h'
      · exact h
  · simp

end ParamStore
end Fieldbus
