import Fieldbus.Device.Basic
/-!
Which devices can be configured.

Every index fits in sixteen bits, no array is empty, and every default is as long as its
parameter. Slots are examined in order; in a slot, its item counts come first, then its signals,
inputs before outputs, then its parameters.

The first thing that is wrong is what is reported. So the order of the checks matters to a caller
who repairs one thing after another, and is part of what is modelled.
-/

namespace Fieldbus

/-- The largest number of slots of a device, and of signals or parameters of a slot. -/
def maxItems : Nat := 65535

/-- Checks one slot. -/
def Slot.validate (s : Slot) : Except Error Unit :=
  if maxItems < s.inputs.size ∨ maxItems < s.outputs.size ∨ maxItems < s.params.size then
    .error .tooManyItems
  else if (s.inputs ++ s.outputs).any (·.arrayLength == some 0) then .error .emptyArray
  else if s.params.any (fun p => p.default.size != p.byteLength.toNat) then .error .defaultLength
  else .ok ()

/-- The first error among the slots, if any. -/
def validateSlots : List Slot → Except Error Unit
  | [] => .ok ()
  | s :: rest =>
    match s.validate with
    | .error e => .error e
    | .ok () => validateSlots rest

/-- Checks a whole device. -/
def Device.validate (d : Device) : Except Error Unit :=
  if maxItems < d.slots.size then .error .tooManySlots else validateSlots d.slots.toList

/-! ## What an accepted device satisfies

Validation is a program and gives an error; `Device.Valid` is the property, with a field for each
thing that was checked. That they agree is what the theorems about devices begin with. -/

/-- A signal that stands for at least one element. -/
def Signal.Valid (s : Signal) : Prop := s.arrayLength ≠ some 0

/-- A parameter whose default has its length. -/
def Parameter.Valid (p : Parameter) : Prop := p.default.size = p.byteLength.toNat

/-- A slot whose items can be indexed and are valid. -/
structure Slot.Valid (s : Slot) : Prop where
  inputs_le : s.inputs.size ≤ maxItems
  outputs_le : s.outputs.size ≤ maxItems
  params_le : s.params.size ≤ maxItems
  signals : ∀ dir, ∀ x ∈ s.signals dir, x.Valid
  params : ∀ p ∈ s.params, p.Valid

/-- A device whose slots can be indexed and are valid. -/
structure Device.Valid (d : Device) : Prop where
  slots_le : d.slots.size ≤ maxItems
  slots : ∀ s ∈ d.slots, s.Valid

theorem Slot.validate_eq_ok_iff (s : Slot) : s.validate = .ok () ↔ s.Valid := by
  unfold Slot.validate
  split
  · next h =>
    constructor
    · intro e; cases e
    · rintro ⟨hi, ho, hp, -, -⟩; omega
  · next hn =>
    split
    · next h =>
      constructor
      · intro e; cases e
      · intro v
        simp only [Array.any_append, Bool.or_eq_true, Array.any_eq_true', beq_iff_eq] at h
        rcases h with ⟨x, hx, e⟩ | ⟨x, hx, e⟩
        · exact absurd e (v.signals .tx x hx)
        · exact absurd e (v.signals .rx x hx)
    · next ha =>
      simp only [Array.any_append, Bool.or_eq_true, Array.any_eq_true', beq_iff_eq, not_or,
        not_exists, not_and] at ha
      split
      · next h =>
        constructor
        · intro e; cases e
        · intro v
          simp only [Array.any_eq_true', bne_iff_ne] at h
          obtain ⟨p, hp, e⟩ := h
          exact absurd (v.params p hp) e
      · next hp =>
        simp only [Array.any_eq_true', bne_iff_ne, not_exists, not_and, Decidable.not_not] at hp
        refine ⟨fun _ => ⟨by omega, by omega, by omega, ?_, hp⟩, fun _ => rfl⟩
        intro dir x hx
        cases dir with
        | tx => exact ha.1 x hx
        | rx => exact ha.2 x hx

theorem validateSlots_eq_ok_iff (slots : List Slot) :
    validateSlots slots = .ok () ↔ ∀ s ∈ slots, s.Valid := by
  induction slots with
  | nil => simp [validateSlots]
  | cons s rest ih =>
    unfold validateSlots
    split
    · next e h =>
      have hn : ¬ s.Valid := fun v => by
        rw [(Slot.validate_eq_ok_iff s).2 v] at h; cases h
      simp [hn]
    · next h =>
      have hv := (Slot.validate_eq_ok_iff s).1 h
      simp [ih, hv]

/-- Validation accepts exactly the valid devices. -/
theorem Device.validate_eq_ok_iff (d : Device) : d.validate = .ok () ↔ d.Valid := by
  unfold Device.validate
  split
  · next h =>
    constructor
    · intro e; cases e
    · rintro ⟨hs, -⟩; omega
  · next h =>
    rw [validateSlots_eq_ok_iff]
    constructor
    · intro hv; exact ⟨by omega, fun s hs => hv s (Array.mem_toList_iff.2 hs)⟩
    · rintro ⟨-, hv⟩ s hs; exact hv s (Array.mem_toList_iff.1 hs)

end Fieldbus
