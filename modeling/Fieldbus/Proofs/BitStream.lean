import Mathlib.Order.Bounds.Basic
import Fieldbus.Bits.Cursor
import Fieldbus.Proofs.ArrayFields
/-!
Streams of values of different lengths.

A cursor goes through a buffer step by step: it writes a value of some length, leaves bits out, or
goes on to the next byte boundary. What each step does is one law (`BitCursor.exists_moves`), and a
cursor never goes back, so what is written later lies behind what was written before.

That is the invariant of a run (`BitCursor.writeAll_spec`): the buffer has every value in its place
(`BitCursor.Put.In`), whatever was written behind it, and is as it was everywhere else. A reader
that takes the same steps finds these values (`BitCursor.readAll_of_puts`). It stands where the
writer stood after every one of them, since neither looks at the buffer to know where to go.

Reader and writer are two programs. That they stand at the same place comes of a law that both obey,
about where a step takes the cursor (`BitCursor.next`): it goes by the length of a value and not by
the value, so it can be told before anything was written.
-/

namespace Fieldbus
namespace BitCursor

/-! ## Where a stream goes

All that is known of a stream without a buffer: where each step takes the cursor, and which value is
put where. The values are listed with their positions, in ascending order since a cursor never goes
back. -/

/-- Where a step that is not refused takes the cursor. -/
def next (c : BitCursor) : Step → BitCursor
  | .value bits _ => c.skip bits
  | .skip bits => c.skip bits
  | .align => c.align

/-- Where the steps of a stream take the cursor, if none is refused. -/
def stop (c : BitCursor) (steps : List Step) : BitCursor := steps.foldl next c

/-- A value of a stream, and the position that it is put at. -/
structure Put where
  position : Nat
  bits : Nat
  value : UInt64
deriving DecidableEq, Repr

/-- The values of a stream that starts at the cursor, each with its position. -/
def puts : BitCursor → List Step → List Put
  | _, [] => []
  | c, .value bits value :: rest => ⟨c.position, bits, value⟩ :: puts (c.skip bits) rest
  | c, .skip bits :: rest => puts (c.skip bits) rest
  | c, .align :: rest => puts c.align rest

/-- What a reader has to get from a step: the value, reduced to its length. -/
def Step.readBack : Step → Option UInt64
  | .value bits word => some (.ofNat (word.toNat % 2 ^ bits))
  | .skip _ => none
  | .align => none

namespace Put

/-- The positions that a value is written to. -/
def Covers (x : Put) (p : Nat) : Prop := x.position ≤ p ∧ p < x.position + x.bits

/-- The buffer has the value in its place. -/
structure In (x : Put) (order : ByteOrder) (data : Bytes) : Prop where
  inRange : checkRange data x.position x.bits = .ok ()
  bits : ∀ i < x.bits, bitAt order data (x.position + i) = wordBit x.value (order.rank x.bits i)

/-- A value that has just been written is in its place. -/
theorem in_placeBits (order : ByteOrder) {data : Bytes} {position bits : Nat} (value : UInt64)
    (h : checkRange data position bits = .ok ()) :
    (Put.mk position bits value).In order (placeBits order data position bits value) := by
  obtain ⟨hbits, hend⟩ := checkRange_eq_ok_iff.1 h
  refine ⟨checkRange_eq_ok_iff.2 ⟨hbits, by rw [size_placeBits]; exact hend⟩, fun i hi => ?_⟩
  dsimp only at hi ⊢
  rw [bitAt_placeBits order value hend, if_pos (by omega), Nat.add_sub_cancel_left]

/-- A value stays in its place as long as its bits are not touched. -/
theorem In.congr {x : Put} {order : ByteOrder} {a b : Bytes} (h : x.In order a)
    (hsize : b.size = a.size) (heq : ∀ p, x.Covers p → bitAt order b p = bitAt order a p) :
    x.In order b := by
  obtain ⟨hbits, hend⟩ := checkRange_eq_ok_iff.1 h.inRange
  refine ⟨checkRange_eq_ok_iff.2 ⟨hbits, by rw [hsize]; exact hend⟩, fun i hi => ?_⟩
  rw [heq _ ⟨by omega, by omega⟩, h.bits i hi]

/-- **A value in its place is read from there**, reduced to its length. -/
theorem In.readBits_eq {x : Put} {order : ByteOrder} {data : Bytes} (h : x.In order data) :
    readBits order data x.position x.bits = .ok (.ofNat (x.value.toNat % 2 ^ x.bits)) := by
  have hle : x.bits ≤ 64 := (checkRange_eq_ok_iff.1 h.inRange).1.2
  obtain ⟨value, hvalue, hreads⟩ := readBits_eq_ok order h.inRange
  rw [hvalue, hreads.unique (readsAs_and_lowMask hle h.bits), and_lowMask_eq_ofNat_mod _ hle]

end Put

/-- A cursor never goes back. -/
theorem position_le_next (c : BitCursor) (s : Step) : c.position ≤ (c.next s).position := by
  cases s with
  | value bits value => exact Nat.le_add_right _ _
  | skip bits => exact Nat.le_add_right _ _
  | align => exact c.align_position.2.1

/-- So nothing of a stream is put before the place where it starts. -/
theorem position_le_of_mem_puts {c : BitCursor} {steps : List Step} {x : Put}
    (h : x ∈ c.puts steps) : c.position ≤ x.position := by
  induction steps generalizing c with
  | nil => cases h
  | cons s rest ih =>
    have hnext := c.position_le_next s
    cases s with
    | value bits value =>
      rcases List.mem_cons.1 h with rfl | hrest
      · exact Nat.le_refl _
      · exact Nat.le_trans hnext (ih hrest)
    | skip bits => exact Nat.le_trans hnext (ih h)
    | align => exact Nat.le_trans hnext (ih h)

theorem puts_append (c : BitCursor) (steps rest : List Step) :
    c.puts (steps ++ rest) = c.puts steps ++ (c.stop steps).puts rest := by
  induction steps generalizing c with
  | nil => rfl
  | cons s more ih =>
    cases s with
    | value bits value => exact congrArg _ (ih (c.skip bits))
    | skip bits => exact ih (c.skip bits)
    | align => exact ih c.align

/-! ## One step

The law for any outcome, by which the rest is stated: a value that is refused leaves cursor and
buffer, one that is written is placed at the cursor, all else moves the cursor only. Aligning goes
to the least position from the cursor on that is a multiple of eight. -/

/-- What a step is to do to cursor and buffer, by what comes of it: a value that is refused leaves
both, one that is written takes the cursor behind it, and all else moves the cursor only. -/
def Step.Moves : Step → BitCursor × Bytes → Except AccessError Unit → BitCursor × Bytes → Prop
  | .value bits _, (c, data), outcome, (c', data') =>
    (outcome = .ok () ↔ (1 ≤ bits ∧ bits ≤ 64) ∧ c.position + bits ≤ 8 * data.size) ∧
      (outcome = .ok () → c'.position = c.position + bits ∧ data'.size = data.size) ∧
      (outcome ≠ .ok () → c' = c ∧ data' = data)
  | .skip bits, (c, data), outcome, (c', data') =>
    outcome = .ok () ∧ c'.position = c.position + bits ∧ data' = data
  | .align, (c, data), outcome, (c', data') =>
    outcome = .ok () ∧ IsLeast {p | 8 ∣ p ∧ c.position ≤ p} c'.position ∧ data' = data

/-- The place that aligning goes to is the first byte boundary from the cursor on. -/
theorem isLeast_align (c : BitCursor) :
    IsLeast {p | 8 ∣ p ∧ c.position ≤ p} c.align.position := by
  obtain ⟨hmod, hle, hlt⟩ := c.align_position
  refine ⟨⟨Nat.dvd_of_mod_eq_zero hmod, hle⟩, ?_⟩
  rintro p ⟨hdvd, hp⟩
  omega

/-- **What one step does.** -/
theorem exists_moves (c : BitCursor) (data : Bytes) (s : Step) :
    ∃ outcome c' data', writeAll c data [s] = (outcome, c', data') ∧ c'.order = c.order ∧
      s.Moves (c, data) outcome (c', data') := by
  cases s with
  | value bits value =>
    rw [writeAll, write, writeBits]
    cases hcheck : checkRange data c.position bits with
    | error e =>
      have hrefused : (.error e : Except AccessError Unit) ≠ .ok () := by
        intro h
        cases h
      refine ⟨.error e, c, data, rfl, rfl, ⟨fun h => absurd h hrefused, fun h => ?_⟩,
        fun h => absurd h hrefused, fun _ => ⟨rfl, rfl⟩⟩
      rw [checkRange_eq_ok_iff.2 h] at hcheck
      cases hcheck
    | ok _ =>
      exact ⟨.ok (), c.skip bits, _, rfl, rfl, ⟨fun _ => checkRange_eq_ok_iff.1 hcheck, fun _ => rfl⟩,
        fun _ => ⟨rfl, size_placeBits ..⟩, fun h => absurd rfl h⟩
  | skip bits => exact ⟨.ok (), c.skip bits, data, rfl, rfl, rfl, rfl, rfl⟩
  | align => exact ⟨.ok (), c.align, data, rfl, rfl, rfl, c.isLeast_align, rfl⟩

/-! ## Writing a stream

A writer either stops at the first refusal or goes on after it. The law of a whole stream is about
one without refusals; what is said of single steps holds in all runs, since any state of a writer
that goes on is the state before some step. -/

/-- A writer that goes on after steps that are refused: where it stands in the end, and what the
buffer has become. -/
def writeOn (c : BitCursor) (data : Bytes) (steps : List Step) : BitCursor × Bytes :=
  steps.foldl (fun st s => (writeAll st.1 st.2 [s]).2) (c, data)

theorem writeOn_append_singleton (c : BitCursor) (data : Bytes) (steps : List Step) (s : Step) :
    writeOn c data (steps ++ [s]) =
      (writeAll (writeOn c data steps).1 (writeOn c data steps).2 [s]).2 := by
  rw [writeOn, List.foldl_append]
  rfl

/-- A stream is written by its first step and then the others, unless the first is refused. -/
theorem writeAll_cons (c : BitCursor) (data : Bytes) (s : Step) (rest : List Step) :
    writeAll c data (s :: rest) =
      match writeAll c data [s] with
      | (.error e, c, data) => (.error e, c, data)
      | (.ok (), c, data) => writeAll c data rest := by
  cases s with
  | value bits value =>
    rw [writeAll, writeAll]
    cases c.write data value bits <;> rfl
  | skip bits => rfl
  | align => rfl

/-- What is written as a whole is written up to each of its steps. -/
theorem exists_writeAll_of_append {c c' : BitCursor} {data data' : Bytes} {steps rest : List Step}
    (h : writeAll c data (steps ++ rest) = (.ok (), c', data')) :
    ∃ c₀ data₀, writeAll c data steps = (.ok (), c₀, data₀) := by
  induction steps generalizing c data with
  | nil => exact ⟨c, data, rfl⟩
  | cons s more ih =>
    rw [List.cons_append, writeAll_cons] at h
    rw [writeAll_cons]
    split at h
    · cases h
    · exact ih h

/-- A writer that is never refused does the same whether it would go on or not. -/
theorem writeOn_of_writeAll {c c' : BitCursor} {data data' : Bytes} {steps : List Step}
    (h : writeAll c data steps = (.ok (), c', data')) : writeOn c data steps = (c', data') := by
  induction steps generalizing c data with
  | nil =>
    cases h
    rfl
  | cons s rest ih =>
    rw [writeAll_cons] at h
    rw [writeOn, List.foldl_cons]
    split at h
    · cases h
    · next heq =>
      rw [heq]
      exact ih h

/-- A value that is written is not refused, and is placed at the cursor. -/
theorem write_eq_ok {c c' : BitCursor} {data data' : Bytes} {value : UInt64} {bits : Nat}
    (h : c.write data value bits = .ok (c', data')) :
    checkRange data c.position bits = .ok () ∧ c' = c.skip bits ∧
      data' = placeBits c.order data c.position bits value := by
  rw [write, writeBits] at h
  cases hcheck : checkRange data c.position bits with
  | error e =>
    rw [hcheck] at h
    cases h
  | ok _ =>
    rw [hcheck] at h
    cases h
    exact ⟨rfl, rfl, rfl⟩

/-- **What a stream leaves** that is written to its end: every value is in its place, and the buffer
is as it was where none is. -/
theorem writeAll_spec {c c' : BitCursor} {data written : Bytes} {steps : List Step}
    (h : writeAll c data steps = (.ok (), c', written)) :
    c' = c.stop steps ∧ written.size = data.size ∧
      (∀ x ∈ c.puts steps, x.In c.order written) ∧
      ∀ p, (∀ x ∈ c.puts steps, ¬ x.Covers p) → bitAt c.order written p = bitAt c.order data p := by
  induction steps generalizing c data with
  | nil =>
    cases h
    exact ⟨rfl, rfl, fun x hx => (nomatch hx), fun _ _ => rfl⟩
  | cons s rest ih =>
    cases s with
    | skip bits => exact ih h
    | align => exact ih h
    | value bits value =>
      rw [writeAll] at h
      split at h
      · cases h
      · next hwrite =>
        obtain ⟨hcheck, rfl, rfl⟩ := write_eq_ok hwrite
        obtain ⟨hstop, hsize, hin, hout⟩ := ih h
        rw [size_placeBits] at hsize
        have hend := (checkRange_eq_ok_iff.1 hcheck).2
        refine ⟨hstop, hsize, fun x hx => ?_, fun p hp => ?_⟩
        · rcases List.mem_cons.1 hx with rfl | hrest
          · -- what follows is put behind this value
            refine (Put.in_placeBits c.order value hcheck).congr
              (by rw [hsize, size_placeBits]) fun p hp => hout p fun y hy hyp => ?_
            have hbehind : c.position + bits ≤ y.position := position_le_of_mem_puts hy
            have hlt := hp.2
            have hle := hyp.1
            dsimp only at hlt
            omega
          · exact hin x hrest
        · have hhere : ¬ (c.position ≤ p ∧ p < c.position + bits) := hp _ List.mem_cons_self
          refine (hout p fun x hx => hp x (List.mem_cons_of_mem _ hx)).trans ?_
          rw [show (c.skip bits).order = c.order from rfl, bitAt_placeBits c.order value hend,
            if_neg hhere]

/-! ## Reading it back

The induction is on the steps, with the cursor as the moving part. The buffer stays the same all
through it, and has all values in their places from the beginning. -/

/-- **A reader finds the values that are in their places,** and goes where the writer went. -/
theorem readAll_of_puts {c : BitCursor} {data : Bytes} {steps : List Step}
    (h : ∀ x ∈ c.puts steps, x.In c.order data) :
    readAll c data steps = .ok (steps.filterMap Step.readBack, c.stop steps) := by
  induction steps generalizing c with
  | nil => rfl
  | cons s rest ih =>
    cases s with
    | skip bits => exact ih h
    | align => exact ih h
    | value bits value =>
      have hread := (h _ List.mem_cons_self).readBits_eq
      have hrest := @ih (c.skip bits) fun x hx => h x (List.mem_cons_of_mem _ hx)
      rw [readAll, read, hread]
      dsimp only
      rw [hrest]
      rfl

/-- **Streams go into buffers and come back.** Wherever the cursor stands, whatever the buffer holds
and with either order of bits,

* in every run, also one that goes on after values that were refused, each step does what it is to
  do: a value that is refused moves nothing and changes nothing, one that is written takes the
  cursor on by its length, and aligning goes to the first byte boundary that is not behind;
* where no value is refused, a reader that takes the same steps gets every value, reduced to its
  length, stands where the writer stood after each of them, and no bit has changed that no value
  was written to. -/
theorem stream_roundTrip (c : BitCursor) (data : Bytes) :
    (∀ (before : List Step) (s : Step), ∃ c₀ data₀ outcome c₁ data₁,
      writeOn c data before = (c₀, data₀) ∧
      writeAll c₀ data₀ [s] = (outcome, c₁, data₁) ∧
      writeOn c data (before ++ [s]) = (c₁, data₁) ∧
      c₁.order = c₀.order ∧ s.Moves (c₀, data₀) outcome (c₁, data₁)) ∧
    ∀ (steps : List Step) (c' : BitCursor) (written : Bytes),
      writeAll c data steps = (.ok (), c', written) →
      writeOn c data steps = (c', written) ∧
      readAll c written steps = .ok (steps.filterMap Step.readBack, c') ∧
      (∀ n, ∃ c₀ data₀, writeAll c data (steps.take n) = (.ok (), c₀, data₀) ∧
        readAll c written (steps.take n) =
          .ok ((steps.take n).filterMap Step.readBack, c₀)) ∧
      written.size = data.size ∧
      ∀ p, (∀ x ∈ c.puts steps, ¬ x.Covers p) →
        bitAt c.order written p = bitAt c.order data p := by
  constructor
  · intro before s
    obtain ⟨outcome, c₁, data₁, hstep, horder, hmoves⟩ :=
      exists_moves (writeOn c data before).1 (writeOn c data before).2 s
    refine ⟨_, _, outcome, c₁, data₁, rfl, hstep, ?_, horder, hmoves⟩
    rw [writeOn_append_singleton, hstep]
  · intro steps c' written h
    obtain ⟨rfl, hsize, hin, hout⟩ := writeAll_spec h
    refine ⟨writeOn_of_writeAll h, readAll_of_puts hin, fun n => ?_, hsize, hout⟩
    have hsplit := h
    rw [← List.take_append_drop n steps] at hsplit
    obtain ⟨c₀, data₀, hfirst⟩ := exists_writeAll_of_append hsplit
    refine ⟨c₀, data₀, hfirst, ?_⟩
    rw [(writeAll_spec hfirst).1]
    apply readAll_of_puts
    intro x hx
    -- what is put by the first steps is put by all
    apply hin x
    rw [← List.take_append_drop n steps, puts_append]
    exact List.mem_append_left _ hx

/-- Lengths that fit no byte, a gap, a word on bytes, and a value with bits above its length. -/
def mixedStream : List Step :=
  [.value 5 0x31, .value 8 0xA7, .skip 2, .value 13 0x1555, .align, .value 24 0xABCDEF, .value 3 6]

theorem stream_roundTrip_mixed :
    ∃ c' written, writeAll ⟨3, .big⟩ (Array.replicate 8 0xFF) mixedStream = (.ok (), c', written) ∧
      readAll ⟨3, .big⟩ written mixedStream =
        .ok ([0x11, 0xA7, 0x1555, 0xABCDEF, 6], ⟨59, .big⟩) ∧
      ∀ p < 3, bitAt .big written p = true := by
  have hwrite : writeAll ⟨3, .big⟩ (Array.replicate 8 0xFF) mixedStream =
      (.ok (), ⟨59, .big⟩, #[0xF1, 0xA7, 0xEA, 0xAB, 0xAB, 0xCD, 0xEF, 0xDF]) := by decide +kernel
  obtain ⟨-, hround⟩ := stream_roundTrip ⟨3, .big⟩ (Array.replicate 8 0xFF)
  obtain ⟨-, hread, -, -, hout⟩ := hround mixedStream _ _ hwrite
  have hbefore : ∀ p < 3, bitAt .big (Array.replicate 8 0xFF) p = true := by decide +kernel
  refine ⟨_, _, hwrite, hread.trans (by decide +kernel), fun p hp => ?_⟩
  refine (hout p fun x hx hcovers => ?_).trans (hbefore p hp)
  have hstart : 3 ≤ x.position := position_le_of_mem_puts hx
  have hle := hcovers.1
  omega

end BitCursor
end Fieldbus
