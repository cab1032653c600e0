import Fieldbus.Gateway.Script
/-!
Runs: the states a gateway can come into.

A call of a gateway is not one step. It changes the gateway, asks the adapter, changes the gateway
again; in between the adapter may call back, and other threads may have their turn. What is one step
is a `Change`: all that a call does while it holds the gateway. A `Run` is a gateway as it was made,
and any sequence of changes. So a law of all runs holds

* after any sequence of calls, whatever adapter and application do (`Run.exists_perform`): every
  operation is a sequence of changes;
* in the midst of calls, and for calls of several threads in any interleaving: their changes form
  one sequence.

To prove such a law, look at one change at a time (`Run.induct`). Laws about the past take down what
they need of it on the way: `Run.track` goes through a run with a record of its own.

A change is as large as what nobody can come into, and no larger. So two reports that a call makes
one after the other are changes of their own, and what a law says of the state between them is
meant. A change may be refused; then it is a change all the same, by which nothing changes, so that
a run is any list of changes whatever.

A run says nothing of the surroundings, of what adapter and application were asked or what they
know. Laws about these are stated of worlds, in which a gateway is together with what it is among,
and connected to runs by `Run.exists_perform`.
-/

namespace Fieldbus

/-! ## Changes

The list is complete in that every operation consists of these; that it contains nothing else would
be no gain, as a law that holds of more changes is the stronger one. What a change does is what the
operations do: `Gateway.attempt` calls the same functions. -/

/-- What is journalled of a gateway without any other change. -/
inductive Remark where
  /-- A request is about to go to the adapter. -/
  | asked (r : Request)
  /-- An indication is about to go to the application. -/
  | indicated (i : Indication)
  /-- A device was refused. -/
  | rejected (d : Device) (e : Error)
  /-- The gateway began to be driven. -/
  | driven (tick poll : Duration)
  /-- The drive ended because the transport failed. -/
  | driveEnded (f : Fault)

/-- The entry in the journal. -/
def Remark.event : Remark → Event
  | .asked r => .asked r
  | .indicated i => .indicated i
  | .rejected d e => .rejected d e
  | .driven tick poll => .driven tick poll
  | .driveEnded f => .driveEnded f

/-- All that a call does to a gateway in one go. -/
inductive Change where
  | remark (r : Remark)
  | install (d : Device)
  | advance
  | avail
  | sync
  | hear
  | loseContact
  | failTransport (f : Fault)
  | fault (f : Fault)
  | signalWork
  | takeInterrupt
  | lookForRing
  | lieDown
  | getUp
  | countCrc
  | setTransport (t : Transport)
  | raiseFlags (flags : UInt32)
  | clearFlags (flags : UInt32)
  | enableWatchdog (on : Bool)
  | selectCycle (m : CycleMask)
  | addAlarm (slot : UInt16) (a : Alarm)
  | removeAlarm (slot : UInt16) (a : Alarm)
  | receive
  | writeParam (slot param : UInt16) (bits : Nat) (data : Bytes)
  | takeWrite
  | setSignal (slot signal : UInt16) (values : Array UInt64)
  | setValue (slot signal : UInt16) (element : Nat) (value : Value)
  | setSlotStatus (slot : UInt16) (status : UInt8)
  | unpackOutputs (frame : Bytes)

namespace Gateway

/-- Puts the configuration of a device in the place of the one before, if it has one. -/
def installDevice (g : Gateway) (d : Device) : Except Error Gateway :=
  match Configuration.ofDevice d with
  | .error e => .error e
  | .ok c => .ok (g.install c)

theorem installDevice_eq_ok {g : Gateway} {d : Device} {k : Configuration}
    (h : Configuration.ofDevice d = .ok k) : g.installDevice d = .ok (g.install k) := by
  unfold installDevice
  rw [h]

/-- What a change comes to; some may be refused. -/
def attempt (g : Gateway) : Change → Except Error Gateway
  | .remark r => .ok (g.note r.event)
  | .install d => g.installDevice d
  | .advance => .ok g.advance.2
  | .avail => .ok g.avail
  | .sync => .ok g.sync
  | .hear => .ok g.hear
  | .loseContact => .ok g.loseContact.2
  | .failTransport f => .ok (g.failTransport f)
  | .fault f => .ok (g.fault f)
  | .signalWork => .ok g.signalWork
  | .takeInterrupt => .ok g.takeInterrupt.2
  | .lookForRing => .ok g.lookForRing.2
  | .lieDown => .ok g.lieDown.2
  | .getUp => .ok g.getUp
  | .countCrc => .ok g.countCrc
  | .setTransport t => .ok (g.setTransport t)
  | .raiseFlags flags => .ok (g.raiseFlags flags)
  | .clearFlags flags => .ok (g.clearFlags flags)
  | .enableWatchdog on => .ok (g.enableWatchdog on)
  | .selectCycle m => .ok (g.selectCycle m)
  | .addAlarm slot a => g.addAlarm slot a
  | .removeAlarm slot a => g.removeAlarm slot a
  | .receive => .ok g.receive.2
  | .writeParam slot param bits data => g.writeParam slot param bits data
  | .takeWrite => .ok g.takeWrite.2
  | .setSignal slot signal values => g.setSignal slot signal values
  | .setValue slot signal element value => g.setValue slot signal element value
  | .setSlotStatus slot status => g.setSlotStatus slot status
  | .unpackOutputs frame => g.unpackOutputs frame

/-- The gateway after a change; one that is refused changes nothing. -/
def apply (g : Gateway) (c : Change) : Gateway :=
  match g.attempt c with
  | .error _ => g
  | .ok g' => g'

theorem apply_of_ok {g g' : Gateway} {c : Change} (h : g.attempt c = .ok g') : g.apply c = g' := by
  unfold apply
  rw [h]

theorem apply_of_error {g : Gateway} {c : Change} {e : Error} (h : g.attempt c = .error e) :
    g.apply c = g := by
  unfold apply
  rw [h]

/-- The gateway after some changes. -/
def after (g : Gateway) (cs : List Change) : Gateway := cs.foldl apply g

theorem after_append (g : Gateway) (cs ds : List Change) :
    g.after (cs ++ ds) = (g.after cs).after ds := List.foldl_append ..

/-- What each of some changes keeps, all of them keep. -/
theorem after_keeps {P : Gateway → Prop} {cs : List Change}
    (hkeep : ∀ c ∈ cs, ∀ g, P g → P (g.apply c)) {g : Gateway} (hg : P g) : P (g.after cs) := by
  induction cs generalizing g with
  | nil => exact hg
  | cons c rest ih =>
    have hrest : ∀ d ∈ rest, ∀ g, P g → P (g.apply d) :=
      fun d hd => hkeep d (List.mem_cons_of_mem c hd)
    exact ih hrest (hkeep c List.mem_cons_self g hg)

/-- Some changes turn the one gateway into the other. -/
def Leads (g g' : Gateway) : Prop := ∃ cs, g.after cs = g'

end Gateway

/-! ## Runs

A run carries the proof that its gateway was made, and a list of changes. So what can be done to a
run is to append to the list, and a law of all runs is shown by induction on it, from its end. -/

/-- A gateway as it was made, and what was done to it since. -/
structure Run where
  settings : Settings
  /-- The device at the start. -/
  device : Device
  start : Gateway
  made : Gateway.make settings device = .ok start
  changes : List Change

namespace Run

/-- The gateway at the end of a run. -/
def state (r : Run) : Gateway := r.start.after r.changes

/-- The run with one more change. -/
def next (r : Run) (c : Change) : Run := { r with changes := r.changes ++ [c] }

/-- The run with more changes. -/
def andThen (r : Run) (cs : List Change) : Run := { r with changes := r.changes ++ cs }

/-- The run before anything was done. -/
def begun {s : Settings} {d : Device} {g : Gateway} (h : Gateway.make s d = .ok g) : Run :=
  ⟨s, d, g, h, []⟩

/-- A gateway without slots, before anything was done. -/
def bare : Run := ⟨{}, { name := "bare" }, _, rfl, []⟩

theorem state_next (r : Run) (c : Change) : (r.next c).state = r.state.apply c :=
  r.start.after_append r.changes [c]

theorem state_andThen (r : Run) (cs : List Change) : (r.andThen cs).state = r.state.after cs :=
  r.start.after_append r.changes cs

/-- **What holds at the start and is kept by each change holds at the end of every run.** -/
theorem induct {P : Run → Prop}
    (hmade : ∀ {s d g} (h : Gateway.make s d = .ok g), P (begun h))
    (hnext : ∀ r c, P r → P (r.next c)) (r : Run) : P r := by
  obtain ⟨s, d, g, h, cs⟩ := r
  -- the changes still to come, behind those that are done
  have grow : ∀ (cs done : List Change), P ⟨s, d, g, h, done⟩ → P ⟨s, d, g, h, done ++ cs⟩ := by
    intro cs
    induction cs with
    | nil =>
      intro done hP
      rwa [List.append_nil]
    | cons c rest ih =>
      intro done hP
      rw [List.append_cons]
      exact ih (done ++ [c]) (hnext ⟨s, d, g, h, done⟩ c hP)
  exact grow cs [] (hmade h)

/-! ### The past of a run

Some laws compare the state with what has happened: ticks, deeds, the silence of the host. What has
happened is recorded beside the run, by a function of the state before a change and the change. -/

/-- A record of the past that each change adds to, as seen in the state before it. -/
def track {α : Type} (record : Gateway → Change → α → α) (first : α) (r : Run) : α :=
  (r.changes.foldl (fun (st : Gateway × α) c => (st.1.apply c, record st.1 c st.2))
    (r.start, first)).2

variable {α : Type} (record : Gateway → Change → α → α) (first : α)

theorem fst_foldl_record (cs : List Change) (st : Gateway × α) :
    (cs.foldl (fun (st : Gateway × α) c => (st.1.apply c, record st.1 c st.2)) st).1 =
      st.1.after cs := by
  induction cs generalizing st with
  | nil => rfl
  | cons c rest ih => exact ih _

@[simp] theorem track_begun {s : Settings} {d : Device} {g : Gateway}
    (h : Gateway.make s d = .ok g) : (begun h).track record first = first := rfl

/-- The record after one more change. -/
@[simp] theorem track_next (r : Run) (c : Change) :
    (r.next c).track record first = record r.state c (r.track record first) := by
  unfold track next state
  rw [List.foldl_append, List.foldl_cons, List.foldl_nil, fst_foldl_record]

end Run

/-! ## The past as a list

Where the record is a list, laws about it have one form: something has happened, and nothing of
another kind since. -/

/-- At some point of the past, `start` was true of what happened then and of all before it, and
`keep` is true of all that happened after. The past is listed latest first. -/
def Since {α : Type} (start : α → List α → Prop) (keep : α → Prop) (past : List α) : Prop :=
  ∃ later x earlier, past = later ++ x :: earlier ∧ start x earlier ∧ ∀ y ∈ later, keep y

theorem not_since_nil {α : Type} {start : α → List α → Prop} {keep : α → Prop} :
    ¬ Since start keep [] := by
  rintro ⟨later, x, earlier, h, -⟩
  cases later <;> cases h

/-- Either it starts now, or it has started before and goes on. -/
theorem since_cons {α : Type} {start : α → List α → Prop} {keep : α → Prop} {x : α}
    {past : List α} :
    Since start keep (x :: past) ↔ start x past ∨ keep x ∧ Since start keep past := by
  constructor
  · rintro ⟨later, y, earlier, heq, hstart, hkeep⟩
    cases later with
    | nil =>
      cases heq
      exact Or.inl hstart
    | cons z later =>
      cases heq
      refine Or.inr ⟨hkeep x List.mem_cons_self, later, y, earlier, rfl, hstart, ?_⟩
      exact fun w hw => hkeep w (List.mem_cons_of_mem x hw)
  · rintro (hstart | ⟨hx, later, y, earlier, rfl, hstart, hkeep⟩)
    · exact ⟨[], x, past, rfl, hstart, fun y hy => absurd hy List.not_mem_nil⟩
    · refine ⟨x :: later, y, earlier, rfl, hstart, fun w hw => ?_⟩
      rcases List.mem_cons.1 hw with rfl | hw
      · exact hx
      · exact hkeep w hw

end Fieldbus
