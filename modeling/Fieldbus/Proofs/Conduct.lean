import Fieldbus.Proofs.Run
/-!
Conduct: what operations do to a gateway, whoever answers their requests.

An operation is a sequence of changes: those it makes by itself (`Op.Makes`), and those that adapter
and application make when they call back. A `Conduct` is a rule for such sequences that holds of two
in a row if it holds of each. The law of this module is that an operation keeps a conduct if its own
changes do and those of its handler do (`Op.leadsBy_run`); so scripts keep it if every operation
that they call makes only changes that do (`Environment.leadsBy_perform`), however deeply calls are
nested.

With the conduct that forbids nothing this says that a run goes on with any operation
(`Run.exists_perform`).

Laws about whole operations are not proved by going through operations. Whoever wants one states a
conduct, shows that each list of changes that an operation makes by itself is allowed by it, and has
the law for all operations at any depth of nesting, also of those that the surroundings call. The
conducts of this library are: to make changes of one kind only (`Conduct.only`), to report each
failure that is taken down, to leave the mark of work or the bell to the worker, and to keep aside.

A conduct is about lists of changes and not about single ones, because some laws hold of several
changes together only. What the operation makes in one go, with nobody in between, is one list
(`Op.Makes`); a failure and its fault are in one, so a rule can ask for both.

What does the work is a little more general than conduct: a law of the world with its surroundings
(`KeptBy`, `Op.keeps_run`). That the gateway came from another by allowed changes is such a law, and
there are others, such as those that count what was asked.
-/

namespace Fieldbus

/-! ## Rules of conduct

A conduct allows the empty list and is closed under appending, so that one gateway leads to another
by it (`Gateway.LeadsBy`) is a preorder, finer than the one that any changes lead by. -/

/-- A rule for sequences of changes. -/
structure Conduct where
  Allows : List Change → Prop
  /-- Nothing may always be done, -/
  nil : Allows []
  /-- and one thing after another if each may be done. -/
  append : ∀ {cs ds : List Change}, Allows cs → Allows ds → Allows (cs ++ ds)

namespace Conduct

/-- The conduct of making changes of one kind only. -/
def only (P : Change → Prop) : Conduct where
  Allows cs := ∀ c ∈ cs, P c
  nil := fun _ hc => absurd hc List.not_mem_nil
  append := by
    intro cs ds hcs hds c hc
    rcases List.mem_append.1 hc with hc | hc
    · exact hcs c hc
    · exact hds c hc

/-- The conduct that forbids nothing. -/
def free : Conduct := only fun _ => True

/-- The conduct of doing nothing. -/
def idle : Conduct := only fun _ => False

theorem only_allows_singleton {P : Change → Prop} {c : Change} (h : P c) : (only P).Allows [c] := by
  intro d hd
  rw [List.mem_singleton] at hd
  exact hd ▸ h

theorem free_allows (cs : List Change) : free.Allows cs := fun _ _ => trivial

theorem eq_nil_of_idle {cs : List Change} (h : idle.Allows cs) : cs = [] :=
  List.eq_nil_iff_forall_not_mem.2 h

/-- Every conduct allows what idleness does. -/
theorem allows_of_idle (k : Conduct) (cs : List Change) (h : idle.Allows cs) : k.Allows cs := by
  rw [eq_nil_of_idle h]
  exact k.nil

end Conduct

namespace Gateway

/-- Some changes that a conduct allows turn the one gateway into the other. -/
def LeadsBy (k : Conduct) (g g' : Gateway) : Prop := ∃ cs, k.Allows cs ∧ g.after cs = g'

variable {k : Conduct} {g g' g'' : Gateway}

theorem LeadsBy.refl (k : Conduct) (g : Gateway) : g.LeadsBy k g := ⟨[], k.nil, rfl⟩

theorem LeadsBy.trans (h : g.LeadsBy k g') (h' : g'.LeadsBy k g'') : g.LeadsBy k g'' := by
  obtain ⟨cs, hcs, rfl⟩ := h
  obtain ⟨ds, hds, rfl⟩ := h'
  exact ⟨cs ++ ds, k.append hcs hds, g.after_append cs ds⟩

/-- What one conduct allows, a laxer one allows too. -/
theorem LeadsBy.mono {l : Conduct} (hkl : ∀ cs, k.Allows cs → l.Allows cs) (h : g.LeadsBy k g') :
    g.LeadsBy l g' := by
  obtain ⟨cs, hcs, rfl⟩ := h
  exact ⟨cs, hkl cs hcs, rfl⟩

theorem leadsBy_after {cs : List Change} (h : k.Allows cs) (g : Gateway) : g.LeadsBy k (g.after cs) :=
  ⟨cs, h, rfl⟩

theorem leadsBy_apply {c : Change} (h : k.Allows [c]) (g : Gateway) : g.LeadsBy k (g.apply c) :=
  ⟨[c], h, rfl⟩

theorem leads_iff_leadsBy_free : g.Leads g' ↔ g.LeadsBy .free g' := by
  constructor
  · rintro ⟨cs, rfl⟩
    exact leadsBy_after (Conduct.free_allows cs) g
  · rintro ⟨cs, -, rfl⟩
    exact ⟨cs, rfl⟩

end Gateway

/-- Where no work is marked, there is nothing to take. -/
theorem Gateway.takeInterrupt_of_idle {g : Gateway} (h : g.interrupt = false) :
    g.takeInterrupt = (false, g) := by
  have hsame : { g with interrupt := false } = g := by
    rw [← h]
  unfold takeInterrupt
  rw [h, hsame]

/-! ## The changes of an operation itself

`Op.Makes` lists, for each operation, the stretches that it makes in one go. It says which changes
there can be, not which come up in a given state; that would have to repeat the operation. A request
is a remark that the gateway makes before it asks. -/

/-- The report of a fault takes it down, and asks the adapter to take note. -/
def Reports (f : Fault) (cs : List Change) : Prop :=
  cs = [.fault f] ∨ cs = [.remark (.asked (.fault f))]

/-- Serving the transport asks the adapter. Where it fails, the fault is taken down at once; the
adapter is told after that. -/
def Serves (cs : List Change) : Prop :=
  cs = [.remark (.asked .service)] ∨ ∃ f, cs = [.failTransport f, .fault f] ∨
    cs = [.remark (.asked (.fault f))]

/-- Handing out messages takes them, serves the transport and tells the application. -/
def HandsOut (cs : List Change) : Prop :=
  Serves cs ∨ cs = [.receive] ∨ ∃ i, cs = [.remark (.indicated i)]

/-- The turn of the worker takes the mark of work first. -/
def Works (cs : List Change) : Prop := cs = [.takeInterrupt] ∨ HandsOut cs

/-- **What an operation makes by itself:** the changes in one go, between any two of which adapter or
application may have their turn. -/
def Op.Makes : Op → List Change → Prop
  | .reconfigure d, cs =>
    cs = [.install d] ∨ (∃ e, cs = [.remark (.rejected d e)]) ∨ Reports .configuration cs
  | .tick, cs => cs = [.advance] ∨ Reports .coreCommunication cs
  | .avail, cs => cs = [.avail]
  | .sync, cs => cs = [.sync]
  | .activity, cs => cs = [.hear]
  | .disconnect, cs => cs = [.loseContact] ∨ Reports .transport cs
  | .signalWork, cs => cs = [.signalWork]
  | .lookForRing, cs => cs = [.lookForRing]
  | .report f, cs => Reports f cs
  | .countCrc, cs => cs = [.countCrc]
  | .setTransport t, cs => cs = [.setTransport t]
  | .setFlags flags, cs => cs = [.raiseFlags flags]
  | .clearFlags flags, cs => cs = [.clearFlags flags]
  | .enableWatchdog on, cs => cs = [.enableWatchdog on]
  | .selectCycle m, cs => cs = [.selectCycle m]
  | .addAlarm slot a, cs => cs = [.addAlarm slot a] ∨ cs = [.remark (.asked (.alarm slot a true))]
  | .removeAlarm slot a, cs =>
    cs = [.removeAlarm slot a] ∨ cs = [.remark (.asked (.alarm slot a false))]
  | .receive, cs => cs = [.receive]
  | .work, cs => Works cs
  | .workUnheard, cs => Works cs
  | .writeParam slot param bits data, cs => cs = [.writeParam slot param bits data]
  | .takeWrite, cs => cs = [.takeWrite]
  | .setSignal slot signal values, cs => cs = [.setSignal slot signal values]
  | .setValue slot signal element value, cs => cs = [.setValue slot signal element value]
  | .setSlotStatus slot status, cs => cs = [.setSlotStatus slot status]
  | .unpackOutputs frame, cs => cs = [.unpackOutputs frame]
  | .writeInputs, cs => ∃ frame, cs = [.remark (.asked (.txFrame frame))]
  | .readOutputs, cs =>
    (∃ size, cs = [.remark (.asked (.rxFrame size))]) ∨ ∃ frame, cs = [.unpackOutputs frame]

/-! ## What operations keep

The operations one by one, each taken apart at the points where somebody else has a turn: there the
law has to hold, and the handler keeps it. The turn of the worker has one point less than it has
steps. Where the mark of work was set it is taken, and the adapter is asked at once, so no law has
to hold between the two. -/

section Operations
variable {σ : Type}

namespace World

/-- The world after some changes of its gateway. -/
def after (w : World σ) (cs : List Change) : World σ := w.change (·.after cs)

/-- The changes keep a law of the world: where it holds, it holds after them. -/
def KeptBy (Q : World σ → Prop) (cs : List Change) : Prop := ∀ w, Q w → Q (w.after cs)

end World

/-- A handler that keeps a law of the world. -/
structure Handler.Keeps (Q : World σ → Prop) (h : Handler σ) : Prop where
  ask : ∀ (r : Request) (w : World σ), Q w → Q (h.ask r w).2
  tell : ∀ (i : Indication) (w : World σ), Q w → Q (h.tell i w)

theorem Handler.keeps_nobody (Q : World σ → Prop) : (nobody : Handler σ).Keeps Q :=
  ⟨fun _ _ hw => hw, fun _ _ hw => hw⟩

theorem Handler.Keeps.unheard {Q : World σ → Prop} {h : Handler σ} (hh : h.Keeps Q) :
    h.unheard.Keeps Q :=
  ⟨hh.ask, fun _ _ hw => hw⟩

namespace World
variable {Q : World σ → Prop} {h : Handler σ} {w : World σ}

/-! ### The parts of operations

To ask, to tell, to report and to serve: each is a change by which the gateway takes note, and then
the handler. The law holds before the handler is called, so it holds after it. -/

theorem keeps_ask (hh : h.Keeps Q) {r : Request} (hr : KeptBy Q [.remark (.asked r)]) (hw : Q w) :
    Q (w.ask h r).2 :=
  hh.ask r _ (hr w hw)

theorem keeps_tell (hh : h.Keeps Q) {i : Indication} (hi : KeptBy Q [.remark (.indicated i)])
    (hw : Q w) : Q (w.tell h i) :=
  hh.tell i _ (hi w hw)

/-- A change that may be refused is one to the gateway of a world too. -/
theorem keeps_attempt {c : Change} (hc : KeptBy Q [c]) {f : Gateway → Except Error Gateway}
    (hf : ∀ g : Gateway, g.attempt c = f g) (hw : Q w) : Q (w.attempt f).2 := by
  have hchange : Q { w with gateway := w.gateway.apply c } := hc w hw
  unfold attempt
  cases hg : f w.gateway with
  | error e => exact hw
  | ok g =>
    rw [Gateway.apply_of_ok ((hf _).trans hg)] at hchange
    exact hchange

theorem keeps_report (hh : h.Keeps Q) {f : Fault} (hf : ∀ cs, Reports f cs → KeptBy Q cs)
    (hw : Q w) : Q (w.report h f) :=
  keeps_ask hh (hf _ (Or.inr rfl)) (hf _ (Or.inl rfl) w hw)

/-- Serving asks the adapter, and where that fails there is a report on top. -/
theorem serve_cases (h : Handler σ) (w : World σ) :
    ((w.ask h .service).1 = .ok () ∧ w.serve h = (w.ask h .service).2) ∨
      ∃ f, (w.ask h .service).1 = .error f ∧
        w.serve h = ((w.ask h .service).2.change (·.failTransport f)).report h f := by
  unfold serve
  generalize w.ask h .service = result
  obtain ⟨f | ⟨⟩, w'⟩ := result
  · exact Or.inr ⟨f, rfl, rfl⟩
  · exact Or.inl ⟨rfl, rfl⟩

/-- Serving keeps a law that holds once the adapter is about to be asked. -/
theorem keeps_serve (hh : h.Keeps Q)
    (hk : ∀ cs, Serves cs → cs ≠ [.remark (.asked .service)] → KeptBy Q cs)
    (hw : Q (w.after [.remark (.asked .service)])) : Q (w.serve h) := by
  have hask : Q (w.ask h .service).2 := hh.ask .service _ hw
  rcases w.serve_cases h with ⟨-, hserve⟩ | ⟨f, -, hserve⟩
  · rw [hserve]
    exact hask
  · rw [hserve]
    -- the failure and its fault are taken down in one go
    have hfail : Q (((w.ask h .service).2.change (·.failTransport f)).change (·.fault f)) :=
      hk _ (Or.inr ⟨f, Or.inl rfl⟩) (by simp) _ hask
    exact keeps_ask hh (hk _ (Or.inr ⟨f, Or.inr rfl⟩) (by simp)) hfail

/-- A tick is a change, and a report if the watchdog expires with it. -/
theorem tick_eq (h : Handler σ) (w : World σ) :
    w.tick h = if w.gateway.advance.1 then (w.change (·.advance.2)).report h .coreCommunication
      else w.change (·.advance.2) := by
  unfold tick answer change
  dsimp only
  generalize w.gateway.advance = result
  obtain ⟨_ | _, g⟩ := result <;> rfl

theorem keeps_tick (hh : h.Keeps Q) (hk : ∀ cs, Op.tick.Makes cs → KeptBy Q cs) (hw : Q w) :
    Q (w.tick h) := by
  have hadvance : Q (w.change (·.advance.2)) := hk _ (Or.inl rfl) w hw
  rw [tick_eq]
  split
  · exact keeps_report hh (fun cs hcs => hk cs (Or.inr hcs)) hadvance
  · exact hadvance

/-- A disconnection is a change, and a report if there was contact. -/
theorem disconnect_eq (h : Handler σ) (w : World σ) :
    w.disconnect h =
      if w.gateway.loseContact.1 then (w.change (·.loseContact.2)).report h .transport
      else w.change (·.loseContact.2) := by
  unfold disconnect answer change
  dsimp only
  generalize w.gateway.loseContact = result
  obtain ⟨_ | _, g⟩ := result <;> rfl

theorem keeps_disconnect (hh : h.Keeps Q) (hk : ∀ cs, Op.disconnect.Makes cs → KeptBy Q cs)
    (hw : Q w) : Q (w.disconnect h) := by
  have hlose : Q (w.change (·.loseContact.2)) := hk _ (Or.inl rfl) w hw
  rw [disconnect_eq]
  split
  · exact keeps_report hh (fun cs hcs => hk cs (Or.inr hcs)) hlose
  · exact hlose

/-! ### The turn

The induction is on the number of messages to be handed out. Between taking the mark of work and
asking the adapter nobody has a turn, so the two count as one. -/

/-- Handing out a message takes it from the queue, has the transport served before a poll, and
tells the application. -/
theorem keeps_dispatch (hh : h.Keeps Q) (hk : ∀ cs, HandsOut cs → KeptBy Q cs) (count : Nat) :
    ∀ (served : Bool) {w : World σ}, Q w → Q (dispatch h count served w) := by
  have htell : ∀ i {w : World σ}, Q w → Q (w.tell h i) := by
    intro i w
    exact keeps_tell hh (hk _ (Or.inr (Or.inr ⟨i, rfl⟩)))
  induction count with
  | zero => exact fun _ _ hw => hw
  | succ count ih =>
    intro served w hw
    have hreceive : Q (w.answer (·.receive)).2 := hk _ (Or.inr (Or.inl rfl)) w hw
    unfold dispatch
    generalize w.answer (·.receive) = result at hreceive ⊢
    obtain ⟨_ | m, w'⟩ := result
    · exact hreceive
    · have hserve : Q (if served then w' else w'.serve h) := by
        split
        · exact hreceive
        · exact keeps_serve hh (fun cs hcs _ => hk cs (Or.inl hcs))
            (hk _ (Or.inl (Or.inl rfl)) w' hreceive)
      -- only a poll has the transport served
      cases m with
      | poll => exact ih true (htell .poll hserve)
      | _ => exact ih served (htell _ hreceive)

/-- A turn takes the mark of work, serves the transport if there was one, and hands out messages.
Nobody sees the mark taken before the adapter is asked. -/
theorem keeps_work (hh : h.Keeps Q) (hk : ∀ cs, HandsOut cs → KeptBy Q cs)
    (htake : w.gateway.interrupt = true → Q (w.after [.takeInterrupt, .remark (.asked .service)]))
    (hidle : w.gateway.interrupt = false → Q w) : Q (w.work h).2 := by
  unfold work
  cases hmark : w.gateway.interrupt with
  | true =>
    have hanswer : w.answer (·.takeInterrupt) = (true, w.after [.takeInterrupt]) :=
      Prod.ext hmark rfl
    rw [hanswer]
    exact keeps_dispatch hh hk _ _
      (keeps_serve hh (fun cs hcs _ => hk cs (Or.inl hcs)) (htake hmark))
  | false =>
    have hanswer : w.answer (·.takeInterrupt) = (false, w) := by
      unfold answer
      dsimp only
      rw [Gateway.takeInterrupt_of_idle hmark]
    rw [hanswer]
    exact keeps_dispatch hh hk _ _ (hidle hmark)

theorem keeps_reconfigure (hh : h.Keeps Q) {d : Device}
    (hk : ∀ cs, (Op.reconfigure d).Makes cs → KeptBy Q cs) (hw : Q w) :
    Q (w.reconfigure h d).2 := by
  have hinstall := keeps_attempt (hk _ (Or.inl rfl)) (fun g => (rfl : _ = g.installDevice d)) hw
  unfold attempt Gateway.installDevice at hinstall
  unfold reconfigure
  cases hc : Configuration.ofDevice d with
  | error e =>
    have hnote : Q (w.change (·.note (.rejected d e))) := hk _ (Or.inr (Or.inl ⟨e, rfl⟩)) w hw
    exact keeps_report hh (fun cs hcs => hk cs (Or.inr (Or.inr hcs))) hnote
  | ok c =>
    rw [hc] at hinstall
    exact hinstall

/-- Changing an alarm is a change that may be refused, and a request if it is not. -/
theorem keeps_changeAlarm (hh : h.Keeps Q) {slot : UInt16} {a : Alarm} {active : Bool}
    {c : Change} (hc : KeptBy Q [c])
    (hf : ∀ g : Gateway, g.attempt c = if active then g.addAlarm slot a else g.removeAlarm slot a)
    (hask : KeptBy Q [.remark (.asked (.alarm slot a active))]) (hw : Q w) :
    Q (w.changeAlarm h slot a active).2 := by
  have hchange := keeps_attempt hc hf hw
  unfold changeAlarm
  generalize (w.attempt fun g => if active then g.addAlarm slot a else g.removeAlarm slot a) =
    result at hchange ⊢
  obtain ⟨_ | _, w'⟩ := result
  · exact hchange
  · exact keeps_ask hh hask hchange

theorem keeps_writeInputs (hh : h.Keeps Q) (hk : ∀ cs, Op.writeInputs.Makes cs → KeptBy Q cs)
    (hw : Q w) : Q (w.writeInputs h).2 := by
  unfold writeInputs
  rcases w.gateway.packInputs (w.gateway.blankFrame .tx) with ⟨_ | _, frame⟩
  · exact hw
  · exact keeps_ask hh (hk _ ⟨frame, rfl⟩) hw

theorem keeps_readOutputs (hh : h.Keeps Q) (hk : ∀ cs, Op.readOutputs.Makes cs → KeptBy Q cs)
    (hw : Q w) : Q (w.readOutputs h).2 := by
  have hask := keeps_ask hh (hk _ (Or.inl ⟨(w.gateway.config.layout.frame .rx).size, rfl⟩)) hw
  unfold readOutputs
  generalize w.ask h (.rxFrame (w.gateway.config.layout.frame .rx).size) = result at hask ⊢
  obtain ⟨frame, w'⟩ := result
  exact keeps_attempt (hk _ (Or.inr ⟨frame.toArray, rfl⟩)) (fun g => rfl) hask

end World

/-- **An operation keeps a law of the world** if what it makes by itself and what its handler does
keep it. A turn of the worker that takes the mark of work asks the adapter right then, so there both
are made before the law has to hold again. -/
theorem Op.keeps_run {Q : World σ → Prop} {h : Handler σ} (hh : h.Keeps Q) {op : Op}
    (hk : ∀ cs, op.Makes cs → cs ≠ [.takeInterrupt] → World.KeptBy Q cs) {w : World σ}
    (htake : op.Makes [.takeInterrupt] → w.gateway.interrupt = true →
      Q (w.after [.takeInterrupt, .remark (.asked .service)])) (hw : Q w) :
    Q (op.run h w).2 := by
  have hout : ∀ cs, HandsOut cs → cs ≠ [.takeInterrupt] := by
    rintro cs ((rfl | ⟨f, rfl | rfl⟩) | rfl | ⟨i, rfl⟩) <;> simp
  -- the turns of the worker apart, no operation takes the mark
  have hall : ¬ op.Makes [.takeInterrupt] → ∀ cs, op.Makes cs → World.KeptBy Q cs := by
    intro hnot cs hcs
    exact hk cs hcs fun heq => hnot (heq ▸ hcs)
  have hreport : ∀ f, ¬ Reports f [.takeInterrupt] := by
    simp [Reports]
  cases op with
  | work =>
    exact World.keeps_work hh (fun cs hcs => hk cs (Or.inr hcs) (hout cs hcs))
      (htake (Or.inl rfl)) fun _ => hw
  | workUnheard =>
    exact World.keeps_work hh.unheard (fun cs hcs => hk cs (Or.inr hcs) (hout cs hcs))
      (htake (Or.inl rfl)) fun _ => hw
  | reconfigure d => exact World.keeps_reconfigure hh (hall (by simp [Op.Makes, hreport])) hw
  | tick => exact World.keeps_tick hh (hall (by simp [Op.Makes, hreport])) hw
  | disconnect => exact World.keeps_disconnect hh (hall (by simp [Op.Makes, hreport])) hw
  | report f => exact World.keeps_report hh (hall (hreport f)) hw
  | addAlarm slot a | removeAlarm slot a =>
    have hk := hall (by simp [Op.Makes])
    exact World.keeps_changeAlarm hh (hk _ (Or.inl rfl)) (fun g => rfl) (hk _ (Or.inr rfl)) hw
  | writeInputs => exact World.keeps_writeInputs hh (hall (by simp [Op.Makes])) hw
  | readOutputs => exact World.keeps_readOutputs hh (hall (by simp [Op.Makes])) hw
  | writeParam _ _ _ _ | setSignal _ _ _ | setValue _ _ _ _ | setSlotStatus _ _
  | unpackOutputs _ =>
    exact World.keeps_attempt (hall (by simp [Op.Makes]) _ rfl) (fun g => rfl) hw
  -- all others are one change that is never refused
  | avail | sync | activity | signalWork | lookForRing | countCrc | setTransport _ | setFlags _
  | clearFlags _ | enableWatchdog _ | selectCycle _ | receive | takeWrite =>
    exact hall (by simp [Op.Makes]) _ rfl w hw

/-! ## Operations keep a conduct

The laws above for the law of having come from a gateway by allowed changes. A handler is fair if
whatever it does to the gateway is allowed. -/

/-- A handler whose changes of the gateway a conduct allows. -/
structure Handler.FairBy (k : Conduct) (h : Handler σ) : Prop where
  ask : ∀ (r : Request) (w : World σ), w.gateway.LeadsBy k (h.ask r w).2.gateway
  tell : ∀ (i : Indication) (w : World σ), w.gateway.LeadsBy k (h.tell i w).gateway

theorem Handler.fairBy_nobody (k : Conduct) : (nobody : Handler σ).FairBy k :=
  ⟨fun _ w => Gateway.LeadsBy.refl k w.gateway, fun _ w => Gateway.LeadsBy.refl k w.gateway⟩

theorem Handler.FairBy.mono {k l : Conduct} {h : Handler σ} (hkl : ∀ cs, k.Allows cs → l.Allows cs)
    (hh : h.FairBy k) : h.FairBy l :=
  ⟨fun r w => (hh.ask r w).mono hkl, fun i w => (hh.tell i w).mono hkl⟩

/-- To have come from a gateway by allowed changes is a law of the world. -/
theorem Handler.FairBy.keeps {k : Conduct} {h : Handler σ} (hh : h.FairBy k) (g : Gateway) :
    h.Keeps fun w => g.LeadsBy k w.gateway :=
  ⟨fun r w hw => hw.trans (hh.ask r w), fun i w hw => hw.trans (hh.tell i w)⟩

theorem World.keptBy_of_allows {k : Conduct} {cs : List Change} (hcs : k.Allows cs) (g : Gateway) :
    KeptBy (fun w : World σ => g.LeadsBy k w.gateway) cs :=
  fun w hw => hw.trans (Gateway.leadsBy_after hcs w.gateway)

namespace World
variable {k : Conduct} {h : Handler σ}

theorem leadsBy_ask (hh : h.FairBy k) {r : Request} (hr : k.Allows [.remark (.asked r)])
    (w : World σ) : w.gateway.LeadsBy k (w.ask h r).2.gateway :=
  keeps_ask (hh.keeps w.gateway) (keptBy_of_allows hr _) (.refl k _)

theorem leadsBy_report (hh : h.FairBy k) {f : Fault} (hf : ∀ cs, Reports f cs → k.Allows cs)
    (w : World σ) : w.gateway.LeadsBy k (w.report h f).gateway :=
  keeps_report (hh.keeps w.gateway) (fun cs hcs => keptBy_of_allows (hf cs hcs) _) (.refl k _)

theorem leadsBy_serve (hh : h.FairBy k) (hk : ∀ cs, Serves cs → k.Allows cs) (w : World σ) :
    w.gateway.LeadsBy k (w.serve h).gateway :=
  keeps_serve (hh.keeps w.gateway) (fun cs hcs _ => keptBy_of_allows (hk cs hcs) _)
    (Gateway.leadsBy_after (hk _ (Or.inl rfl)) w.gateway)

theorem leadsBy_dispatch (hh : h.FairBy k) (hk : ∀ cs, HandsOut cs → k.Allows cs) (count : Nat)
    (served : Bool) (w : World σ) : w.gateway.LeadsBy k (dispatch h count served w).gateway :=
  keeps_dispatch (hh.keeps w.gateway) (fun cs hcs => keptBy_of_allows (hk cs hcs) _) count served
    (.refl k _)

end World

/-- **An operation keeps a conduct** if what it makes by itself and what its handler does keep it. -/
theorem Op.leadsBy_run {k : Conduct} {h : Handler σ} (hh : h.FairBy k) {op : Op}
    (hk : ∀ cs, op.Makes cs → k.Allows cs) (w : World σ) :
    w.gateway.LeadsBy k (op.run h w).2.gateway := by
  refine Op.keeps_run (hh.keeps w.gateway)
    (fun cs hcs _ => World.keptBy_of_allows (hk cs hcs) _) (fun hmakes _ => ?_) (.refl k _)
  -- an operation that takes the mark asks the adapter for service as well
  have hask : op.Makes [.remark (.asked .service)] := by
    cases op with
    | work | workUnheard => exact Or.inr (Or.inl (Or.inl rfl))
    | _ => simp [Op.Makes, Reports] at hmakes
  exact Gateway.leadsBy_after (k.append (hk _ hmakes) (hk _ hask)) w.gateway

end Operations

/-! ## Scripts keep a conduct

Adapter and application are scripts, which call operations, which may ask again. The induction is on
the depth up to which calls are answered: at depth zero nobody answers, and one deeper the answers
are scripts that call operations at the depth before. `Environment.CallsOnly` restricts which
operations these may be, for the laws that do not hold of all. -/

section Scripts
variable {σ : Type}

/-- All operations that a script may come to call are of one kind. -/
def Script.CallsOnly {α : Type} (A : Op → Prop) : Script σ α → Prop
  | .done _ => True
  | .look next => ∀ g outside, (next g outside).CallsOnly A
  | .store _ next => next.CallsOnly A
  | .call op next => A op ∧ ∀ r, (next r).CallsOnly A

/-- Neither adapter nor application ever calls an operation of another kind. -/
structure Environment.CallsOnly (A : Op → Prop) (env : Environment σ) : Prop where
  adapter : ∀ r, (env.adapter r).CallsOnly A
  application : ∀ i, (env.application i).CallsOnly A

theorem Script.callsOnly_true {α : Type} (s : Script σ α) : s.CallsOnly fun _ => True := by
  induction s with
  | done a => trivial
  | look next ih => exact ih
  | store outside next ih => exact ih
  | call op next ih => exact ⟨trivial, ih⟩

theorem Environment.callsOnly_true (env : Environment σ) : env.CallsOnly fun _ => True :=
  ⟨fun r => (env.adapter r).callsOnly_true, fun i => (env.application i).callsOnly_true⟩

/-- A script keeps a conduct if the operations do that it calls. -/
theorem Script.leadsBy_run {α : Type} {k : Conduct} {A : Op → Prop}
    {perform : (op : Op) → World σ → op.Result × World σ}
    (hp : ∀ op, A op → ∀ w : World σ, w.gateway.LeadsBy k (perform op w).2.gateway)
    {s : Script σ α} (hs : s.CallsOnly A) (w : World σ) :
    w.gateway.LeadsBy k (s.run perform w).2.gateway := by
  induction s generalizing w with
  | done a => exact Gateway.LeadsBy.refl k _
  | look next ih => exact ih _ _ (hs _ _) w
  | store outside next ih => exact ih hs { w with outside }
  | call op next ih => exact (hp op hs.1 w).trans (ih _ (hs.2 _) _)

/-- Who answers an operation performed at some depth. -/
def Environment.peers (env : Environment σ) : (depth : Nat) → Handler σ
  | 0 => .nobody
  | depth + 1 => env.handler (env.perform depth)

theorem Environment.perform_eq (env : Environment σ) (depth : Nat) (op : Op) (w : World σ) :
    env.perform depth op w = op.run (env.peers depth) w := by
  cases depth <;> rfl

/-- A turn tells whether it leaves the transport working. -/
theorem Environment.answer_work (env : Environment σ) (depth : Nat) (w : World σ) :
    (env.perform depth .work w).1 = (env.perform depth .work w).2.gateway.isOperable := by
  rw [env.perform_eq]
  rfl

variable {k : Conduct} {A : Op → Prop} {env : Environment σ}

/-- Peers keep a conduct if all that they may call does. -/
theorem Environment.fairBy_peers (hk : ∀ op, A op → ∀ cs, op.Makes cs → k.Allows cs)
    (henv : env.CallsOnly A) (depth : Nat) : (env.peers depth).FairBy k := by
  induction depth with
  -- at the bottom nobody answers; above it, answers are scripts of calls one level below
  | zero => exact Handler.fairBy_nobody k
  | succ depth ih =>
    have hp : ∀ op, A op → ∀ w : World σ, w.gateway.LeadsBy k (env.perform depth op w).2.gateway := by
      intro op hop w
      rw [env.perform_eq]
      exact Op.leadsBy_run ih (hk op hop) w
    exact ⟨fun r w => Script.leadsBy_run hp (henv.adapter r) w,
      fun i w => Script.leadsBy_run hp (henv.application i) w⟩

/-- Whatever scripts do, they are free to. -/
theorem Environment.fairBy_free (env : Environment σ) (depth : Nat) :
    (env.peers depth).FairBy .free :=
  Environment.fairBy_peers (fun _ _ cs _ => Conduct.free_allows cs) env.callsOnly_true depth

/-- **An operation among scripts keeps a conduct** if it does by itself and all that they may call
does. -/
theorem Environment.leadsBy_perform (hk : ∀ op, A op → ∀ cs, op.Makes cs → k.Allows cs)
    (henv : env.CallsOnly A) (depth : Nat) (op : Op) (hop : A op) (w : World σ) :
    w.gateway.LeadsBy k (env.perform depth op w).2.gateway := by
  rw [env.perform_eq]
  exact Op.leadsBy_run (Environment.fairBy_peers hk henv depth) (hk op hop) w

/-- Whatever adapter and application do, an operation is a sequence of changes. -/
theorem Environment.leads_perform (env : Environment σ) (depth : Nat) (op : Op) (w : World σ) :
    w.gateway.Leads (env.perform depth op w).2.gateway := by
  rw [Gateway.leads_iff_leadsBy_free]
  have hfree : ∀ op, True → ∀ cs, Op.Makes op cs → Conduct.free.Allows cs :=
    fun _ _ cs _ => Conduct.free_allows cs
  exact Environment.leadsBy_perform hfree env.callsOnly_true depth op trivial w

/-- **A run goes on with any operation**, whatever adapter and application do. -/
theorem Run.exists_perform (r : Run) (env : Environment σ) (depth : Nat) (op : Op) {w : World σ}
    (hw : w.gateway = r.state) :
    ∃ cs, (r.andThen cs).state = (env.perform depth op w).2.gateway := by
  obtain ⟨cs, hcs⟩ := env.leads_perform depth op w
  exact ⟨cs, by rw [r.state_andThen, ← hw, hcs]⟩

/-- A run goes on with any request, whoever is asked. -/
theorem Run.exists_ask (r : Run) {h : Handler σ} (hh : h.FairBy .free) (outside : σ)
    (request : Request) :
    ∃ cs, (r.andThen cs).state = (World.ask ⟨r.state, outside⟩ h request).2.gateway := by
  obtain ⟨cs, -, hcs⟩ :=
    World.leadsBy_ask hh (Conduct.free_allows [.remark (.asked request)]) ⟨r.state, outside⟩
  exact ⟨cs, (r.state_andThen cs).trans hcs⟩

end Scripts

end Fieldbus
