import Fieldbus.Proofs.Driving
import Fieldbus.Proofs.Silence
import Fieldbus.Proofs.Telling
/-!
Contact: what the flag of the contact, the watchdog, the mark of a failed transport and the last
fault have to do with each other.

Each change does one of four things to them (`Gateway.Ties`): a valid exchange sets all of them
right, a failure of the transport ends the contact, a report takes down a fault, and every other
change leaves the failure and the fault alone and neither begins a contact nor lets the watchdog of
one expire. The laws of whole runs follow from that:

* in contact, the transport has not failed and the watchdog has not expired (`Run.tied`);
* the transport has failed exactly if serving it failed since the last valid exchange
  (`Run.transportFailed_iff`);
* once a failure was reported, there is a last fault until the next exchange
  (`Run.exists_lastFault`), and it is the one reported latest (`Run.head?_faults`).

Two things keep the laws from being plainer. The flag of the contact can be set by hand, like all
others, and then nothing needs to be well; so the first law is about runs in which nobody does that
(`Change.SparesContact`). And a failure is taken down before it is reported, by two changes; so the
third is about states in which all that was taken down was reported (`Gateway.Settled`), as it is
between operations.

What a drive tells of when it is stopped is a matter of its own. The worker finds the transport
failed in one move and looks for the last fault in the next. Left alone, it finds the fault reported
latest (`Run.stopped_by_lastFault`). Others that hear the host in between take the fault away, and
then the drive tells of the transport in general: `Gateway.StopsWith` says what it is stopped with
in either case, and `not_always_stopped_with_latest_fault` that the second one does come up.
-/

namespace Fieldbus

/-! ## What a change does to the contact

`Gateway.Ties` has one case for each of the four things, and each case says which events of the
contact the change has noted, so that a law about the past can go by the journal alone.
`Gateway.ties_apply` sorts the changes: those that configure keep everything but the status, and of
the others each has its own law of what it leaves.

The tick is the one that takes an argument. It can end a contact but not begin one; and a watchdog
that expires with it has the flags of the contact cleared, so in a contact that outlasts the tick
the watchdog has not expired by it (`Gateway.tied_advance`). -/

/-- Whether a change is a valid exchange with the host. -/
def Change.isExchange : Change → Bool
  | .avail | .sync | .hear => true
  | _ => false

/-- A change that does not set the flag of the contact by hand. -/
def Change.SparesContact : Change → Prop
  | .raiseFlags flags => flags &&& Status.connected = 0
  | _ => True

/-- No flag that was cleared is set. -/
theorem Status.has_withoutFlags_eq_false {s : Status} {flags flag : UInt32}
    (h : ~~~flags &&& flag = 0) : (s.withoutFlags flags).has flag = false := by
  have hzero : s.bits &&& ~~~flags &&& flag = 0 := by
    rw [UInt32.and_assoc, h, UInt32.and_zero]
  unfold Status.has Status.withoutFlags
  rw [hzero]
  rfl

/-- A watchdog that does not expire with a check is left as it is. -/
theorem Watchdog.check_of_false {w : Watchdog} {now : UInt32} (h : (w.check now).1 = false) :
    (w.check now).2 = w := by
  unfold check at h ⊢
  split at h
  · next hsame => rw [if_pos hsame]
  · cases h

namespace Gateway

/-- In contact with the host, as the status has it. -/
def isConnected (g : Gateway) : Bool := g.status.has Status.connected

/-- **What a change does to the contact.** -/
inductive Ties (g : Gateway) (c : Change) (g' : Gateway) : Prop where
  /-- A valid exchange sets all right. -/
  | heard (said : c.contacts = [.heard]) (connected : g'.isConnected = true)
    (failed : g'.transportFailed = false) (expired : g'.watchdog.expired = false)
    (fault : g'.lastFault = none)
  /-- A failure of the transport ends the contact. -/
  | failed (f : Fault) (said : c.contacts = [.failed f]) (connected : g'.isConnected = false)
    (failed : g'.transportFailed = true) (fault : g'.lastFault = g.lastFault)
  /-- A report takes down a fault. -/
  | reported (f : Fault) (said : c.contacts = [.reported f])
    (connected : g'.isConnected = g.isConnected) (failed : g'.transportFailed = g.transportFailed)
    (expired : g'.watchdog.expired = g.watchdog.expired) (fault : g'.lastFault = some f)
  /-- All else neither begins a contact, unless by hand, nor lets the watchdog of one expire. -/
  | kept (said : c.contacts = []) (failed : g'.transportFailed = g.transportFailed)
    (fault : g'.lastFault = g.lastFault)
    (tied : c.SparesContact → g'.isConnected = true →
      g.isConnected = true ∧ (g'.watchdog.expired = true → g.watchdog.expired = true))

variable (g : Gateway)

theorem isConnected_hear : g.hear.isConnected = true := by
  have hstatus : ∃ before : Status, g.hear.status = before.withFlags Status.connected := by
    unfold hear
    exact ⟨_, status_setFlags ..⟩
  obtain ⟨before, hbefore⟩ := hstatus
  unfold isConnected
  rw [hbefore, Status.has_withFlags]
  exact Or.inr (by decide)

theorem status_loseContact :
    g.loseContact.2.status = g.status.withoutFlags Status.connectionDependent := by
  have hclear : g.loseContact.2.status = (g.clearFlags Status.connectionDependent).status := by
    unfold loseContact
    dsimp only
    split <;> rfl
  rw [hclear, status_clearFlags]

theorem status_raiseFlags (flags : UInt32) :
    (g.raiseFlags flags).status = g.status.withFlags flags := by
  unfold raiseFlags
  dsimp only
  split <;> exact status_setFlags ..

/-- Setting flags does not let the watchdog expire. -/
theorem expired_of_raiseFlags {flags : UInt32}
    (h : (g.raiseFlags flags).watchdog.expired = true) : g.watchdog.expired = true := by
  unfold raiseFlags at h
  dsimp only at h
  split at h
  · cases h
  · exact h

variable {g} {c : Change}

/-- Setting other flags than that of the contact begins none. -/
theorem isConnected_of_withFlags {g' : Gateway} {flags : UInt32}
    (hstatus : g'.status = g.status.withFlags flags) (hspares : flags &&& Status.connected = 0)
    (h : g'.isConnected = true) : g.isConnected = true := by
  unfold isConnected at h
  rw [hstatus, Status.has_withFlags] at h
  exact h.resolve_right (not_not.2 hspares)

/-- An exchange is one, whatever is indicated on top. -/
theorem Ties.of_hear {g' : Gateway} (said : c.contacts = [.heard])
    (h : g' = { g.hear with link := g'.link }) (hstatus : g'.status = g.hear.status) :
    g.Ties c g' := by
  have hhear := g.hear_eq
  refine .heard said ?_ ?_ ?_ ?_
  · unfold isConnected
    rw [hstatus]
    exact g.isConnected_hear
  · rw [h]
    exact congrArg transportFailed hhear
  · rw [h]
    exact congrArg (fun g => g.watchdog.expired) hhear
  · rw [h]
    exact congrArg lastFault hhear

/-- What clears flags and touches nothing but the link begins no contact. -/
theorem Ties.of_cleared {g' : Gateway} {flags : UInt32} (said : c.contacts = [])
    (h : g' = { g with link := g'.link }) (hstatus : g'.status = g.status.withoutFlags flags) :
    g.Ties c g' := by
  refine .kept said ?_ ?_ fun _ hconnected => ⟨?_, fun hexpired => ?_⟩
  · rw [h]
  · rw [h]
  · unfold isConnected at hconnected
    rw [hstatus] at hconnected
    exact Status.has_of_has_withoutFlags hconnected
  · rw [h] at hexpired
    exact hexpired

/-- A tick that leaves the contact leaves the watchdog as it is. -/
theorem tied_advance (h : g.advance.2.isConnected = true) :
    g.isConnected = true ∧ (g.advance.2.watchdog.expired = true → g.watchdog.expired = true) := by
  have hstatus := g.status_advance
  unfold isConnected at h ⊢
  cases hexpires : g.advance.1 with
  | true =>
    rw [hexpires, if_pos rfl] at hstatus
    rw [hstatus, Status.has_withoutFlags_eq_false (by decide)] at h
    cases h
  | false =>
    rw [hexpires] at hstatus
    rw [hstatus] at h
    refine ⟨h, fun hexpired => ?_⟩
    cases hon : g.status.has Status.watchdog with
    | true =>
      obtain ⟨hanswer, -, hwatchdog, -, -⟩ := g.advance_of_on hon
      rw [hexpires] at hanswer
      rw [hwatchdog, Watchdog.check_of_false hanswer.symm] at hexpired
      exact hexpired
    | false =>
      rw [g.advance_of_off hon, g.ticked_keeps.2.1] at hexpired
      exact hexpired

/-- **Every change does one of the four.** -/
theorem ties_apply (g : Gateway) (c : Change) : g.Ties c (g.apply c) := by
  cases hc : c.configures with
  | true =>
    have hsaid : c.contacts = [] := by
      cases c <;> first | rfl | cases hc
    cases h : g.attempt c with
    | error e =>
      rw [apply_of_error h]
      exact .kept hsaid rfl rfl fun _ hconnected => ⟨hconnected, id⟩
    | ok g' =>
      -- all that it can set is the mark that a device is configured
      obtain ⟨hrest, hstatus, -⟩ := attempt_of_configures hc h
      rw [apply_of_ok h]
      refine .kept hsaid (by rw [hrest]) (by rw [hrest]) fun _ hconnected => ⟨?_, fun hexpired => ?_⟩
      · rcases hstatus with hstatus | hstatus
        · unfold isConnected at hconnected ⊢
          rwa [hstatus] at hconnected
        · exact isConnected_of_withFlags hstatus (by decide) hconnected
      · rw [hrest] at hexpired
        exact hexpired
  | false =>
    cases c with
    -- the exchanges
    | hear => exact .of_hear rfl rfl rfl
    | avail =>
      refine .of_hear rfl g.avail_eq ?_
      show g.avail.status = _
      unfold avail
      dsimp only
      split <;> rfl
    | sync =>
      refine .of_hear rfl g.sync_eq ?_
      show g.sync.status = _
      unfold sync
      dsimp only
      split <;> rfl
    | failTransport f =>
      refine .failed f rfl ?_ rfl rfl
      show (g.failTransport f).isConnected = false
      unfold isConnected failTransport
      rw [status_clearFlags]
      exact Status.has_withoutFlags_eq_false (by decide)
    | fault f => exact .reported f rfl rfl rfl rfl rfl
    | advance =>
      have hframe := g.advance_eq
      exact .kept rfl (congrArg transportFailed hframe :) (congrArg lastFault hframe :)
        fun _ => tied_advance
    -- what follows clears flags, or sets such as a gateway may set by itself
    | loseContact => exact .of_cleared rfl g.loseContact_eq g.status_loseContact
    | clearFlags flags => exact .of_cleared rfl rfl (g.status_clearFlags flags)
    | raiseFlags flags =>
      have hframe := g.raiseFlags_eq flags
      refine .kept rfl (congrArg transportFailed hframe :) (congrArg lastFault hframe :)
        fun hspares hconnected => ⟨?_, g.expired_of_raiseFlags⟩
      exact isConnected_of_withFlags (g.status_raiseFlags flags) hspares hconnected
    | enableWatchdog on =>
      cases on with
      | false => exact .of_cleared rfl rfl (g.status_clearFlags Status.watchdog)
      | true =>
        -- the watchdog counts anew, so it has not expired
        refine .kept rfl rfl rfl fun _ hconnected => ⟨?_, fun hexpired => nomatch hexpired⟩
        have hstatus : (g.apply (.enableWatchdog true)).status =
            g.status.withFlags Status.watchdog :=
          g.restartWatchdog.status_setFlags Status.watchdog
        exact isConnected_of_withFlags hstatus (by decide) hconnected
    | remark _ | signalWork | takeInterrupt | lookForRing | lieDown | getUp | countCrc
    | setTransport _ | selectCycle _ | receive =>
      exact .kept rfl rfl rfl fun _ hconnected => ⟨hconnected, id⟩
    | _ => cases hc

theorem untied_of_make {s : Settings} {d : Device} {g : Gateway} (h : make s d = .ok g) :
    g.transportFailed = false ∧ g.watchdog.expired = false ∧ g.lastFault = none := by
  unfold make at h
  split at h
  · cases h
  · rw [Except.ok.injEq] at h
    subst h
    split <;> exact ⟨rfl, rfl, rfl⟩

end Gateway

/-! ## Whole runs

Each law is an induction on the run with the four cases of its last change, and nothing else is
looked at. The first one is about the present and needs its hypothesis for the state before. The
others compare the present with the past: `Since` says that something has happened and that nothing
of another kind did after it, newest first, so each case adds what the change has said to the front
of the past. -/

namespace Run

/-- **In contact, all is well:** the transport has not failed, and the watchdog has not expired. -/
theorem tied (r : Run) (hr : ∀ c ∈ r.changes, c.SparesContact)
    (hconnected : r.state.isConnected = true) :
    r.state.transportFailed = false ∧ r.state.watchdog.expired = false := by
  induction r using Run.induct with
  | hmade h => exact ⟨(Gateway.untied_of_make h).1, (Gateway.untied_of_make h).2.1⟩
  | hnext r c ih =>
    have hspares : c.SparesContact := hr c (List.mem_append_right r.changes List.mem_cons_self)
    have hbefore := ih fun x hx => hr x (List.mem_append_left [c] hx)
    rw [r.state_next] at hconnected ⊢
    cases r.state.ties_apply c with
    | heard _ _ hfailed hexpired _ => exact ⟨hfailed, hexpired⟩
    | failed f _ hlost _ _ =>
      rw [hconnected] at hlost
      cases hlost
    | reported f _ hsame hfailed hexpired _ =>
      rw [hfailed, hexpired]
      exact hbefore (hsame ▸ hconnected)
    | kept _ hfailed _ htied =>
      obtain ⟨hwas, hexpired⟩ := htied hspares hconnected
      obtain ⟨hworks, hruns⟩ := hbefore hwas
      refine ⟨hfailed.trans hworks, ?_⟩
      rw [← Bool.not_eq_true] at hruns ⊢
      exact fun hnow => hruns (hexpired hnow)

/-- **The transport has failed exactly if serving it failed since the last valid exchange.** -/
theorem transportFailed_iff (r : Run) :
    r.state.transportFailed = true ↔
      Since (fun x _ => ∃ f, x = .failed f) (· ≠ .heard) r.state.contacts := by
  induction r using Run.induct with
  | @hmade s d g h =>
    show g.transportFailed = true ↔ Since _ _ g.contacts
    rw [(Gateway.untied_of_make h).1, Gateway.contacts_of_make h]
    exact iff_of_false Bool.false_ne_true not_since_nil
  | hnext r c ih =>
    rw [r.state_next, Gateway.contacts_apply]
    cases r.state.ties_apply c with
    | heard said _ hfailed _ _ =>
      rw [said, List.singleton_append, since_cons, hfailed]
      simp
    | failed f said _ hfailed _ =>
      rw [said, List.singleton_append, since_cons, hfailed]
      simp
    | reported f said _ hfailed _ _ =>
      rw [said, List.singleton_append, since_cons, hfailed, ih]
      simp
    | kept said hfailed _ _ =>
      rw [said, List.nil_append, hfailed, ih]

/-- **There is a last fault exactly if one was reported since the last valid exchange.** -/
theorem isSome_lastFault_iff (r : Run) :
    r.state.lastFault.isSome = true ↔
      Since (fun x _ => ∃ f, x = .reported f) (· ≠ .heard) r.state.contacts := by
  induction r using Run.induct with
  | @hmade s d g h =>
    show g.lastFault.isSome = true ↔ Since _ _ g.contacts
    rw [(Gateway.untied_of_make h).2.2, Gateway.contacts_of_make h]
    exact iff_of_false Bool.false_ne_true not_since_nil
  | hnext r c ih =>
    rw [r.state_next, Gateway.contacts_apply]
    cases r.state.ties_apply c with
    | heard said _ _ _ hfault =>
      rw [said, List.singleton_append, since_cons, hfault]
      simp
    | failed f said _ _ hfault =>
      rw [said, List.singleton_append, since_cons, hfault, ih]
      simp
    | reported f said _ _ _ hfault =>
      rw [said, List.singleton_append, since_cons, hfault]
      simp
    | kept said _ hfault _ =>
      rw [said, List.nil_append, hfault, ih]

end Run

/-- The fault that is reported. -/
def Contact.fault? : Contact → Option Fault
  | .reported f => some f
  | _ => none

/-- The faults reported so far are among what is said of the contact. -/
theorem Gateway.faults_eq (g : Gateway) : g.faults = g.contacts.filterMap Contact.fault? := by
  unfold faults Outbox.faults contacts
  rw [List.filterMap_filterMap]
  congr 1
  funext e
  cases e <;> rfl

/-- **The last fault is the one reported latest.** -/
theorem Run.head?_faults (r : Run) {f : Fault} (hf : r.state.lastFault = some f) :
    r.state.faults.head? = some f := by
  induction r using Run.induct with
  | @hmade s d g h =>
    have hnone : g.lastFault = none := (Gateway.untied_of_make h).2.2
    cases hnone.symm.trans hf
  | hnext r c ih =>
    have hfaults : (r.next c).state.faults =
        c.contacts.filterMap Contact.fault? ++ r.state.faults := by
      rw [r.state_next, Gateway.faults_eq, Gateway.contacts_apply, List.filterMap_append,
        ← Gateway.faults_eq]
    rw [hfaults]
    rw [r.state_next] at hf
    cases r.state.ties_apply c with
    | heard _ _ _ _ hfault => cases hfault.symm.trans hf
    | failed f' said _ _ hfault =>
      rw [said]
      exact ih (hfault.symm.trans hf)
    | reported f' said _ _ _ hfault =>
      rw [said]
      exact hfault.symm.trans hf
    | kept said _ hfault _ =>
      rw [said]
      exact ih (hfault.symm.trans hf)

/-! ## Failures are reported

That a failure is reported is not a law of single changes: one change takes the failure down and
another the fault. It is a conduct of operations (`Conduct.reporting`), closed under doing one thing
after another, since a report that comes later is still behind all failures before it. All that an
operation makes at one go keeps it (`Op.Makes.reporting`), because only the turn of the worker fails
the transport, and the fault comes with it. -/

/-- Every failure of the transport has been reported by now. It is so between operations; in the
midst of one that serves the transport the report may be still to come. -/
def Gateway.Settled (g : Gateway) : Prop :=
  ∀ later f earlier, g.contacts = later ++ .failed f :: earlier → .reported f ∈ later

/-- The conduct of reporting a failure of the transport once it is taken down. -/
def Conduct.reporting : Conduct where
  Allows cs := ∀ as f bs, cs.flatMap Change.contacts = as ++ .failed f :: bs → .reported f ∈ bs
  nil := by
    intro as f bs h
    cases as <;> cases h
  append := by
    intro cs ds hcs hds as f bs h
    rw [List.flatMap_append] at h
    rcases List.append_eq_append_iff.1 h with ⟨as', -, hds'⟩ | ⟨bs', hcs', hbs⟩
    · exact hds as' f bs hds'
    · cases bs' with
      | nil => exact hds [] f bs hbs.symm
      | cons x rest =>
        cases hbs
        exact List.mem_append_left _ (hcs as f rest hcs')

theorem Change.failed_mem_contacts {c : Change} {f : Fault} (h : .failed f ∈ c.contacts) :
    c = .failTransport f := by
  cases c with
  | failTransport f' =>
    cases List.mem_singleton.1 h
    rfl
  | avail | sync | hear | fault _ => cases List.mem_singleton.1 h
  | _ => cases h

/-- What does not fail the transport has nothing to report. -/
theorem Conduct.reporting_allows_singleton {c : Change} (h : ∀ f, c ≠ .failTransport f) :
    reporting.Allows [c] := by
  intro as f bs hsplit
  have hmem : .failed f ∈ [c].flatMap Change.contacts := by
    rw [hsplit]
    exact List.mem_append_right as List.mem_cons_self
  rw [List.flatMap_singleton] at hmem
  exact absurd (Change.failed_mem_contacts hmem) (h f)

/-! ### What operations make in one go

Of the many lists of changes that operations make by themselves, two kinds are of interest here: a
failure with its fault, and flags that are set. `Op.Makes.cases` leaves these and single plain
changes, so that a law about conduct has three cases and not thirty. -/

/-- A change that neither fails the transport nor sets flags by hand. -/
def Change.IsPlain (c : Change) : Prop := (∀ f, c ≠ .failTransport f) ∧ ∀ flags, c ≠ .raiseFlags flags

/-- **All that operations do by themselves is one plain change at a time,** but for a failure of the
transport, whose fault is taken down with it in the turn of the worker, and for flags that are set
by hand. -/
theorem Op.Makes.cases {op : Op} {cs : List Change} (h : op.Makes cs) :
    (∃ c, cs = [c] ∧ c.IsPlain) ∨
      (∃ f, (op = .work ∨ op = .workUnheard) ∧ cs = [.failTransport f, .fault f]) ∨
      ∃ flags, op = .setFlags flags ∧ cs = [.raiseFlags flags] := by
  have hreports : ∀ {f cs}, Reports f cs → ∃ c, cs = [c] ∧ c.IsPlain := by
    intro f cs hcs
    rcases hcs with rfl | rfl <;> exact ⟨_, rfl, nofun, nofun⟩
  -- of the turn, only a failure of the transport is more than one change
  have hworks : ∀ {cs}, Works cs →
      (∃ c, cs = [c] ∧ c.IsPlain) ∨ ∃ f, cs = [.failTransport f, .fault f] := by
    intro cs hcs
    rcases hcs with rfl | (rfl | ⟨f, rfl | rfl⟩) | rfl | ⟨i, rfl⟩
    · exact Or.inl ⟨_, rfl, nofun, nofun⟩
    · exact Or.inl ⟨_, rfl, nofun, nofun⟩
    · exact Or.inr ⟨f, rfl⟩
    · exact Or.inl ⟨_, rfl, nofun, nofun⟩
    · exact Or.inl ⟨_, rfl, nofun, nofun⟩
    · exact Or.inl ⟨_, rfl, nofun, nofun⟩
  cases op with
  | work => exact (hworks h).imp_right fun ⟨f, hcs⟩ => Or.inl ⟨f, Or.inl rfl, hcs⟩
  | workUnheard => exact (hworks h).imp_right fun ⟨f, hcs⟩ => Or.inl ⟨f, Or.inr rfl, hcs⟩
  | reconfigure d =>
    rcases h with rfl | ⟨e, rfl⟩ | h
    · exact Or.inl ⟨_, rfl, nofun, nofun⟩
    · exact Or.inl ⟨_, rfl, nofun, nofun⟩
    · exact Or.inl (hreports h)
  | tick | disconnect =>
    rcases h with rfl | h
    · exact Or.inl ⟨_, rfl, nofun, nofun⟩
    · exact Or.inl (hreports h)
  | report f => exact Or.inl (hreports h)
  | setFlags flags => exact Or.inr (Or.inr ⟨flags, rfl, h⟩)
  | addAlarm slot a | removeAlarm slot a =>
    rcases h with rfl | rfl <;> exact Or.inl ⟨_, rfl, nofun, nofun⟩
  | writeInputs =>
    obtain ⟨frame, rfl⟩ := h
    exact Or.inl ⟨_, rfl, nofun, nofun⟩
  | readOutputs =>
    rcases h with ⟨size, rfl⟩ | ⟨frame, rfl⟩ <;> exact Or.inl ⟨_, rfl, nofun, nofun⟩
  | _ => exact Or.inl ⟨_, h, nofun, nofun⟩

/-- What holds of a change that is made alone, and of a failure and its fault, holds of all that an
operation makes in one go. -/
theorem Op.Makes.forall_mem {P : Change → Prop} {op : Op} {cs : List Change} (h : op.Makes cs)
    (hone : ∀ c, cs = [c] → P c) (hfailure : ∀ f, P (.failTransport f) ∧ P (.fault f)) :
    ∀ c ∈ cs, P c := by
  rcases h.cases with ⟨c, rfl, -⟩ | ⟨f, -, rfl⟩ | ⟨flags, -, rfl⟩
  · exact List.forall_mem_singleton.2 (hone c rfl)
  · exact List.forall_mem_cons.2 ⟨(hfailure f).1, List.forall_mem_singleton.2 (hfailure f).2⟩
  · exact List.forall_mem_singleton.2 (hone _ rfl)

theorem Op.Makes.reporting {op : Op} {cs : List Change} (h : op.Makes cs) :
    Conduct.reporting.Allows cs := by
  rcases h.cases with ⟨c, rfl, hc⟩ | ⟨f, -, rfl⟩ | ⟨flags, -, rfl⟩
  · exact Conduct.reporting_allows_singleton hc.1
  · intro as f' bs hsplit
    replace hsplit : [.failed f, .reported f] = as ++ Contact.failed f' :: bs := hsplit
    cases as with
    | nil =>
      cases hsplit
      exact List.mem_cons_self
    | cons x rest =>
      have hlater := (List.cons.inj hsplit).2
      cases rest with
      | nil => cases hlater
      | cons y rest => exact absurd (congrArg List.length hlater) (by simp)
  · exact Conduct.reporting_allows_singleton nofun

/-- Whoever reports its failures leaves none that is not reported. -/
theorem Gateway.LeadsBy.settled {g g' : Gateway} (h : g.LeadsBy .reporting g') (hg : g.Settled) :
    g'.Settled := by
  obtain ⟨cs, hcs, rfl⟩ := h
  intro later f earlier hsplit
  rw [g.contacts_after] at hsplit
  rcases List.append_eq_append_iff.1 hsplit with ⟨as, hlater, hold⟩ | ⟨bs, hnew, hearlier⟩
  · rw [hlater]
    exact List.mem_append_right _ (hg as f earlier hold)
  · cases bs with
    | nil => exact absurd (hg [] f earlier hearlier.symm) List.not_mem_nil
    | cons x rest =>
      cases hearlier
      have hforward : cs.flatMap Change.contacts =
          rest.reverse ++ .failed f :: later.reverse := by
        rw [← List.reverse_reverse (cs.flatMap Change.contacts), hnew]
        simp
      exact List.mem_reverse.1 (hcs _ f _ hforward)

theorem Conduct.reporting_drives : Conduct.reporting.Drives where
  makes _ _ h := h.reporting
  lieDown := reporting_allows_singleton nofun
  getUp := reporting_allows_singleton nofun
  driven _ _ := reporting_allows_singleton nofun
  driveEnded _ := reporting_allows_singleton nofun

/-- **Once every failure was reported,** there is a last fault for as long as the transport has
failed. -/
theorem Run.exists_lastFault (r : Run) (hr : r.state.Settled)
    (hfailed : r.state.transportFailed = true) :
    ∃ f, r.state.lastFault = some f ∧ r.state.faults.head? = some f := by
  obtain ⟨later, _, earlier, hsplit, ⟨f, rfl⟩, hquiet⟩ := r.transportFailed_iff.1 hfailed
  obtain ⟨after, before, hlater⟩ := List.append_of_mem (hr later f earlier hsplit)
  have hsome : r.state.lastFault.isSome = true := by
    refine r.isSome_lastFault_iff.2 ⟨after, .reported f, before ++ .failed f :: earlier, ?_, ⟨f, rfl⟩, ?_⟩
    · rw [hsplit, hlater, List.append_assoc, List.cons_append]
    · exact fun x hx => hquiet x (hlater ▸ List.mem_append_left _ hx)
  obtain ⟨f', hf'⟩ := Option.isSome_iff_exists.1 hsome
  exact ⟨f', hf', r.head?_faults hf'⟩

/-! ## Operations and drives

Here the laws of runs are carried over to operations and to drives among others. An operation leads
from one state of a run to another (`Run.exists_perform_sparing`) and leaves no failure without its
report. The worker's turn tells whether the transport works when it ends, so it is enough to know
what was said in the meantime.

A drive is looked at where it stops (`Drive.FoundFailed`): what was said before the worker found the
transport failed belongs to the run up to there, and what was said after to the others alone. -/

/-- The conduct of not setting the flag of the contact by hand. -/
def Conduct.sparing : Conduct := .only Change.SparesContact

/-- Whether an operation leaves the flag of the contact to the gateway. -/
def Op.SparesContact : Op → Prop
  | .setFlags flags => flags &&& Status.connected = 0
  | _ => True

theorem Op.SparesContact.sparing {op : Op} (hop : op.SparesContact) {cs : List Change}
    (h : op.Makes cs) : Conduct.sparing.Allows cs := by
  rcases h.cases with ⟨c, rfl, hc⟩ | ⟨f, -, rfl⟩ | ⟨flags, rfl, rfl⟩
  · refine Conduct.only_allows_singleton ?_
    cases c with
    | raiseFlags flags => exact absurd rfl (hc.2 flags)
    | _ => trivial
  · intro c hc
    simp only [List.mem_cons, List.not_mem_nil, or_false] at hc
    rcases hc with rfl | rfl <;> trivial
  · exact Conduct.only_allows_singleton hop

section Operations
variable {σ : Type} (r : Run) (env : Environment σ) (depth : Nat) (op : Op)

/-- **After an operation every failure has been reported,** if it had been before. -/
theorem Environment.settled_perform {w : World σ} (hw : w.gateway.Settled) :
    (env.perform depth op w).2.gateway.Settled :=
  (Environment.leadsBy_perform (fun _ _ _ hcs => hcs.reporting) env.callsOnly_true depth op trivial
    w).settled hw

/-- Where nobody sets the flag of the contact by hand, a run goes on without it being set so. -/
theorem Run.exists_perform_sparing (hr : ∀ c ∈ r.changes, c.SparesContact)
    (henv : env.CallsOnly Op.SparesContact) (hop : op.SparesContact) {w : World σ}
    (hw : w.gateway = r.state) :
    ∃ cs, (∀ c ∈ (r.andThen cs).changes, c.SparesContact) ∧
      (r.andThen cs).state = (env.perform depth op w).2.gateway := by
  obtain ⟨cs, hcs, hafter⟩ := Environment.leadsBy_perform
    (fun _ hop _ hcs => hop.sparing hcs) henv depth op hop w
  refine ⟨cs, fun c hc => ?_, by rw [r.state_andThen, ← hw, hafter]⟩
  rcases List.mem_append.1 hc with hc | hc
  · exact hr c hc
  · exact hcs c hc

/-- What is said of the contact is never unsaid. -/
theorem Environment.exists_contacts_perform (w : World σ) :
    ∃ new, (env.perform depth op w).2.gateway.contacts = new ++ w.gateway.contacts := by
  obtain ⟨cs, hcs⟩ := env.leads_perform depth op w
  exact ⟨_, by rw [← hcs, w.gateway.contacts_after]⟩

theorem Gateway.isOperable_eq_false_iff (g : Gateway) :
    g.isOperable = false ↔ g.transportFailed = true :=
  iff_of_eq (Bool.not_eq_false' g.transportFailed)

/-- A turn that hears nothing of the host leaves a failure as it is. -/
theorem Run.not_operable_of_work {w : World σ} (hw : w.gateway = r.state)
    (hfailed : r.state.isOperable = false) {new : List Contact}
    (hnew : (env.perform depth .work w).2.gateway.contacts = new ++ r.state.contacts)
    (hquiet : .heard ∉ new) : (env.perform depth .work w).1 = false := by
  obtain ⟨cs, hcs⟩ := r.exists_perform env depth .work hw
  have hbefore := r.state.isOperable_eq_false_iff.1 hfailed
  obtain ⟨later, x, earlier, hsplit, hx, hkeep⟩ := r.transportFailed_iff.1 hbefore
  have hafter : (r.andThen cs).state.transportFailed = true := by
    refine (r.andThen cs).transportFailed_iff.2 ⟨new ++ later, x, earlier, ?_, hx, fun y hy => ?_⟩
    · rw [hcs, hnew, hsplit, List.append_assoc]
    · rcases List.mem_append.1 hy with hy | hy
      · exact fun hheard => hquiet (hheard ▸ hy)
      · exact hkeep y hy
  rw [env.answer_work, ← hcs, Gateway.isOperable_eq_false_iff]
  exact hafter

/-! ### What a drive is stopped with

Two states matter, and what was said in between: the state in which the turn of the worker ended,
and the one in which it looks for the last fault. A fault that is there then was reported, and lasts
unless the host was heard; so what the drive tells of is the fault reported latest, or the transport
in general if the host was heard since the last report. -/

/-- **What a drive is stopped with.** The worker has found the transport failed when the gateway was
`found`, and looks for the last fault when others have led it to `g`; `new` is what was said of the
contact in between. -/
structure Gateway.StopsWith (found g : Gateway) (new : List Contact) (err : Error) : Prop where
  said : g.contacts = new ++ found.contacts
  /-- The drive tells of the last fault as it is by then, or of the transport if there is none. -/
  tells : err = .communication (g.lastFault.getD .transport)
  /-- If there is one, it is the one reported latest. -/
  latest : ∀ f, g.lastFault = some f → g.faults.head? = some f
  /-- Once every failure was reported, there is none exactly if others exchanged with the host in
  between and reported nothing after that. -/
  without : found.Settled →
    (g.lastFault = none ↔ Since (fun x _ => x = .heard) (fun x => ∀ f, x ≠ .reported f) new)

/-- A fault that was reported lasts until the next exchange. -/
theorem Contact.not_since_reported_append {new old : List Contact}
    (hold : Since (fun x _ => ∃ f, x = .reported f) (· ≠ .heard) old) :
    ¬ Since (fun x _ => ∃ f, x = .reported f) (· ≠ .heard) (new ++ old) ↔
      Since (fun x _ => x = .heard) (fun x => ∀ f, x ≠ .reported f) new := by
  induction new with
  | nil => exact iff_of_false (not_not.2 hold) not_since_nil
  | cons x new ih =>
    rw [List.cons_append, since_cons, since_cons, ← ih]
    cases x <;> simp

/-- What others do after the worker has found the transport failed decides on the last fault. -/
theorem Run.stopsWith (r : Run) (hfailed : r.state.isOperable = false) {cs : List Change}
    {err : Error} (herr : err = .communication ((r.andThen cs).state.lastFault.getD .transport)) :
    r.state.StopsWith (r.andThen cs).state (cs.flatMap Change.contacts).reverse err where
  said := by rw [r.state_andThen, r.state.contacts_after]
  tells := herr
  latest f hf := (r.andThen cs).head?_faults hf
  without hsettled := by
    obtain ⟨f, hf, -⟩ := r.exists_lastFault hsettled (r.state.isOperable_eq_false_iff.1 hfailed)
    have hreported := r.isSome_lastFault_iff.1 (by rw [hf]; rfl)
    rw [← Contact.not_since_reported_append hreported, ← r.state.contacts_after, ← r.state_andThen,
      ← (r.andThen cs).isSome_lastFault_iff, Option.not_isSome_iff_eq_none]

/-- **A drive among others is stopped** with the last fault as it is when the worker looks for it. -/
theorem Run.stopped_among (s : DriveSetting σ) (k : Conduct) (timeline : List (TimelineEntry σ))
    {w : World σ} (hw : w.gateway = r.state) {e d : Drive σ} {err : Error}
    (he : (Drive.start timeline w).LeadsAmong s k e)
    (hstops : e.step s = (some (.stopped err), d)) :
    ∃ v new, (Drive.start timeline w).FoundFailed s k v e ∧
      v.world.gateway.StopsWith e.world.gateway new err := by
  obtain ⟨⟨v, hv⟩, herr, -⟩ := he.of_stopped nofun hstops
  have hled := (Drive.leadsBy_start Conduct.free_drives timeline w).trans
    (hv.before.leadsBy Conduct.free_drives fun cs _ => Conduct.free_allows cs)
  obtain ⟨before, -, hbefore⟩ := hled
  obtain ⟨cs, -, hcs⟩ := hv.others
  rw [hw, ← r.state_andThen] at hbefore
  rw [← hbefore, ← (r.andThen before).state_andThen] at hcs
  have hends := (r.andThen before).stopsWith (hbefore ▸ hv.failed) (hcs ▸ herr)
  rw [hbefore, hcs] at hends
  exact ⟨v, _, hv, hends⟩

/-- Where others report their failures too, every failure was reported by the end. -/
theorem Drive.LeadsAmong.settled {s : DriveSetting σ} {k : Conduct}
    (hk : ∀ cs, k.Allows cs → Conduct.reporting.Allows cs) {timeline : List (TimelineEntry σ)}
    {w : World σ} (hw : w.gateway.Settled) {e : Drive σ}
    (he : (Drive.start timeline w).LeadsAmong s k e) : e.world.gateway.Settled :=
  ((Drive.leadsBy_start Conduct.reporting_drives timeline w).trans
    (he.leadsBy Conduct.reporting_drives hk)).settled hw

/-- **A drive that is left alone** tells of the fault reported latest when it is stopped. -/
theorem Run.stopped_by_lastFault (s : DriveSetting σ) (timeline : List (TimelineEntry σ))
    {w : World σ} (hw : w.gateway = r.state) (hr : r.state.Settled) {moves : Nat} {err : Error}
    {d : Drive σ} (hrun : Drive.run s moves (Drive.start timeline w) = (.stopped err, d)) :
    ∃ f, err = .communication f ∧ d.world.gateway.isOperable = false ∧
      d.world.gateway.lastFault = some f ∧ d.world.gateway.faults.head? = some f := by
  obtain ⟨e, he, hstops⟩ := Drive.exists_leadsAmong_of_run Conduct.idle hrun nofun
  obtain ⟨v, new, hv, hends⟩ := r.stopped_among s .idle timeline hw he hstops
  have hsame : v.world.gateway = e.world.gateway := by
    obtain ⟨cs, hcs, hafter⟩ := hv.others
    rw [Conduct.eq_nil_of_idle hcs] at hafter
    exact hafter
  -- nobody says anything in between, so there is a last fault
  have hnew : new = [] := by
    have hsaid := hends.said
    rw [hsame] at hsaid
    exact List.append_left_eq_self.1 hsaid.symm
  have hsettled := hv.before.settled Conduct.reporting.allows_of_idle (hw ▸ hr)
  have hsome : e.world.gateway.lastFault ≠ none := by
    rw [ne_eq, hends.without hsettled, hnew]
    exact not_since_nil
  obtain ⟨f, hf⟩ := Option.ne_none_iff_exists'.1 hsome
  have hworks : e.world.gateway.isOperable = false := by
    rw [← hsame]
    exact hv.failed
  obtain ⟨-, -, hend⟩ := he.of_stopped nofun hstops
  -- the remark at the end leaves the contact as it is
  refine ⟨f, by rw [hends.tells, hf]; rfl, ?_⟩
  rw [hend]
  exact ⟨hworks, hf, hends.latest f hf⟩

/-- Nobody but the worker serves the transport, so nobody else fails it. -/
theorem Environment.failed_of_perform
    (henv : env.CallsOnly fun op => op ≠ .work ∧ op ≠ .workUnheard)
    (hop : op ≠ .work ∧ op ≠ .workUnheard) {w : World σ} {f : Fault}
    (hf : .failed f ∈ (env.perform depth op w).2.gateway.contacts) :
    .failed f ∈ w.gateway.contacts := by
  have hmakes : ∀ op : Op, op ≠ .work ∧ op ≠ .workUnheard → ∀ cs, op.Makes cs →
      (Conduct.only fun c => ∀ f, c ≠ .failTransport f).Allows cs := by
    intro op hop cs hcs
    rcases hcs.cases with ⟨c, rfl, hc⟩ | ⟨f, hwork, -⟩ | ⟨flags, -, rfl⟩
    · exact Conduct.only_allows_singleton hc.1
    · exact (hwork.elim hop.1 hop.2).elim
    · exact Conduct.only_allows_singleton nofun
  obtain ⟨cs, hcs, hafter⟩ := Environment.leadsBy_perform hmakes henv depth op hop w
  rw [← hafter, w.gateway.contacts_after, List.mem_append, List.mem_reverse] at hf
  refine hf.resolve_left fun hnew => ?_
  obtain ⟨c, hc, hsaid⟩ := List.mem_flatMap.1 hnew
  exact hcs c hc f (Change.failed_mem_contacts hsaid)

end Operations

/-! ## The law of the contact

`Run.InOrder` puts the laws together, for the state of a run and for all that can be done from
there. The fields are grouped by what they are about: the contact, the failure of the transport, the
fault, operations, and drives. The last fields are what is left of the expectation that a drive
which is stopped tells of the fault reported latest; as it stands that expectation is refuted below. -/

/-- **How the parts of the link agree with each other.** -/
structure Run.InOrder (r : Run) : Prop where
  /-- While nobody sets the flag of the contact by hand, in contact the transport works and the
  watchdog has not expired. -/
  connected : (∀ c ∈ r.changes, c.SparesContact) → r.state.isConnected = true →
    r.state.isOperable = true ∧ r.state.watchdog.expired = false
  /-- Contact begins with a valid exchange, whatever cyclic indications are selected, and with
  nothing else. -/
  begins : ∀ c : Change, c.SparesContact → r.state.isConnected = false →
    ((r.next c).state.isConnected = true ↔ c.isExchange = true)
  /-- The transport has failed exactly if serving it failed since the last valid exchange. -/
  failed : r.state.isOperable = false ↔
    Since (fun x _ => ∃ f, x = .failed f) (· ≠ .heard) r.state.contacts
  /-- Nothing but an exchange ends a failure, -/
  lasts : ∀ c : Change, c.isExchange = false → r.state.isOperable = false →
    (r.next c).state.isOperable = false
  /-- and serving makes one when the adapter answers with a fault, and only then. -/
  serves : ∀ {σ : Type} (h : Handler σ) (w : World σ),
    ((w.ask h .service).1 = .ok () ∧ w.serve h = (w.ask h .service).2) ∨
      ∃ f, (w.ask h .service).1 = .error f ∧
        w.serve h = ((w.ask h .service).2.change (·.failTransport f)).report h f ∧
        ((w.ask h .service).2.change (·.failTransport f)).gateway.contacts =
          .failed f :: (w.ask h .service).2.gateway.contacts
  /-- Nobody but the worker serves the transport. -/
  serving : ∀ {σ : Type} (env : Environment σ) (depth : Nat) (op : Op) (w : World σ),
    w.gateway = r.state → env.CallsOnly (fun op => op ≠ .work ∧ op ≠ .workUnheard) →
      op ≠ .work ∧ op ≠ .workUnheard →
        ∀ f, .failed f ∈ (env.perform depth op w).2.gateway.contacts → .failed f ∈ r.state.contacts
  /-- A turn of the worker tells whether it leaves the transport working. Where the transport had
  failed before, it does not, unless the host was heard in the meantime. -/
  works : ∀ {σ : Type} (env : Environment σ) (depth : Nat) (w : World σ), w.gateway = r.state →
    (env.perform depth .work w).1 = (env.perform depth .work w).2.gateway.isOperable ∧
      ∃ new, (env.perform depth .work w).2.gateway.contacts = new ++ r.state.contacts ∧
        (r.state.isOperable = false → .heard ∉ new → (env.perform depth .work w).1 = false)
  /-- Once every failure was reported, a failed transport has a last fault, that reported latest. -/
  fault : r.state.Settled → r.state.isOperable = false →
    ∃ f, r.state.lastFault = some f ∧ r.state.faults.head? = some f
  /-- So it is between operations. A run goes on with each, and where nobody sets the flag of the
  contact by hand, it goes on without. -/
  performs : ∀ {σ : Type} (env : Environment σ) (depth : Nat) (op : Op) (w : World σ),
    w.gateway = r.state →
      ∃ cs, (r.andThen cs).state = (env.perform depth op w).2.gateway ∧
        (r.state.Settled → (r.andThen cs).state.Settled) ∧
        ((∀ c ∈ r.changes, c.SparesContact) → env.CallsOnly Op.SparesContact → op.SparesContact →
          ∀ c ∈ (r.andThen cs).changes, c.SparesContact)
  /-- A drive is stopped after a turn that finds the transport failed. Others may come in before the
  worker looks for the last fault, and the drive tells of what they leave. -/
  stops : ∀ {σ : Type} (s : DriveSetting σ) (k : Conduct) (timeline : List (TimelineEntry σ))
    (w : World σ), w.gateway = r.state → ∀ (e d : Drive σ) (err : Error),
      (Drive.start timeline w).LeadsAmong s k e → e.step s = (some (.stopped err), d) →
        ∃ v new, (Drive.start timeline w).FoundFailed s k v e ∧
          v.world.gateway.StopsWith e.world.gateway new err
  /-- Where others report their failures too, every failure was reported by then. -/
  settles : ∀ {σ : Type} (s : DriveSetting σ) (timeline : List (TimelineEntry σ)) (w : World σ),
    w.gateway = r.state → r.state.Settled → ∀ e : Drive σ,
      (Drive.start timeline w).LeadsAmong s .reporting e → e.world.gateway.Settled
  /-- A drive that is left alone tells of the fault reported latest, and never has to do without. -/
  stopsAlone : ∀ {σ : Type} (s : DriveSetting σ) (timeline : List (TimelineEntry σ)) (w : World σ),
    w.gateway = r.state → r.state.Settled → ∀ (moves : Nat) (err : Error) (d : Drive σ),
      Drive.run s moves (Drive.start timeline w) = (.stopped err, d) →
        ∃ f, err = .communication f ∧ d.world.gateway.isOperable = false ∧
          d.world.gateway.lastFault = some f ∧ d.world.gateway.faults.head? = some f

/-! ### Parts of the law

Contact begins with an exchange and nothing else, and a failure ends with one and with nothing else.
Both are read off the four things that a change can do. -/

theorem Change.contacts_eq_heard_iff (c : Change) :
    c.contacts = [.heard] ↔ c.isExchange = true := by
  cases c <;> simp [contacts, isExchange]

/-- A change that leaves the flag to the gateway begins a contact exactly if it is an exchange. -/
theorem Gateway.isConnected_apply_iff {g : Gateway} {c : Change} (hc : c.SparesContact)
    (hg : g.isConnected = false) : (g.apply c).isConnected = true ↔ c.isExchange = true := by
  rw [← c.contacts_eq_heard_iff]
  cases g.ties_apply c with
  | heard said hconnected _ _ _ => exact iff_of_true hconnected said
  | failed f said hconnected _ _ =>
    rw [said, hconnected]
    exact iff_of_false Bool.false_ne_true (by simp)
  | reported f said hconnected _ _ _ =>
    rw [said, hconnected, hg]
    exact iff_of_false Bool.false_ne_true (by simp)
  | kept said _ _ htied =>
    rw [said]
    refine iff_of_false (fun hconnected => ?_) (by simp)
    rw [(htied hc hconnected).1] at hg
    cases hg

/-- A failure lasts until the next exchange. -/
theorem Gateway.transportFailed_apply {g : Gateway} {c : Change} (hc : c.isExchange = false)
    (hg : g.transportFailed = true) : (g.apply c).transportFailed = true := by
  cases g.ties_apply c with
  | heard said _ _ _ _ =>
    rw [c.contacts_eq_heard_iff.1 said] at hc
    cases hc
  | failed f _ _ hfailed _ => exact hfailed
  | reported f _ _ hfailed _ _ => exact hfailed.trans hg
  | kept _ hfailed _ _ => exact hfailed.trans hg

theorem Run.inOrder (r : Run) : r.InOrder where
  connected hr hconnected := by
    obtain ⟨hworks, hruns⟩ := r.tied hr hconnected
    refine ⟨?_, hruns⟩
    unfold Gateway.isOperable
    rw [hworks]
    rfl
  begins c hc hconnected := by
    rw [r.state_next]
    exact Gateway.isConnected_apply_iff hc hconnected
  failed := r.state.isOperable_eq_false_iff.trans r.transportFailed_iff
  lasts c hc hfailed := by
    rw [Gateway.isOperable_eq_false_iff] at hfailed ⊢
    rw [r.state_next]
    exact Gateway.transportFailed_apply hc hfailed
  serves h w := by
    rcases w.serve_cases h with hserve | ⟨f, hanswer, hserve⟩
    · exact Or.inl hserve
    · exact Or.inr ⟨f, hanswer, hserve, Gateway.contacts_apply _ (.failTransport f)⟩
  serving env depth op w hw henv hop f hf := by
    rw [← hw]
    exact env.failed_of_perform depth op henv hop hf
  works env depth w hw := by
    obtain ⟨new, hnew⟩ := env.exists_contacts_perform depth .work w
    rw [hw] at hnew
    exact ⟨env.answer_work depth w, new, hnew, fun hfailed hquiet =>
      r.not_operable_of_work env depth hw hfailed hnew hquiet⟩
  fault hr hfailed := r.exists_lastFault hr (r.state.isOperable_eq_false_iff.1 hfailed)
  performs env depth op w hw := by
    have hsettled : r.state.Settled → (env.perform depth op w).2.gateway.Settled := by
      rw [← hw]
      exact env.settled_perform depth op
    by_cases hspares : (∀ c ∈ r.changes, c.SparesContact) ∧ env.CallsOnly Op.SparesContact ∧
        op.SparesContact
    · obtain ⟨hr, henv, hop⟩ := hspares
      obtain ⟨cs, hcs, hstate⟩ := r.exists_perform_sparing env depth op hr henv hop hw
      exact ⟨cs, hstate, hstate ▸ hsettled, fun _ _ _ => hcs⟩
    · obtain ⟨cs, hstate⟩ := r.exists_perform env depth op hw
      exact ⟨cs, hstate, hstate ▸ hsettled, fun hr henv hop => absurd ⟨hr, henv, hop⟩ hspares⟩
  stops s k timeline w hw e d err he hstops := r.stopped_among s k timeline hw he hstops
  settles s timeline w hw hr e he := he.settled (fun _ h => h) (hw ▸ hr)
  stopsAlone s timeline w hw hr moves err d hrun := r.stopped_by_lastFault s timeline hw hr hrun

/-- **The parts of the link agree in every run,** and with what a gateway is made there is nothing to
report. -/
theorem contact_in_order (r : Run) :
    r.InOrder ∧ ∀ (s : Settings) (d : Device) (g : Gateway), Gateway.make s d = .ok g → g.Settled := by
  refine ⟨r.inOrder, fun s d g h later f earlier hsplit => ?_⟩
  rw [Gateway.contacts_of_make h] at hsplit
  cases later <;> cases hsplit

/-- A transport that cannot be served for what it was told. -/
def misconfiguredTransport : Environment Unit where
  adapter
    | .service => .done (.error .configuration)
    | r => .done r.idle
  application _ := .done ()

/-- Ten milliseconds with it. -/
def misconfigured : DriveSetting Unit where
  environment _ := misconfiguredTransport
  depth := 1
  stop := 10

/-- **Not every drive is stopped with the fault reported latest.** Serving the transport fails for its
configuration, and reports so. Others exchange with the host before the worker looks for the last
fault, and the drive tells of the transport, of which nobody had reported anything. -/
theorem not_always_stopped_with_latest_fault :
    ¬ ∀ (r : Run) (s : DriveSetting Unit) (w : World Unit) (e d : Drive Unit) (err : Error),
      w.gateway = r.state → r.state.Settled → (Drive.start [] w).LeadsAmong s .reporting e →
        e.step s = (some (.stopped err), d) →
          ∃ f, err = .communication f ∧ e.world.gateway.faults.head? = some f := by
  intro h
  let r := Run.bare.next .signalWork
  let d₀ : Drive Unit := .start [] ⟨r.state, ()⟩
  -- the gateway ticks, and the worker hears the signal and finds the transport failed
  let d₁ := (d₀.step misconfigured).2
  let d₂ := (d₁.step misconfigured).2
  let e := { d₂ with world := d₂.world.change (·.avail) }
  have hfirst : d₀.step misconfigured = (none, d₁) := Prod.ext (by decide +kernel) rfl
  have hsecond : d₁.step misconfigured = (none, d₂) := Prod.ext (by decide +kernel) rfl
  have hcourse : d₀.LeadsAmong misconfigured .reporting e :=
    ((Drive.LeadsAmong.start.moves hfirst).moves hsecond).others
      (Gateway.leadsBy_apply (c := .avail) (Conduct.reporting_allows_singleton nofun) _)
  have hsettled : r.state.Settled := by
    intro later f earlier hsplit
    cases later <;> cases hsplit
  have hends : e.step misconfigured =
      (some (.stopped (.communication .transport)), (e.step misconfigured).2) :=
    Prod.ext (by decide +kernel) rfl
  have hlatest : e.world.gateway.faults.head? = some .configuration := by decide +kernel
  obtain ⟨f, hf, htold⟩ := h r misconfigured ⟨r.state, ()⟩ e _ _ rfl hsettled hcourse hends
  cases hf
  cases hlatest.symm.trans htold

end Fieldbus
