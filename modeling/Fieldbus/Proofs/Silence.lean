import Mathlib.Algebra.Ring.Nat
import Fieldbus.Proofs.Conduct
import Fieldbus.Proofs.Effect
/-!
Silence: the watchdog expires when it should, and only then.

The gateway counts ticks on a counter of 32 bits, which wraps around; how long the host is silent is
not bounded. So the silence is counted here without bound, beside the run (`Run.silence`), and the
watchdog is held against it. It measures rightly because it looks at the clock in every tick while
it is on (`Watchdog.Measures`): until it has expired the silence is shorter than the timeout, so the
difference of two counts is the silence itself, however often the counter has wrapped. Once it has
expired it looks at the clock no more. While it is off nothing is said of it, and whatever turns it
on lets it count from there (`Gateway.Supervised`).

What an exchange, the clock, and setting or clearing the flag of the watchdog do to the silence is a
definition (`Change.silence`), which reads the state only to see whether the watchdog is turned on.
That the watchdog agrees with it is an invariant of single changes (`Gateway.Supervised.apply`), so
it holds in the midst of calls and whatever others do.

The law has to say three things of a tick at once: whether the watchdog expires with it, whether it
had expired before, and what is reported. It expires once, at exactly the tick at which the silence
comes to be the timeout, and the report comes with that tick and no other.
-/

namespace Fieldbus

/-! ## The timeout

A timeout is set as a duration and counted in ticks. The count is the least one that covers the
duration, but never zero, and never more than the counter has. -/

/-- So many ticks, at least one, cover a duration. A tick of no length counts as one nanosecond. -/
def Settings.Covers (s : Settings) (d : Duration) (n : Nat) : Prop :=
  1 ≤ n ∧ d.nanos ≤ n * max s.tick.nanos 1

/-- The ticks of a duration are the fewest that cover it, as far as they can be counted. -/
theorem Settings.toNat_ticks (s : Settings) (d : Duration) :
    ∃ m, s.Covers d m ∧ (∀ n, s.Covers d n → m ≤ n) ∧ (s.ticks d).toNat = min m maxTicks := by
  have hpos : 0 < max s.tick.nanos 1 := by omega
  have hcover : ∀ n, (d.nanos + max s.tick.nanos 1 - 1) / max s.tick.nanos 1 ≤ n ↔
      d.nanos ≤ n * max s.tick.nanos 1 := by
    intro n
    rw [Nat.div_le_iff_le_mul_add_pred hpos, Nat.mul_comm]
    omega
  unfold Covers ticks
  dsimp only
  simp only [← hcover]
  generalize (d.nanos + max s.tick.nanos 1 - 1) / max s.tick.nanos 1 = q
  refine ⟨max q 1, ⟨Nat.le_max_right .., Nat.le_max_left ..⟩, fun n hn => by omega, ?_⟩
  rw [UInt32.toNat_ofNat', maxTicks, UInt32.size]
  omega

/-! ## Flags

Flags are words of 32 bits, of which some may be set at a time. These laws say of a single flag how
it comes through setting and clearing others. -/

namespace Status
variable {s : Status} {flags flag : UInt32}

theorem has_eq_true_iff : s.has flag = true ↔ s.bits &&& flag ≠ 0 := bne_iff_ne

/-- A flag is set after setting some if it is one of them or was set before. -/
theorem has_withFlags :
    (s.withFlags flags).has flag = true ↔ s.has flag = true ∨ flags &&& flag ≠ 0 := by
  have hor : (s.bits ||| flags) &&& flag = (s.bits &&& flag) ||| (flags &&& flag) :=
    UInt32.toBitVec_inj.1 BitVec.and_or_distrib_right
  rw [has_eq_true_iff, has_eq_true_iff, withFlags, hor, Ne, UInt32.or_eq_zero_iff]
  exact Decidable.not_and_iff_not_or_not

/-- Clearing flags sets none. -/
theorem has_of_has_withoutFlags (h : (s.withoutFlags flags).has flag = true) :
    s.has flag = true := by
  rw [has_eq_true_iff] at h ⊢
  intro hzero
  apply h
  rw [withoutFlags, UInt32.and_assoc, UInt32.and_comm (~~~flags), ← UInt32.and_assoc, hzero,
    UInt32.zero_and]

end Status

/-! ## A watchdog and the silence it measures

While a watchdog runs the difference of the clock and the count it has taken down is the silence
itself, and the silence is shorter than the timeout. The second is what makes the first possible:
the difference is known modulo `2 ^ 32`, and a timeout is below that. At a check the silence is one
more, so it may come to be the timeout, but never to be beyond it unnoticed. -/

namespace Watchdog

/-- **A watchdog measures a silence rightly.** While it runs, the silence is what the clock tells,
and shorter than the timeout; it has expired only if the timeout has passed. -/
structure Measures (w : Watchdog) (now : UInt32) (silence : Nat) : Prop where
  running : w.expired = false → (now - w.last).toNat = silence ∧ silence < w.timeout.toNat
  expired : w.expired = true → w.timeout.toNat ≤ silence

variable {w : Watchdog} {now : UInt32} {silence : Nat}

theorem Measures.expired_iff (h : w.Measures now silence) :
    w.expired = true ↔ w.timeout.toNat ≤ silence := by
  refine ⟨h.expired, fun hle => ?_⟩
  cases hw : w.expired with
  | true => rfl
  | false => exact absurd (h.running hw).2 (Nat.not_lt.2 hle)

/-- A watchdog that counts from now measures no silence yet. -/
theorem measures_zero (hrunning : w.expired = false) (hlast : w.last = now)
    (htimeout : 1 ≤ w.timeout.toNat) : w.Measures now 0 := by
  refine ⟨fun _ => ⟨?_, htimeout⟩, fun h => ?_⟩
  · rw [hlast, UInt32.sub_self]
    rfl
  · rw [hrunning] at h
    cases h

/-- A check does not change the timeout. -/
theorem timeout_check (w : Watchdog) (now : UInt32) : (w.check now).2.timeout = w.timeout := by
  unfold check
  split <;> rfl

/-- **A check goes on measuring**, and it tells of an expiry at the tick at which the silence comes
to be the timeout. -/
theorem Measures.check (h : w.Measures now silence) :
    (w.check (now + 1)).2.Measures (now + 1) (silence + 1) ∧
      ((w.check (now + 1)).1 = true ↔ silence + 1 = w.timeout.toNat) := by
  cases hw : w.expired with
  | true =>
    -- once expired it answers no more, and the silence only grows
    have hpast := h.expired hw
    rw [check_of_expired hw]
    refine ⟨⟨fun hf => ?_, fun _ => Nat.le_succ_of_le hpast⟩, fun hf => (nomatch hf), ?_⟩
    · rw [hw] at hf
      cases hf
    · intro heq
      omega
  | false =>
    obtain ⟨hnow, hlt⟩ := h.running hw
    have hbound := w.timeout.toNat_lt
    -- the silence is at most the timeout, so it can be counted
    have hnext : (now + 1 - w.last).toNat = silence + 1 := by
      rw [UInt32.toNat_sub, UInt32.toNat_add]
      rw [UInt32.toNat_sub] at hnow
      have hone : (1 : UInt32).toNat = 1 := rfl
      have h1 := w.last.toNat_lt
      have h2 := now.toNat_lt
      omega
    have helapsed : hasElapsed (now + 1) w.last w.timeout =
        decide (w.timeout.toNat ≤ silence + 1) := by
      rw [hasElapsed, ← hnext]
      rfl
    unfold Watchdog.check
    rw [hw, helapsed]
    by_cases hle : w.timeout.toNat ≤ silence + 1
    · rw [decide_eq_true hle]
      exact ⟨⟨fun hf => (nomatch hf), fun _ => hle⟩, fun _ => by omega, fun _ => rfl⟩
    · rw [decide_eq_false hle]
      refine ⟨⟨fun _ => ⟨hnext, Nat.lt_of_not_le hle⟩, fun hf => ?_⟩, fun hf => (nomatch hf),
        fun heq => absurd (Nat.le_of_eq heq.symm) hle⟩
      cases hw.symm.trans hf

end Watchdog

/-! ## One tick

A tick counts, then sends a poll if one is due, then looks at the watchdog if that is on. The poll
is by the side of all that the watchdog goes by, so a tick is looked at as if there were none. -/

/-- The fault that an event reports, if any. -/
def Event.fault? : Event → Option Fault
  | .faultReported f => some f
  | _ => none

/-- The faults reported so far, latest first. -/
def Outbox.faults (o : Outbox) : List Fault := o.journal.filterMap Event.fault?

theorem Outbox.faults_post (o : Outbox) (m : Message) : (o.post m).faults = o.faults := by
  unfold post send
  split <;> rfl

theorem Link.faults_update (l : Link) (new : Status) :
    (l.update new).2.outbox.faults = l.outbox.faults := by
  unfold update
  split
  · rfl
  · exact Outbox.faults_post _ _

namespace Gateway
variable (g : Gateway)

/-- The faults reported so far, latest first. -/
def faults : List Fault := g.link.outbox.faults

/-- A poll is sent by the side of all that a watchdog goes by. -/
theorem pollIfDue_keeps :
    g.pollIfDue.ticks = g.ticks ∧ g.pollIfDue.watchdog = g.watchdog ∧
      g.pollIfDue.status = g.status ∧ g.pollIfDue.faults = g.faults := by
  unfold pollIfDue
  dsimp only
  split
  · split
    · exact ⟨rfl, rfl, rfl, rfl⟩
    · exact ⟨rfl, rfl, rfl, Outbox.faults_post _ _⟩
  · exact ⟨rfl, rfl, rfl, rfl⟩

/-- A watchdog that is off does not look at the clock. -/
theorem checkWatchdog_of_off (h : g.status.has Status.watchdog = false) :
    g.checkWatchdog = (false, g) := by
  unfold checkWatchdog
  rw [h]
  rfl

/-- A watchdog that is on is checked, and an expiry ends the contact and touches no other flag. -/
theorem checkWatchdog_of_on (h : g.status.has Status.watchdog = true) :
    g.checkWatchdog.1 = (g.watchdog.check g.ticks).1 ∧
      g.checkWatchdog.2.ticks = g.ticks ∧
      g.checkWatchdog.2.watchdog = (g.watchdog.check g.ticks).2 ∧
      g.checkWatchdog.2.status =
        (if g.checkWatchdog.1 then g.status.withoutFlags Status.connected else g.status) ∧
      g.checkWatchdog.2.faults = g.faults := by
  unfold checkWatchdog
  rw [h]
  generalize g.watchdog.check g.ticks = result
  obtain ⟨_ | _, w⟩ := result
  · exact ⟨rfl, rfl, rfl, rfl, rfl⟩
  · refine ⟨rfl, rfl, rfl, ?_, ?_⟩
    · exact Link.status_update _ _
    · exact Link.faults_update _ _

/-- The gateway whose watchdog is looked at in a tick. -/
def ticked : Gateway := ({ g with ticks := g.ticks + 1 }.note .ticked).pollIfDue

theorem ticked_keeps :
    g.ticked.ticks = g.ticks + 1 ∧ g.ticked.watchdog = g.watchdog ∧
      g.ticked.status = g.status ∧ g.ticked.faults = g.faults := by
  obtain ⟨hticks, hwatchdog, hstatus, hfaults⟩ :=
    ({ g with ticks := g.ticks + 1 }.note .ticked).pollIfDue_keeps
  unfold ticked
  rw [hticks, hwatchdog, hstatus, hfaults]
  exact ⟨rfl, rfl, rfl, rfl⟩

/-- A tick while the watchdog is off. -/
theorem advance_of_off (h : g.status.has Status.watchdog = false) :
    g.advance = (false, g.ticked) := by
  have hoff : g.ticked.status.has Status.watchdog = false := by
    rw [g.ticked_keeps.2.2.1]
    exact h
  exact g.ticked.checkWatchdog_of_off hoff

/-- A tick while the watchdog is on. -/
theorem advance_of_on (h : g.status.has Status.watchdog = true) :
    g.advance.1 = (g.watchdog.check (g.ticks + 1)).1 ∧
      g.advance.2.ticks = g.ticks + 1 ∧
      g.advance.2.watchdog = (g.watchdog.check (g.ticks + 1)).2 ∧
      g.advance.2.status =
        (if g.advance.1 then g.status.withoutFlags Status.connected else g.status) ∧
      g.advance.2.faults = g.faults := by
  obtain ⟨hticks, hwatchdog, hstatus, hfaults⟩ := g.ticked_keeps
  have hcheck := g.ticked.checkWatchdog_of_on (by rw [hstatus]; exact h)
  rw [hticks, hwatchdog, hstatus, hfaults] at hcheck
  exact hcheck

/-- The status after a tick: an expiry ends the contact and touches no other flag. -/
theorem status_advance :
    g.advance.2.status =
      if g.advance.1 then g.status.withoutFlags Status.connected else g.status := by
  cases h : g.status.has Status.watchdog with
  | true => exact (g.advance_of_on h).2.2.2.1
  | false =>
    rw [g.advance_of_off h]
    exact g.ticked_keeps.2.2.1

/-- A tick by itself reports no fault. -/
theorem faults_advance : g.advance.2.faults = g.faults := by
  cases h : g.status.has Status.watchdog with
  | true => exact (g.advance_of_on h).2.2.2.2
  | false =>
    rw [g.advance_of_off h]
    exact g.ticked_keeps.2.2.2

/-- A valid exchange feeds the watchdog. -/
theorem clock_hear :
    g.hear.watchdog = (g.watchdog.feed g.ticks).2 ∧ g.hear.ticks = g.ticks := by
  unfold hear
  dsimp only
  split <;> split <;> exact ⟨rfl, rfl⟩

/-- A fault is reported once. -/
theorem faults_fault (f : Fault) : (g.fault f).faults = f :: g.faults :=
  congrArg (f :: ·) (Outbox.faults_post _ _)

/-! ## The watchdog of a gateway

`Gateway.Supervised` is the invariant. While the watchdog is off it asks only for the timeout to be
right, since whatever turns it on has it count anew. Clearing flags can turn it off but not on;
setting flags can turn it on, and restarts it when it does. -/

/-- **The watchdog has the timeout of the settings and, while it is on, measures the silence.** -/
structure Supervised (silence : Nat) : Prop where
  timeout : g.watchdog.timeout = g.settings.ticks g.settings.watchdogTimeout
  measures : g.status.has Status.watchdog = true → g.watchdog.Measures g.ticks silence

variable {g} {g' : Gateway} {silence : Nat}

/-- A watchdog that begins to count supervises, whether or not it is on. -/
theorem supervised_zero
    (htimeout : g.watchdog.timeout = g.settings.ticks g.settings.watchdogTimeout)
    (hrunning : g.watchdog.expired = false) (hlast : g.watchdog.last = g.ticks) :
    g.Supervised 0 := by
  refine ⟨htimeout, fun _ => Watchdog.measures_zero hrunning hlast ?_⟩
  rw [htimeout]
  exact Settings.one_le_ticks ..

/-- A gateway is made with a watchdog that begins to count. -/
theorem supervised_of_make {s : Settings} {d : Device} (h : make s d = .ok g) :
    g.Supervised 0 := by
  unfold make at h
  split at h
  · cases h
  · rw [Except.ok.injEq] at h
    subst h
    split <;> exact supervised_zero rfl rfl rfl

/-- What neither touches watchdog and clock nor turns the watchdog on lets it supervise on. -/
theorem Supervised.of_keeps (h : g.Supervised silence) (hsettings : g'.settings = g.settings)
    (hwatchdog : g'.watchdog = g.watchdog) (hticks : g'.ticks = g.ticks)
    (hstatus : g'.status.has Status.watchdog = true → g.status.has Status.watchdog = true) :
    g'.Supervised silence := by
  refine ⟨?_, fun hon => ?_⟩
  · rw [hwatchdog, hsettings]
    exact h.timeout
  · rw [hwatchdog, hticks]
    exact h.measures (hstatus hon)

/-- Flags that were cleared leave the watchdog on only if it was. -/
theorem Supervised.of_clear {flags : UInt32} (h : g.Supervised silence)
    (hsettings : g'.settings = g.settings) (hwatchdog : g'.watchdog = g.watchdog)
    (hticks : g'.ticks = g.ticks) (hstatus : g'.status = g.status.withoutFlags flags) :
    g'.Supervised silence := by
  refine h.of_keeps hsettings hwatchdog hticks fun hon => ?_
  rw [hstatus] at hon
  exact Status.has_of_has_withoutFlags hon

theorem Supervised.advance (h : g.Supervised silence) : g.advance.2.Supervised (silence + 1) := by
  have hsettings : g.advance.2.settings = g.settings := congrArg Prod.fst g.fixed_advance
  cases hon : g.status.has Status.watchdog with
  | false =>
    obtain ⟨-, hwatchdog, hstatus, -⟩ := g.ticked_keeps
    -- nothing is said of a watchdog that is off, and a tick does not turn it on
    rw [g.advance_of_off hon] at hsettings ⊢
    refine ⟨by rw [hwatchdog, hsettings]; exact h.timeout, fun hon' => ?_⟩
    rw [hstatus, hon] at hon'
    cases hon'
  | true =>
    obtain ⟨-, hticks, hwatchdog, -, -⟩ := g.advance_of_on hon
    have hmeasures := ((h.measures hon).check).1
    refine ⟨?_, fun _ => by rw [hticks, hwatchdog]; exact hmeasures⟩
    rw [hwatchdog, hsettings, Watchdog.timeout_check]
    exact h.timeout

theorem Supervised.hear (h : g.Supervised silence) : g.hear.Supervised 0 := by
  obtain ⟨hwatchdog, hticks⟩ := g.clock_hear
  have hsettings : g.hear.settings = g.settings := congrArg Prod.fst g.fixed_hear
  apply supervised_zero
  · rw [hwatchdog, hsettings]
    exact h.timeout
  · rw [hwatchdog]
    rfl
  · rw [hwatchdog, hticks]
    rfl

theorem Supervised.avail (h : g.Supervised silence) : g.avail.Supervised 0 := by
  unfold Gateway.avail
  dsimp only
  split
  · exact h.hear.of_keeps rfl rfl rfl id
  · exact h.hear

theorem Supervised.sync (h : g.Supervised silence) : g.sync.Supervised 0 := by
  unfold Gateway.sync
  dsimp only
  split
  · exact h.hear.of_keeps rfl rfl rfl id
  · exact h.hear

theorem Supervised.loseContact (h : g.Supervised silence) : g.loseContact.2.Supervised silence := by
  have hkeeps : g.loseContact.2.watchdog = g.watchdog ∧ g.loseContact.2.ticks = g.ticks ∧
      g.loseContact.2.status = (g.clearFlags Status.connectionDependent).status := by
    unfold Gateway.loseContact
    dsimp only
    split <;> exact ⟨rfl, rfl, rfl⟩
  obtain ⟨hwatchdog, hticks, hstatus⟩ := hkeeps
  have hsettings : g.loseContact.2.settings = g.settings := congrArg Prod.fst g.fixed_loseContact
  exact h.of_clear hsettings hwatchdog hticks (hstatus.trans (status_clearFlags ..))

/-- Setting flags starts the watchdog if it turns it on, and else leaves it alone. -/
theorem Supervised.raiseFlags (h : g.Supervised silence) (flags : UInt32) :
    (g.raiseFlags flags).Supervised
      (if flags &&& Status.watchdog != 0 && !g.status.has Status.watchdog then 0 else silence) := by
  unfold Gateway.raiseFlags
  dsimp only
  split
  · exact supervised_zero rfl rfl rfl
  · next hstarts =>
    -- it does not start, so a flag that is set now was set before
    refine h.of_keeps rfl rfl rfl fun hon => ?_
    rw [status_setFlags, Status.has_withFlags] at hon
    rcases hon with hon | hflags
    · exact hon
    · rw [bne_iff_ne.2 hflags, Bool.true_and, Bool.not_eq_true', Bool.not_eq_false] at hstarts
      exact hstarts

theorem Supervised.enableWatchdog_false (h : g.Supervised silence) :
    (g.enableWatchdog false).Supervised silence :=
  h.of_clear rfl rfl rfl (status_clearFlags ..)

/-- A change that configures may set a flag, but not that of the watchdog. -/
theorem Supervised.of_configures (h : g.Supervised silence) {c : Change}
    (hc : c.configures = true) : (g.apply c).Supervised silence := by
  cases hg' : g.attempt c with
  | error e =>
    rw [apply_of_error hg']
    exact h
  | ok g' =>
    obtain ⟨hrest, hstatus, -⟩ := attempt_of_configures hc hg'
    rw [apply_of_ok hg']
    refine h.of_keeps (by rw [hrest]) (by rw [hrest]) (by rw [hrest]) fun hon => ?_
    rcases hstatus with hsame | hset
    · rwa [hsame] at hon
    · rw [hset, Status.has_withFlags] at hon
      exact hon.resolve_right (by decide)

end Gateway

/-! ## The silence of the host in a run

The invariant in every state of a run, with the silence that goes beside it, and from it the law of
the expiry. -/

/-- The ticks since the host was heard last or the watchdog was started, after one more change. -/
def Change.silence (g : Gateway) (before : Nat) : Change → Nat
  | .advance => before + 1
  | .avail | .sync | .hear | .enableWatchdog true => 0
  | .raiseFlags flags =>
    if flags &&& Status.watchdog != 0 && !g.status.has Status.watchdog then 0 else before
  | _ => before

/-- **Every change keeps the watchdog supervising.** -/
theorem Gateway.Supervised.apply {g : Gateway} {silence : Nat} (h : g.Supervised silence)
    (c : Change) : (g.apply c).Supervised (c.silence g silence) := by
  cases c with
  | advance => exact h.advance
  | avail => exact h.avail
  | sync => exact h.sync
  | hear => exact h.hear
  | loseContact => exact h.loseContact
  | failTransport f => exact h.of_clear rfl rfl rfl (status_clearFlags ..)
  | clearFlags flags => exact h.of_clear rfl rfl rfl (status_clearFlags ..)
  | raiseFlags flags => exact h.raiseFlags flags
  | enableWatchdog on =>
    cases on with
    | true => exact supervised_zero rfl rfl rfl
    | false => exact h.enableWatchdog_false
  | remark _ | fault _ | signalWork | takeInterrupt | lookForRing | lieDown | getUp | countCrc
  | setTransport _ | selectCycle _ | receive => exact h.of_keeps rfl rfl rfl id
  | install _ | addAlarm _ _ | removeAlarm _ _ | writeParam _ _ _ _ | takeWrite | setSignal _ _ _
  | setValue _ _ _ _ | setSlotStatus _ _ | unpackOutputs _ => exact h.of_configures rfl

namespace Run

/-- The ticks since the host was heard last or the watchdog was started, counted without bound. -/
def silence (r : Run) : Nat := r.track (fun g c before => c.silence g before) 0

/-- The silence after which the watchdog is to expire. -/
def timeout (r : Run) : Nat := (r.settings.ticks r.settings.watchdogTimeout).toNat

/-- **The watchdog of every run supervises.** -/
theorem supervised (r : Run) : r.state.Supervised r.silence := by
  induction r using Run.induct with
  | hmade h => exact Gateway.supervised_of_make h
  | hnext r c ih =>
    rw [state_next, silence, track_next]
    exact ih.apply c

/-- The run that goes on with a tick and the report of the expiry that it brought. -/
def expiry (r : Run) : Run := (r.next .advance).next (.fault .coreCommunication)

/-- A tick tells of an expiry exactly if the watchdog is on and the silence comes to the timeout. -/
theorem advance_fst (r : Run) :
    r.state.advance.1 = true ↔
      r.state.status.has Status.watchdog = true ∧ r.silence + 1 = r.timeout := by
  have hs := r.supervised
  cases hon : r.state.status.has Status.watchdog with
  | false =>
    rw [r.state.advance_of_off hon]
    exact ⟨fun h => (nomatch h), fun h => (nomatch h.1)⟩
  | true =>
    have hcheck := (hs.measures hon).check.2
    rw [hs.timeout, r.settings_state] at hcheck
    rw [(r.state.advance_of_on hon).1, hcheck]
    exact ⟨fun h => ⟨rfl, h⟩, And.right⟩

/-- **The watchdog expires exactly when the silence reaches the timeout**, however long the run and
however often the counter has wrapped:

* the timeout is the least number of ticks, at least one, that covers the time that is set, as far
  as it can be counted;
* while the watchdog is on, it has expired exactly if the silence has reached the timeout;
* a tick makes it expire exactly if it is on and the silence reaches the timeout with this tick.
  Then the tick ends the contact, leaves all other flags, and reports the fault once;
* any other tick touches no flag, reports nothing and asks nobody. -/
theorem expires_exactly_at_timeout (r : Run) :
    (∃ m, r.settings.Covers r.settings.watchdogTimeout m ∧
      (∀ n, r.settings.Covers r.settings.watchdogTimeout n → m ≤ n) ∧
      r.timeout = min m (2 ^ 32 - 1)) ∧
    (r.state.status.has Status.watchdog = true →
      (r.state.watchdog.expired = true ↔ r.timeout ≤ r.silence)) ∧
    ∀ {σ : Type} (h : Handler σ) (w : World σ), w.gateway = r.state →
      (r.state.status.has Status.watchdog = true ∧ r.silence + 1 = r.timeout →
        w.tick h = (World.ask { w with gateway := r.expiry.state } h
          (.fault .coreCommunication)).2 ∧
        r.expiry.state.status = r.state.status.withoutFlags Status.connected ∧
        r.expiry.state.faults = .coreCommunication :: r.state.faults) ∧
      (¬ (r.state.status.has Status.watchdog = true ∧ r.silence + 1 = r.timeout) →
        w.tick h = { w with gateway := (r.next .advance).state } ∧
        (r.next .advance).state.status = r.state.status ∧
        (r.next .advance).state.faults = r.state.faults) := by
  refine ⟨r.settings.toNat_ticks _, fun hon => ?_, fun {σ} h w hw => ⟨fun hexpires => ?_, ?_⟩⟩
  · have hs := r.supervised
    rw [(hs.measures hon).expired_iff, hs.timeout, r.settings_state]
    rfl
  · -- the tick at which the silence comes to be the timeout
    rw [← advance_fst] at hexpires
    have hstatus := r.state.status_advance
    rw [if_pos hexpires] at hstatus
    have hnext : r.expiry.state = r.state.advance.2.fault .coreCommunication := by
      rw [expiry, state_next, state_next]
      rfl
    rw [World.tick_eq, hw, if_pos hexpires, hnext, Gateway.faults_fault, Gateway.faults_advance]
    refine ⟨?_, hstatus, rfl⟩
    rw [← hw]
    rfl
  · -- any other tick reports nothing and leaves the status
    intro hexpires
    rw [← advance_fst] at hexpires
    have hnext : (r.next .advance).state = r.state.advance.2 := r.state_next .advance
    have hstatus := r.state.status_advance
    rw [if_neg hexpires] at hstatus
    rw [World.tick_eq, hw, if_neg hexpires, hnext]
    refine ⟨?_, hstatus, r.state.faults_advance⟩
    show { w with gateway := w.gateway.advance.2 } = _
    rw [hw]

end Run

end Fieldbus
