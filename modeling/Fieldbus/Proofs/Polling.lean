import Fieldbus.Proofs.Posting
/-!
Polls: one in every period, and never two in the queue.

Ticks are counted here without bound, beside the run (`Run.tickCount`), while the gateway has two
counters of 32 bits that wrap around. Their difference is what carries the law: between two ticks it
is the count of ticks modulo the period (`Gateway.InStep`), and a period is short enough for it. So
a poll is due with exactly those ticks whose number is a multiple of the period. A tick that is due
sends a poll unless one is queued, and nothing else sends any (`Change.poll_mem_posts`).

In step is meant of the counters as they are after a tick. The difference of two counters that wrap
around is the true difference modulo `2 ^ 32`, so it can only be trusted if the true one is small;
it is always below the period, which is itself a count of 32 bits. When a poll is due the difference
has come to be the period, and the gateway takes down the tick, whether or not the poll found room
and whether or not one was queued already. This is why polls stay on the multiples of the period,
however many were dropped.

A poll that is due is sent only if none is queued, so that there is one at most is a law of single
changes and needs no counting (`Gateway.count_poll_apply`).
-/

namespace Fieldbus

/-! ## Who sends polls

Which messages a change offers is known from `Change.posts`. News of the status are no polls, so the
poll of a tick is the only one, and a change can add one to the queue only if it is a tick, a poll
is due and the queue has none. -/

/-- A status has no poll to tell. -/
theorem Status.poll_not_mem_news (old new : Status) : Message.poll ∉ old.news new := by
  unfold news
  split <;> simp

theorem Gateway.poll_mem_duePoll {g : Gateway} (h : .poll ∈ g.duePoll) :
    g.pollDue = true ∧ .poll ∉ g.queue.messages := by
  unfold duePoll at h
  split at h
  · next hdue => exact hdue
  · cases h

/-- **Only a tick sends a poll,** and only if it is due and none is queued. -/
theorem Change.poll_mem_posts {g : Gateway} {c : Change} (h : .poll ∈ c.posts g) :
    c = .advance ∧ g.pollDue = true ∧ .poll ∉ g.queue.messages := by
  unfold posts at h
  rcases List.mem_append.1 h with hbefore | hbehind
  · rcases List.mem_append.1 hbefore with hahead | hnews
    · cases c with
      | advance => exact ⟨rfl, Gateway.poll_mem_duePoll hahead⟩
      | _ => cases hahead
    · exact absurd hnews (Status.poll_not_mem_news _ _)
  · cases c with
    | avail | sync | writeParam _ _ _ _ =>
      unfold behind at hbehind
      dsimp only at hbehind
      split at hbehind <;> simp at hbehind
    | fault f => simp [behind] at hbehind
    | _ => cases hbehind

/-- A tick has one poll to send at most. -/
theorem Change.count_poll_advance (g : Gateway) :
    (Change.advance.posts g).count Message.poll = g.duePoll.count .poll := by
  have hnews := List.count_eq_zero_of_not_mem (Status.poll_not_mem_news g.status g.advance.2.status)
  show (g.duePoll ++ g.status.news g.advance.2.status ++ []).count Message.poll = _
  rw [List.append_nil, List.count_append, hnews, Nat.add_zero]

namespace Gateway
variable (g : Gateway)

/-- With the poll that is due there is one, if there was none before. -/
theorem count_poll_duePoll (h : g.queue.messages.count .poll ≤ 1) :
    g.queue.messages.count .poll + g.duePoll.count Message.poll ≤ 1 := by
  unfold duePoll
  split
  · next hdue =>
    rw [List.count_eq_zero_of_not_mem hdue.2]
    decide
  · exact h

/-- **No change makes a second poll of the one that is queued.** -/
theorem count_poll_apply (h : g.queue.messages.count .poll ≤ 1) (c : Change) :
    (g.apply c).queue.messages.count .poll ≤ 1 := by
  by_cases hreceive : c = .receive
  · subst hreceive
    have htail : (g.apply .receive).queue.messages = g.queue.messages.tail := by
      have hreceived : (g.apply .receive).queue = _ := g.link.outbox.queue_receive
      rw [hreceived]
      exact g.queue.receive_snd_messages
    have hfewer := (List.tail_sublist g.queue.messages).count_le .poll
    rw [htail]
    exact Nat.le_trans hfewer h
  · have hle := g.queue.count_offer_le (c.posts g) .poll
    rw [g.queue_apply hreceive]
    by_cases hpoll : .poll ∈ c.posts g
    · obtain ⟨rfl, -, -⟩ := Change.poll_mem_posts hpoll
      have hdue := g.count_poll_duePoll h
      rw [Change.count_poll_advance] at hle
      omega
    · rw [List.count_eq_zero_of_not_mem hpoll] at hle
      omega

/-! ## The counters

The count of ticks and that of the last poll are touched by ticks only. Configuring, setting flags,
losing contact and all else leave the pair as it is. -/

/-- The two counters. -/
def counters : UInt32 × UInt32 := (g.ticks, g.lastPoll)

theorem counters_of_configures {c : Change} (hc : c.configures = true) :
    (g.apply c).counters = g.counters := by
  cases hg' : g.attempt c with
  | error e => rw [apply_of_error hg']
  | ok g' =>
    obtain ⟨hrest, -, -⟩ := attempt_of_configures hc hg'
    rw [apply_of_ok hg', hrest]
    rfl

/-- Nothing but a tick touches the counters. -/
theorem counters_apply {c : Change} (h : c ≠ .advance) : (g.apply c).counters = g.counters := by
  have hhear : g.hear.counters = g.counters := (congrArg counters g.hear_eq :)
  cases c with
  | advance => exact absurd rfl h
  | hear => exact hhear
  | avail => exact (congrArg counters g.avail_eq :).trans hhear
  | sync => exact (congrArg counters g.sync_eq :).trans hhear
  | loseContact => exact (congrArg counters g.loseContact_eq :)
  | raiseFlags flags => exact (congrArg counters (g.raiseFlags_eq flags) :)
  | enableWatchdog on => exact (congrArg counters (g.enableWatchdog_eq on) :)
  | remark _ | failTransport _ | fault _ | signalWork | takeInterrupt | lookForRing | lieDown
  | getUp | countCrc | setTransport _ | clearFlags _ | selectCycle _ | receive => rfl
  | install _ | addAlarm _ _ | removeAlarm _ _ | writeParam _ _ _ _ | takeWrite | setSignal _ _ _
  | setValue _ _ _ _ | setSlotStatus _ _ | unpackOutputs _ => exact g.counters_of_configures rfl

/-- A tick counts, and takes down whether a poll is due. -/
theorem counters_advance :
    g.advance.2.counters = (g.ticks + 1, if g.pollDue then g.ticks + 1 else g.lastPoll) := by
  have hticked :
      g.ticked.counters = (g.ticks + 1, if g.pollDue then g.ticks + 1 else g.lastPoll) := by
    unfold ticked pollIfDue
    show counters (if g.pollDue then if .poll ∈ g.queue.messages then _ else _ else _) = _
    split
    · split <;> rfl
    · rfl
  have hcheck : g.ticked.checkWatchdog.2.counters = g.ticked.counters := by
    unfold checkWatchdog
    split
    · dsimp only
      split <;> rfl
    · rfl
  exact hcheck.trans hticked

/-! ## When a poll is due

Here is the arithmetic. Let the difference be the count of ticks modulo the period. With the next
tick it is one more, and either that is the period, and the gateway takes down the tick, which makes
the difference zero; or it is below the period, and then it is the next count modulo the period. In
both cases the counters are in step again. -/

/-- The ticks from one poll to the next. -/
def period : Nat := (g.settings.ticks g.settings.pollInterval).toNat

theorem one_le_period : 1 ≤ g.period := Settings.one_le_ticks ..

/-- **After so many ticks, the counters are in step:** their difference is how far the period has
gone on. -/
def InStep (ticks : Nat) : Prop := (g.ticks - g.lastPoll).toNat = ticks % g.period

variable {g} {ticks : Nat}

/-- At the next tick, the counters differ by one more. -/
theorem InStep.toNat_next (h : g.InStep ticks) :
    (g.ticks + 1 - g.lastPoll).toNat = ticks % g.period + 1 := by
  have hlt : ticks % g.period < g.period := Nat.mod_lt _ g.one_le_period
  have hbound : g.period < 2 ^ 32 := UInt32.toNat_lt _
  have hdiff : (g.ticks - g.lastPoll).toNat = ticks % g.period := h
  have hone : (1 : UInt32).toNat = 1 := rfl
  have hticks := g.ticks.toNat_lt
  have hlast := g.lastPoll.toNat_lt
  rw [UInt32.toNat_sub] at hdiff
  rw [UInt32.toNat_sub, UInt32.toNat_add]
  omega

/-- A poll is due when a period is over. -/
theorem InStep.pollDue_iff_over (h : g.InStep ticks) :
    g.pollDue = true ↔ ticks % g.period + 1 = g.period := by
  have hlt : ticks % g.period < g.period := Nat.mod_lt _ g.one_le_period
  have helapsed : g.pollDue = true ↔ g.period ≤ ticks % g.period + 1 := by
    rw [← h.toNat_next]
    unfold pollDue hasElapsed
    rw [decide_eq_true_iff]
    exact UInt32.le_iff_toNat_le
  rw [helapsed]
  omega

/-- **A poll is due with the ticks whose number is a multiple of the period.** -/
theorem InStep.pollDue_iff (h : g.InStep ticks) : g.pollDue = true ↔ g.period ∣ ticks + 1 := by
  have hlt : ticks % g.period < g.period := Nat.mod_lt _ g.one_le_period
  rw [h.pollDue_iff_over, Nat.dvd_iff_mod_eq_zero, ← Nat.mod_add_mod]
  constructor
  · intro hover
    rw [hover, Nat.mod_self]
  · intro hzero
    by_contra hgoes
    rw [Nat.mod_eq_of_lt (by omega)] at hzero
    cases hzero

/-- **A tick keeps the counters in step,** whether or not it is due. -/
theorem InStep.advance (h : g.InStep ticks) : g.advance.2.InStep (ticks + 1) := by
  have hsettings : g.advance.2.settings = g.settings := congrArg Prod.fst g.fixed_advance
  have hticks : g.advance.2.ticks = g.ticks + 1 := congrArg Prod.fst g.counters_advance
  have hlast : g.advance.2.lastPoll = if g.pollDue then g.ticks + 1 else g.lastPoll :=
    congrArg Prod.snd g.counters_advance
  have hlt : ticks % g.period < g.period := Nat.mod_lt _ g.one_le_period
  unfold InStep
  rw [hticks, hlast, show g.advance.2.period = g.period by unfold period; rw [hsettings]]
  split
  · next hdue =>
    rw [UInt32.sub_self, Nat.mod_eq_zero_of_dvd (h.pollDue_iff.1 hdue)]
    rfl
  · next hdue =>
    have hgoes : ticks % g.period + 1 < g.period := by
      rw [h.pollDue_iff_over] at hdue
      omega
    rw [h.toNat_next, ← Nat.mod_add_mod, Nat.mod_eq_of_lt hgoes]

/-- What is no tick keeps them so too. -/
theorem InStep.apply (h : g.InStep ticks) {c : Change} (hc : c ≠ .advance) :
    (g.apply c).InStep ticks := by
  have hcounters := g.counters_apply hc
  unfold InStep period
  rw [g.settings_apply, show (g.apply c).ticks = g.ticks from congrArg Prod.fst hcounters,
    show (g.apply c).lastPoll = g.lastPoll from congrArg Prod.snd hcounters]
  exact h

/-- A gateway is made with no tick behind it, and with no poll. -/
theorem inStep_of_make {s : Settings} {d : Device} (h : make s d = .ok g) :
    g.InStep 0 ∧ g.queue.messages.count .poll ≤ 1 := by
  have hnone : (Status.news {} Status.fresh ++ Status.fresh.news g.status).count .poll = 0 := by
    rw [List.count_append, List.count_eq_zero_of_not_mem (Status.poll_not_mem_news _ _),
      List.count_eq_zero_of_not_mem (Status.poll_not_mem_news _ _)]
  have hqueue : g.queue = _ := (offers_of_make h).queue
  have hcount := (Queue.empty queueCapacity).count_offer_le
    (Status.news {} Status.fresh ++ Status.fresh.news g.status) .poll
  have hcounters : g.counters = (0, 0) := by
    unfold make at h
    split at h
    · cases h
    · rw [Except.ok.injEq] at h
      subst h
      split <;> rfl
  refine ⟨?_, ?_⟩
  · unfold InStep
    rw [show g.ticks = 0 from congrArg Prod.fst hcounters,
      show g.lastPoll = 0 from congrArg Prod.snd hcounters, Nat.zero_mod]
    rfl
  · rw [hnone] at hcount
    rw [hqueue]
    exact Nat.le_succ_of_le hcount

end Gateway

/-! ## Over a whole run

`Run.tickCount` counts the ticks of a run without bound; it is what the law is stated with, and the
gateway never sees it. `Run.Polls` says for each tick what becomes of the queue in the four cases:
not due, due with a poll queued, due with room, due without. -/

/-- The ticks with a change. -/
def Change.ticks : Change → Nat
  | .advance => 1
  | _ => 0

theorem Change.ticks_of_ne {c : Change} (h : c ≠ .advance) : c.ticks = 0 := by
  cases c with
  | advance => exact absurd rfl h
  | _ => rfl

/-- The conduct of letting no time pass. -/
def Conduct.timeless : Conduct := .only (· ≠ .advance)

/-- **Only the call of a tick ticks.** -/
theorem Op.Makes.timeless {op : Op} {cs : List Change} (h : op.Makes cs) (hop : op ≠ .tick) :
    Conduct.timeless.Allows cs := by
  refine h.forall_mem (fun c hc hadvance => ?_) fun f => ⟨nofun, nofun⟩
  rw [hc, hadvance] at h
  cases op with
  | tick => exact absurd rfl hop
  | _ => simp [Op.Makes, Works, HandsOut, Serves, Reports] at h

namespace Run
variable (r : Run)

/-- The ticks since the gateway was made, counted without bound. -/
def tickCount : Nat := r.track (fun _ c n => n + c.ticks) 0

/-- The ticks from one poll to the next. -/
def period : Nat := (r.settings.ticks r.settings.pollInterval).toNat

theorem period_state : r.state.period = r.period := by
  unfold period Gateway.period
  rw [r.settings_state]

theorem tickCount_next (c : Change) : (r.next c).tickCount = r.tickCount + c.ticks :=
  r.track_next ..

/-- Changes that are no tick do not count. -/
theorem tickCount_andThen {cs : List Change} (h : ∀ c ∈ cs, c ≠ .advance) :
    (r.andThen cs).tickCount = r.tickCount := by
  induction cs generalizing r with
  | nil =>
    unfold andThen
    rw [List.append_nil]
  | cons c rest ih =>
    have hfirst : r.andThen (c :: rest) = (r.next c).andThen rest := by
      unfold andThen next
      rw [List.append_assoc, List.singleton_append]
    rw [hfirst, ih (r.next c) fun x hx => h x (List.mem_cons_of_mem c hx), r.tickCount_next,
      Change.ticks_of_ne (h c List.mem_cons_self), Nat.add_zero]

/-- **The counters of every run are in step.** -/
theorem inStep : r.state.InStep r.tickCount := by
  induction r using Run.induct with
  | hmade h => exact (Gateway.inStep_of_make h).1
  | hnext r c ih =>
    rw [state_next, tickCount_next]
    by_cases hc : c = .advance
    · subst hc
      exact ih.advance
    · rw [Change.ticks_of_ne hc]
      exact ih.apply hc

/-- **There is never more than one poll in the queue.** -/
theorem count_poll_le : r.state.queue.messages.count .poll ≤ 1 := by
  induction r using Run.induct with
  | hmade h => exact (Gateway.inStep_of_make h).2
  | hnext r c ih =>
    rw [state_next]
    exact r.state.count_poll_apply ih c

/-- A poll is due with the ticks whose number is a multiple of the period. -/
theorem pollDue_iff : r.state.pollDue = true ↔ r.period ∣ r.tickCount + 1 := by
  rw [r.inStep.pollDue_iff, r.period_state]

/-- The message about the status that the next tick may have: that the watchdog has expired. -/
def expiryNews : List Message := r.state.status.news (r.next .advance).state.status

/-- A tick sends the poll that is due, and then what it has to say of the status. -/
theorem queue_tick :
    (r.next .advance).state.queue = ((r.state.queue.offer r.state.duePoll).2.offer r.expiryNews).2 ∧
      (r.next .advance).state.offered = r.state.offered ++ (r.state.duePoll ++ r.expiryNews) := by
  have hposts : Change.advance.posts r.state = r.state.duePoll ++ r.expiryNews := by
    unfold expiryNews
    rw [r.state_next]
    exact List.append_nil _
  have hqueue := r.state.queue_apply (c := .advance) nofun
  rw [hposts, Queue.offer_append] at hqueue
  rw [r.state_next]
  refine ⟨hqueue, ?_⟩
  rw [Gateway.offered_apply, hposts]

/-- **How a run polls.** -/
structure Polls : Prop where
  /-- The period is the least number of ticks, at least one, that covers the time that is set, as
  far as it can be counted. -/
  period : ∃ m, r.settings.Covers r.settings.pollInterval m ∧
    (∀ n, r.settings.Covers r.settings.pollInterval n → m ≤ n) ∧ r.period = min m (2 ^ 32 - 1)
  /-- There is never more than one poll in the queue. -/
  single : r.state.queue.messages.count .poll ≤ 1
  /-- A poll is due with the ticks whose number is a multiple of the period. -/
  due : r.state.pollDue = true ↔ r.period ∣ r.tickCount + 1
  /-- A tick that is not due, or finds a poll in the queue, sends none: nothing is added for it, and
  nothing dropped. -/
  quiet : ¬ r.period ∣ r.tickCount + 1 ∨ .poll ∈ r.state.queue.messages →
    (r.next .advance).state.queue = (r.state.queue.offer r.expiryNews).2 ∧
      (r.next .advance).state.offered = r.state.offered ++ r.expiryNews
  /-- A tick that is due appends one if there is room, -/
  appends : r.period ∣ r.tickCount + 1 → .poll ∉ r.state.queue.messages →
    r.state.queue.isFull = false →
      (r.next .advance).state.queue = (Queue.offer { r.state.queue with
        messages := r.state.queue.messages ++ [.poll] } r.expiryNews).2 ∧
      (r.next .advance).state.offered = r.state.offered ++ .poll :: r.expiryNews
  /-- and else has it dropped and counted, once. -/
  drops : r.period ∣ r.tickCount + 1 → .poll ∉ r.state.queue.messages →
    r.state.queue.isFull = true →
      (r.next .advance).state.queue = (Queue.offer { r.state.queue with
        dropped := r.state.queue.dropped + 1 } r.expiryNews).2 ∧
      (r.next .advance).state.offered = r.state.offered ++ .poll :: r.expiryNews
  /-- What else a tick tells is no poll, -/
  news : .poll ∉ r.expiryNews
  /-- and no other change sends one, nor does it count as a tick. -/
  others : ∀ c, c ≠ .advance → .poll ∉ c.posts r.state ∧
    (r.next c).state.offered = r.state.offered ++ c.posts r.state ∧
    (r.next c).tickCount = r.tickCount
  ticks : (r.next .advance).tickCount = r.tickCount + 1
  /-- The call of a tick is such a change, and a report if the watchdog expires with it. -/
  calls : ∀ {σ : Type} (h : Handler σ) (w : World σ), w.gateway = r.state →
    w.tick h = if r.state.advance.1
      then World.report { w with gateway := (r.next .advance).state } h .coreCommunication
      else { w with gateway := (r.next .advance).state }
  /-- All other calls go on without a tick, unless adapter or application call one. -/
  performs : ∀ {σ : Type} (env : Environment σ) (depth : Nat) (op : Op) (w : World σ),
    w.gateway = r.state → ∃ cs, (r.andThen cs).state = (env.perform depth op w).2.gateway ∧
      (env.CallsOnly (· ≠ .tick) → op ≠ .tick → (r.andThen cs).tickCount = r.tickCount)

variable {r}

/-- A tick with no poll to send tells of the status only. -/
theorem queue_tick_of_quiet (h : ¬ r.period ∣ r.tickCount + 1 ∨ .poll ∈ r.state.queue.messages) :
    (r.next .advance).state.queue = (r.state.queue.offer r.expiryNews).2 ∧
      (r.next .advance).state.offered = r.state.offered ++ r.expiryNews := by
  have hnone : r.state.duePoll = [] := by
    refine if_neg fun hdue => ?_
    rw [r.pollDue_iff] at hdue
    exact h.elim (fun hno => hno hdue.1) hdue.2
  have htick := r.queue_tick
  rw [hnone] at htick
  exact htick

/-- A tick that is due and finds no poll sends one. -/
theorem queue_tick_of_due (hdue : r.period ∣ r.tickCount + 1)
    (hnone : .poll ∉ r.state.queue.messages) :
    (r.next .advance).state.queue = ((r.state.queue.send .poll).2.offer r.expiryNews).2 ∧
      (r.next .advance).state.offered = r.state.offered ++ .poll :: r.expiryNews := by
  have hpoll : r.state.duePoll = [.poll] := if_pos ⟨r.pollDue_iff.2 hdue, hnone⟩
  have htick := r.queue_tick
  rw [hpoll, Queue.offer_singleton] at htick
  exact htick

variable (r)

/-- **Every run polls once in a period,** however long it is. -/
theorem poll_periodic : r.Polls where
  period := r.settings.toNat_ticks _
  single := r.count_poll_le
  due := r.pollDue_iff
  quiet h := queue_tick_of_quiet h
  appends hdue hnone hroom := by
    have htick := queue_tick_of_due hdue hnone
    rw [Queue.send, hroom] at htick
    exact htick
  drops hdue hnone hfull := by
    have htick := queue_tick_of_due hdue hnone
    rw [Queue.send, hfull] at htick
    exact htick
  news := Status.poll_not_mem_news _ _
  others c hc := by
    refine ⟨fun hpoll => hc (Change.poll_mem_posts hpoll).1, ?_, ?_⟩
    · rw [r.state_next, Gateway.offered_apply]
    · rw [r.tickCount_next, Change.ticks_of_ne hc, Nat.add_zero]
  ticks := r.tickCount_next .advance
  calls h w hw := by
    rw [r.state_next, ← hw, World.tick_eq]
    rfl
  performs env depth op w hw := by
    by_cases htimeless : env.CallsOnly (· ≠ .tick) ∧ op ≠ .tick
    · obtain ⟨cs, hcs, hafter⟩ := Environment.leadsBy_perform (A := (· ≠ .tick))
        (fun _ hop _ hmakes => Op.Makes.timeless hmakes hop) htimeless.1 depth op htimeless.2 w
      exact ⟨cs, by rw [r.state_andThen, ← hw, hafter], fun _ _ => r.tickCount_andThen hcs⟩
    · obtain ⟨cs, hstate⟩ := r.exists_perform env depth op hw
      exact ⟨cs, hstate, fun henv hop => absurd ⟨henv, hop⟩ htimeless⟩

end Run
end Fieldbus
