import Fieldbus.Proofs.Contact
import Fieldbus.Proofs.Delivery
/-!
What each change has to say to the host.

A change offers messages to the queue, one after another, and the queue takes them or not. Which
ones it offers does not depend on that: they are read off the state that the change finds and the
status that it leaves (`Change.posts`). Two laws are drawn from this:

* all that was ever offered grows by these messages (`Gateway.offered_apply`);
* the queue is the one before with these messages sent to it (`Gateway.queue_apply`).

So a law about messages of one kind need not look into any change. It asks which of the messages in
`Change.posts` are of that kind, and from there on it is about lists.

There is one table for all changes because they share their parts. Hearing the host, losing contact
and setting flags all end in a new status, and a new status is told by one message in one way
(`Status.news`); a tick says something before it can change the status, and some changes say
something after. So what a change has to say comes in three pieces, ahead of the status, the news of
it, and behind.
-/

namespace Fieldbus

/-! ## Offering messages to a queue

To offer some messages is to run the queue through as many steps of sending, so what the law of
queues says of steps can be said of messages. What matters here is how it can be cut down: each
message has one outcome, none of them makes another one leave, and with none refused all have come
in. -/

/-- The message that was offered with it, whether or not there was room. -/
def QueueOutcome.offered? : QueueOutcome → Option Message
  | .accepted m | .refused m => some m
  | _ => none

namespace Queue
variable (q : Queue)

/-- The queue after some messages were offered to it, with what came of each. -/
def offer (ms : List Message) : List QueueOutcome × Queue := q.run (ms.map .send)

theorem offer_append (ms ns : List Message) :
    q.offer (ms ++ ns) =
      ((q.offer ms).1 ++ ((q.offer ms).2.offer ns).1, ((q.offer ms).2.offer ns).2) := by
  unfold offer
  rw [List.map_append, run_append]

theorem offer_singleton (m : Message) :
    q.offer [m] = ([if (q.send m).1 then .accepted m else .refused m], (q.send m).2) := rfl

/-- Each message that is offered comes to an outcome of its own, -/
theorem offered_offer (ms : List Message) :
    (q.offer ms).1.filterMap QueueOutcome.offered? = ms := by
  induction ms generalizing q with
  | nil => rfl
  | cons m rest ih =>
    have hfirst :
        (if (q.send m).1 then QueueOutcome.accepted m else .refused m).offered? = some m := by
      split <;> rfl
    show ((if (q.send m).1 then QueueOutcome.accepted m else .refused m) ::
      ((q.send m).2.offer rest).1).filterMap QueueOutcome.offered? = _
    rw [List.filterMap_cons_some hfirst, ih]

/-- and none of them makes another one leave. -/
theorem left_offer (ms : List Message) : (q.offer ms).1.flatMap QueueOutcome.left = [] := by
  induction ms generalizing q with
  | nil => rfl
  | cons m rest ih =>
    have hfirst : (if (q.send m).1 then QueueOutcome.accepted m else .refused m).left = [] := by
      split <;> rfl
    show ((if (q.send m).1 then QueueOutcome.accepted m else .refused m) ::
      ((q.send m).2.offer rest).1).flatMap QueueOutcome.left = []
    rw [List.flatMap_cons, hfirst, ih]
    rfl

/-- What is queued once messages were offered was queued before or is among them. -/
theorem messages_offer (ms : List Message) :
    (q.offer ms).2.messages =
      q.messages ++ (q.offer ms).1.flatMap QueueOutcome.entered := by
  have horder := (q.delivers_run (ms.map .send)).order
  rw [show (q.run (ms.map .send)).1.flatMap QueueOutcome.left = [] from q.left_offer ms,
    List.nil_append] at horder
  exact horder.symm

end Queue

/-- What has come into a queue was offered to it. -/
theorem QueueOutcome.entered_sublist (os : List QueueOutcome) :
    (os.flatMap entered).Sublist (os.filterMap offered?) := by
  induction os with
  | nil => exact List.Sublist.refl []
  | cons o rest ih =>
    rw [List.flatMap_cons]
    cases o with
    | accepted m => exact ih.cons_cons m
    | refused m => exact ih.cons m
    | received _ | nothing | listed _ | cleared _ => exact ih

/-- Each message that is offered comes in once at most. -/
theorem Queue.count_offer_le (q : Queue) (ms : List Message) (m : Message) :
    (q.offer ms).2.messages.count m ≤ q.messages.count m + ms.count m := by
  have hcame := (QueueOutcome.entered_sublist (q.offer ms).1).count_le m
  rw [q.offered_offer] at hcame
  rw [q.messages_offer, List.count_append]
  exact Nat.add_le_add_left hcame _

/-- No more messages are refused than were offered. -/
theorem QueueOutcome.countP_isRefused_le (os : List QueueOutcome) :
    os.countP isRefused ≤ (os.filterMap offered?).length := by
  induction os with
  | nil => exact Nat.le_refl 0
  | cons o rest ih =>
    rw [List.countP_cons]
    cases o with
    | refused m => exact Nat.succ_le_succ ih
    | accepted m => exact Nat.le_succ_of_le ih
    | received _ | nothing | listed _ | cleared _ => exact ih

/-- If none is refused, all that was offered has come in. -/
theorem QueueOutcome.entered_eq_offered {os : List QueueOutcome} (h : os.countP isRefused = 0) :
    os.flatMap entered = os.filterMap offered? := by
  induction os with
  | nil => rfl
  | cons o rest ih =>
    rw [List.countP_cons] at h
    rw [List.flatMap_cons, ih (Nat.eq_zero_of_add_eq_zero_right h)]
    cases o with
    | refused m => cases h
    | accepted _ | received _ | nothing | listed _ | cleared _ => rfl

/-! ## Offering messages through an outbox

An outbox keeps its queue together with the journal. `Outbox.Offers` says of the way from one to
another that messages were offered, of both at once: the queue is the one before with them sent to
it, and the outcomes in the journal are those that this has. It is closed under composition, so a
change is followed through its parts, each of which offers none or one. -/

namespace Outbox

/-- All that came of the queue so far, as the journal has it. -/
def outcomes (o : Outbox) : List QueueOutcome := o.journal.reverse.filterMap Event.outcome?

theorem outcomes_note {e : Event} (he : e.outcome? = none) (o : Outbox) :
    (o.note e).outcomes = o.outcomes := by
  show (e :: o.journal).reverse.filterMap Event.outcome? = _
  rw [List.reverse_cons, List.filterMap_append, List.filterMap_cons_none he]
  exact List.append_nil _

/-- What is received is taken from the queue, whatever the journal says of it. -/
theorem queue_receive (o : Outbox) : o.receive.2.queue = o.queue.receive.2 := by
  unfold receive
  obtain ⟨_ | _, queue⟩ := o.queue.receive <;> rfl

/-- **From the one outbox to the other,** these messages were offered to the queue, in this order,
and nothing else was done to it. -/
structure Offers (o : Outbox) (ms : List Message) (o' : Outbox) : Prop where
  queue : o'.queue = (o.queue.offer ms).2
  told : o'.outcomes = o.outcomes ++ (o.queue.offer ms).1

/-- To send a message is to offer it. -/
theorem offers_post (o : Outbox) (m : Message) : o.Offers [m] (o.post m) := by
  refine ⟨o.queue_post m, ?_⟩
  rw [Queue.offer_singleton]
  unfold Outbox.post Outbox.send Outbox.outcomes
  obtain ⟨_ | _, queue⟩ := o.queue.send m <;> simp [Event.outcome?]

namespace Offers
variable {o o' : Outbox} {ms : List Message}

theorem refl (o : Outbox) : o.Offers [] o := ⟨rfl, (List.append_nil _).symm⟩

theorem note {e : Event} (h : o.Offers ms o') (he : e.outcome? = none) : o.Offers ms (o'.note e) :=
  ⟨h.queue, (outcomes_note he o').trans h.told⟩

theorem noteAll {events : List Event} (h : o.Offers ms o') (he : ∀ e ∈ events, e.IsNote) :
    o.Offers ms (o'.noteAll events) := by
  unfold Outbox.noteAll
  induction events generalizing o' with
  | nil => exact h
  | cons e rest ih =>
    have hfirst := h.note (he e List.mem_cons_self).outcome
    exact ih hfirst fun x hx => he x (List.mem_cons_of_mem e hx)

theorem trans {o'' : Outbox} {ns : List Message} (h : o.Offers ms o') (h' : o'.Offers ns o'') :
    o.Offers (ms ++ ns) o'' := by
  refine ⟨?_, ?_⟩
  · rw [h'.queue, h.queue, Queue.offer_append]
  · rw [h'.told, h.told, h.queue, Queue.offer_append, List.append_assoc]

/-- One more message is offered. -/
theorem post (h : o.Offers ms o') (m : Message) : o.Offers (ms ++ [m]) (o'.post m) :=
  h.trans (o'.offers_post m)

end Offers
end Outbox

/-! ## What there is to say

The table. `Change.ahead` and `Change.behind` read the state that the change finds; the news is of
the status that it leaves. For readers that care about status and faults only, the table is shorter
still (`Change.filterMap_posts`): polls and indications drop out, and a fault is told by the change
that takes it down. -/

/-- The message that tells of a change of the status, if there is one. -/
def Status.news (old new : Status) : List Message := if new = old then [] else [.status new]

/-- The status that a gateway begins with. -/
def Status.fresh : Status := Status.withFlags {} Status.configured

theorem Status.news_self (s : Status) : s.news s = [] := if_pos rfl

/-- A change of the status is told. -/
theorem Outbox.Offers.update {o o' : Outbox} {ms : List Message} (h : o.Offers ms o')
    (old new : Status) :
    o.Offers (ms ++ old.news new) ((Link.mk old o').update new).2.outbox := by
  unfold Link.update Status.news
  split
  · rw [List.append_nil]
    exact h
  · exact (h.note (e := .statusChanged new) rfl).post (.status new)

namespace Gateway
variable (g : Gateway)

/-- Whether a poll is due at the next tick. -/
def pollDue : Bool :=
  hasElapsed (g.ticks + 1) g.lastPoll (g.settings.ticks g.settings.pollInterval)

/-- The poll that the next tick sends: none if none is due or one is queued still. -/
def duePoll : List Message :=
  if g.pollDue = true ∧ .poll ∉ g.queue.messages then [.poll] else []

end Gateway

/-- What a change has to say before the status can change. -/
def Change.ahead (g : Gateway) : Change → List Message
  | .advance => g.duePoll
  | _ => []

/-- What it has to say once the status has changed. -/
def Change.behind (g : Gateway) : Change → List Message
  | .avail => if g.mask.avail then [.avail] else []
  | .sync => if g.mask.sync then [.sync] else []
  | .fault f => [.error f]
  | .writeParam slot param bits data =>
    match g.writeParam slot param bits data with
    | .error _ => []
    | .ok _ => [.paramWrite slot param]
  | _ => []

/-- **The messages that a change offers to the queue.** -/
def Change.posts (g : Gateway) (c : Change) : List Message :=
  c.ahead g ++ g.status.news (g.apply c).status ++ c.behind g

/-- The faults that a change takes down. -/
def Change.faults : Change → List Fault
  | .fault f => [f]
  | _ => []

/-- **Whoever reads only what is told of status and faults** gets from a change the news of the
status and the fault that it takes down. -/
theorem Change.filterMap_posts {α : Type} {read : Message → Option α} (hpoll : read .poll = none)
    (havail : read .avail = none) (hsync : read .sync = none)
    (hwrite : ∀ slot param, read (.paramWrite slot param) = none) (g : Gateway) (c : Change) :
    (c.posts g).filterMap read =
      (g.status.news (g.apply c).status).filterMap read ++
        c.faults.filterMap fun f => read (.error f) := by
  have hahead : (c.ahead g).filterMap read = [] := by
    cases c with
    | advance =>
      unfold ahead Gateway.duePoll
      dsimp only
      split
      · exact List.filterMap_cons_none hpoll
      · rfl
    | _ => rfl
  have hbehind : (c.behind g).filterMap read = c.faults.filterMap fun f => read (.error f) := by
    cases c with
    | avail =>
      unfold behind
      dsimp only
      split
      · exact List.filterMap_cons_none havail
      · rfl
    | sync =>
      unfold behind
      dsimp only
      split
      · exact List.filterMap_cons_none hsync
      · rfl
    | writeParam slot param bits data =>
      unfold behind
      dsimp only
      split
      · rfl
      · exact List.filterMap_cons_none (hwrite slot param)
    | _ => rfl
  -- the news in the middle is what is left to be read
  unfold posts
  rw [List.filterMap_append, List.filterMap_append, hahead, hbehind, List.nil_append]

/-! ### Outboxes change with the status

Setting and clearing flags are the two ways for a status to change, so all news are offered by one
of these. -/

/-- Flags that are set are told of, if the status changes. -/
theorem Outbox.Offers.setFlags {o : Outbox} {ms : List Message} {g : Gateway}
    (h : o.Offers ms g.link.outbox) (flags : UInt32) :
    o.Offers (ms ++ g.status.news (g.setFlags flags).status) (g.setFlags flags).link.outbox := by
  rw [Gateway.status_setFlags]
  exact h.update _ _

/-- So are flags that are cleared. -/
theorem Outbox.Offers.clearFlags {o : Outbox} {ms : List Message} {g : Gateway}
    (h : o.Offers ms g.link.outbox) (flags : UInt32) :
    o.Offers (ms ++ g.status.news (g.clearFlags flags).status)
      (g.clearFlags flags).link.outbox := by
  rw [Gateway.status_clearFlags]
  exact h.update _ _

/-! ## Each change says it

One law for each part of a change, in the order in which the parts are used, and then the changes
themselves. Those that may be refused are looked at together: refused they leave the gateway, and
otherwise they keep the status, but for a device that is taken. -/

/-- A parameter that is written is told. -/
theorem ParamStore.offers_of_write {s s' : ParamStore} {d : Device} {slot param : UInt16}
    {bits : Nat} {data : Bytes} {o o' : Outbox}
    (h : s.write d slot param bits data o = .ok (s', o')) :
    o.Offers [.paramWrite slot param] o' := by
  unfold ParamStore.write at h
  split at h
  · cases h
  · split at h
    · cases h
    · cases h
      exact ((Outbox.Offers.refl o).note rfl).post (.paramWrite slot param)

namespace Gateway
variable (g : Gateway)

/-- From the one gateway to the other, these messages were offered. -/
def Offers (ms : List Message) (g' : Gateway) : Prop := g.link.outbox.Offers ms g'.link.outbox

theorem offers_refl : g.Offers [] g := Outbox.Offers.refl _

theorem status_hear : g.hear.status = g.status.withFlags Status.connected := by
  unfold hear
  dsimp only
  -- notes do not touch the status
  split <;> split <;> exact status_setFlags ..

theorem offers_hear : g.Offers (g.status.news g.hear.status) g.hear := by
  have hheard : g.link.outbox.Offers [] (g.link.outbox.note .heard) :=
    (Outbox.Offers.refl _).note rfl
  rw [status_hear]
  unfold hear
  dsimp only
  -- recoveries are noted where there are any
  split <;> split
  · exact ((hheard.note (e := .hostRecovered) rfl).note (e := .transportRecovered) rfl).update _ _
  · exact (hheard.note (e := .hostRecovered) rfl).update _ _
  · exact (hheard.note (e := .transportRecovered) rfl).update _ _
  · exact hheard.update _ _

theorem offers_avail :
    g.Offers (g.status.news g.avail.status ++ if g.mask.avail then [.avail] else []) g.avail := by
  have hhear := g.offers_hear
  have hmask : g.hear.mask = g.mask := (congrArg mask g.hear_eq :)
  unfold avail
  dsimp only
  rw [hmask]
  split
  · exact hhear.post .avail
  · rw [List.append_nil]
    exact hhear

theorem offers_sync :
    g.Offers (g.status.news g.sync.status ++ if g.mask.sync then [.sync] else []) g.sync := by
  have hhear := g.offers_hear
  have hmask : g.hear.mask = g.mask := (congrArg mask g.hear_eq :)
  unfold sync
  dsimp only
  rw [hmask]
  split
  · exact hhear.post .sync
  · rw [List.append_nil]
    exact hhear

/-- A tick sends the poll first, if there is one to send. -/
theorem offers_ticked : g.Offers g.duePoll g.ticked := by
  have hticked : g.link.outbox.Offers [] (g.link.outbox.note .ticked) :=
    (Outbox.Offers.refl _).note rfl
  unfold duePoll ticked pollIfDue
  show g.Offers _ (if g.pollDue = true then if .poll ∈ g.queue.messages then _ else _ else _)
  by_cases hdue : g.pollDue = true
  · by_cases hqueued : .poll ∈ g.queue.messages
    · rw [if_neg (fun h => h.2 hqueued), if_pos hdue, if_pos hqueued]
      exact hticked
    · rw [if_pos ⟨hdue, hqueued⟩, if_pos hdue, if_neg hqueued]
      exact hticked.post .poll
  · rw [if_neg (fun h => hdue h.1), if_neg hdue]
    exact hticked

theorem offers_checkWatchdog :
    g.Offers (g.status.news g.checkWatchdog.2.status) g.checkWatchdog.2 := by
  have hquiet : g.Offers (g.status.news g.status) g := by
    rw [Status.news_self]
    exact g.offers_refl
  unfold checkWatchdog
  split
  · dsimp only
    split
    · have hnoted : g.Offers [] ({ g with watchdog := (g.watchdog.check g.ticks).2 }.note
          (.hostSilent (g.watchdog.check g.ticks).2.timeout)) := g.offers_refl.note rfl
      exact hnoted.clearFlags _
    · exact hquiet
  · exact hquiet

theorem Offers.trans {ms ns : List Message} {g g' g'' : Gateway} (h : g.Offers ms g')
    (h' : g'.Offers ns g'') : g.Offers (ms ++ ns) g'' := Outbox.Offers.trans h h'

theorem offers_advance :
    g.Offers (g.duePoll ++ g.status.news g.advance.2.status) g.advance.2 := by
  have hcheck := g.ticked.offers_checkWatchdog
  rw [g.ticked_keeps.2.2.1] at hcheck
  exact g.offers_ticked.trans hcheck

theorem offers_loseContact :
    g.Offers (g.status.news g.loseContact.2.status) g.loseContact.2 := by
  have hclear := g.offers_refl.clearFlags Status.connectionDependent
  unfold loseContact
  dsimp only
  split
  · exact hclear.note rfl
  · exact hclear

theorem offers_failTransport (f : Fault) :
    g.Offers (g.status.news (g.failTransport f).status) (g.failTransport f) := by
  have hnoted : g.Offers [] ({ g with transportFailed := true }.note (.serviceFailed f)) :=
    g.offers_refl.note rfl
  exact hnoted.clearFlags _

theorem offers_restartWatchdog : g.Offers [] g.restartWatchdog := g.offers_refl.note rfl

theorem offers_raiseFlags (flags : UInt32) :
    g.Offers (g.status.news (g.raiseFlags flags).status) (g.raiseFlags flags) := by
  unfold raiseFlags
  dsimp only
  split
  · exact g.offers_restartWatchdog.setFlags flags
  · exact g.offers_refl.setFlags flags

theorem offers_enableWatchdog (on : Bool) :
    g.Offers (g.status.news (g.enableWatchdog on).status) (g.enableWatchdog on) := by
  cases on with
  | false => exact g.offers_refl.clearFlags Status.watchdog
  | true => exact g.offers_restartWatchdog.setFlags Status.watchdog

theorem offers_install (k : Configuration) :
    g.Offers (g.status.news (g.install k).status) (g.install k) := by
  have hmade : ∀ e ∈ k.device.layoutEvents ++ [.reconfigured k.device], e.IsNote :=
    Event.note_of_mem_layoutEvents_append ⟨rfl, rfl, rfl⟩
  have hnoted : g.Offers [] { g.noteAll (k.device.layoutEvents ++ [.reconfigured k.device]) with
      config := k } := g.offers_refl.noteAll hmade
  exact hnoted.setFlags Status.configured

theorem offers_takeWrite : g.Offers [] g.takeWrite.2 ∧ g.takeWrite.2.status = g.status := by
  unfold takeWrite
  generalize g.config.params.takeWrite = result
  obtain ⟨_ | w, params⟩ := result
  · exact ⟨g.offers_refl, rfl⟩
  · exact ⟨g.offers_refl.note rfl, rfl⟩

variable {g}

/-! ### Changes that configure

Most of them have nothing to say, a write of a parameter announces itself, and a device that is
taken sets a flag. -/

/-- What keeps the status has nothing to say of it. -/
theorem Offers.keeping {g' : Gateway} (h : g.Offers [] g') (hstatus : g'.status = g.status) :
    g.Offers (g.status.news g'.status) g' := by
  rw [hstatus, Status.news_self]
  exact h

/-- What a change that configures has to say, unless it is refused. -/
theorem offers_of_configures {c : Change} {g' : Gateway} (hc : c.configures = true)
    (h : g.attempt c = .ok g') : g.Offers (g.status.news g'.status ++ c.behind g) g' := by
  have hkept : ∀ {g' : Gateway}, g.Offers [] g' → g'.status = g.status →
      g.Offers (g.status.news g'.status ++ []) g' := by
    intro g' hg' hstatus
    rw [List.append_nil]
    exact hg'.keeping hstatus
  have hrefl := Outbox.Offers.refl g.link.outbox
  cases c with
  | install d =>
    replace h : g.installDevice d = .ok g' := h
    unfold installDevice at h
    split at h
    · cases h
    · next k _ =>
      cases h
      rw [show (Change.install d).behind g = [] from rfl, List.append_nil]
      exact g.offers_install k
  -- none of these touches the status: they leave notes, or nothing at all
  | addAlarm _ _ | removeAlarm _ _ =>
    simp only [attempt, addAlarm, removeAlarm] at h
    split at h
    · cases h
    · cases h
      exact hkept (hrefl.note rfl) rfl
  | writeParam slot param bits data =>
    replace h : g.writeParam slot param bits data = .ok g' := h
    show g.Offers (_ ++ match g.writeParam slot param bits data with
      | .error _ => []
      | .ok _ => [.paramWrite slot param]) g'
    rw [h]
    unfold writeParam at h
    split at h
    · cases h
    · next params out hwrite =>
      cases h
      show g.Offers (g.status.news g.status ++ [.paramWrite slot param]) _
      rw [Status.news_self]
      exact ParamStore.offers_of_write hwrite
  | takeWrite =>
    replace h : g.takeWrite.2 = g' := Except.ok.inj h
    obtain ⟨hrest, hstatus⟩ := g.offers_takeWrite
    rw [← h]
    exact hkept hrest hstatus
  | setSignal _ _ _ | setValue _ _ _ _ | setSlotStatus _ _ | unpackOutputs _ =>
    simp only [attempt, setSignal, setValue, setSlotStatus, unpackOutputs] at h
    split at h
    · cases h
    · cases h
      exact hkept hrefl rfl
  | _ => cases hc

/-- **A change offers what it has to say,** unless it takes a message. -/
theorem offers_apply (g : Gateway) {c : Change} (h : c ≠ .receive) :
    g.Offers (c.posts g) (g.apply c) := by
  have hkept : ∀ {g' : Gateway}, g.Offers [] g' → g'.status = g.status →
      g.Offers ([] ++ g.status.news g'.status ++ []) g' := by
    intro g' hg' hstatus
    rw [List.append_nil]
    exact hg'.keeping hstatus
  have hnews : ∀ {g' : Gateway}, g.Offers (g.status.news g'.status) g' →
      g.Offers ([] ++ g.status.news g'.status ++ []) g' := by
    intro g' hg'
    rw [List.append_nil]
    exact hg'
  have hrefl := g.offers_refl
  -- what configures may be refused, and if not it has its law; the others go one by one
  cases hc : c.configures with
  | true =>
    have hahead : c.ahead g = [] := by
      cases c <;> first | rfl | cases hc
    unfold Change.posts
    rw [hahead]
    cases hg' : g.attempt c with
    | error e =>
      -- a write that is refused announces nothing
      have hbehind : c.behind g = [] := by
        cases c with
        | writeParam slot param bits data =>
          show (match g.writeParam slot param bits data with
            | .error _ => []
            | .ok _ => [Message.paramWrite slot param]) = []
          rw [show g.writeParam slot param bits data = .error e from hg']
        | _ => first | rfl | cases hc
      rw [apply_of_error hg', hbehind]
      exact hkept hrefl rfl
    | ok g' =>
      rw [apply_of_ok hg']
      exact offers_of_configures hc hg'
  | false =>
    cases c with
    | advance =>
      -- the poll comes ahead of the news
      show g.Offers (g.duePoll ++ g.status.news g.advance.2.status ++ []) g.advance.2
      rw [List.append_nil]
      exact g.offers_advance
    | avail => exact g.offers_avail
    | sync => exact g.offers_sync
    | hear => exact hnews g.offers_hear
    | loseContact => exact hnews g.offers_loseContact
    | failTransport f => exact hnews (g.offers_failTransport f)
    | raiseFlags flags => exact hnews (g.offers_raiseFlags flags)
    | enableWatchdog on => exact hnews (g.offers_enableWatchdog on)
    | clearFlags flags => exact hnews (hrefl.clearFlags flags)
    | fault f =>
      show g.Offers ([] ++ g.status.news g.status ++ [.error f]) (g.fault f)
      rw [Status.news_self]
      exact (hrefl.post (.error f)).note rfl
    | remark r => exact hkept (hrefl.note r.silent_event.1) rfl
    | countCrc | setTransport _ | selectCycle _ => exact hkept (hrefl.note rfl) rfl
    | signalWork | lookForRing | lieDown | getUp | takeInterrupt => exact hkept hrefl rfl
    | receive => exact absurd rfl h
    | _ => cases hc

/-! ## All that was ever offered

With the journal as it is since the gateway was made, what was offered is a list that only grows. It
begins with what a gateway says when it is made: that it is configured, and that its watchdog is on
if it is made with one. -/

/-- Everything that was ever offered to the queue, in order. -/
def offered (g : Gateway) : List Message := g.outcomes.filterMap QueueOutcome.offered?

theorem Offers.offered {ms : List Message} {g' : Gateway} (h : g.Offers ms g') :
    g'.offered = g.offered ++ ms := by
  have htold : g'.outcomes = g.outcomes ++ (g.queue.offer ms).1 := h.told
  unfold Gateway.offered
  rw [htold, List.filterMap_append, Queue.offered_offer]

/-- To take a message is to offer none. -/
theorem offered_receive (g : Gateway) : (g.apply .receive).offered = g.offered := by
  have htells : g.link.outbox.Tells _ (g.apply .receive).link.outbox :=
    g.link.outbox.tells_receive
  unfold Gateway.offered
  rw [outcomes_of_tells htells, List.filterMap_append]
  cases g.link.outbox.queue.messages <;> exact List.append_nil _

/-- **All that was offered grows by what each change has to say.** -/
theorem offered_apply (g : Gateway) (c : Change) :
    (g.apply c).offered = g.offered ++ c.posts g := by
  by_cases hreceive : c = .receive
  · subst hreceive
    have hposts : Change.receive.posts g = [] := by
      show [] ++ g.status.news g.status ++ [] = []
      rw [Status.news_self]
      rfl
    rw [offered_receive, hposts, List.append_nil]
  · exact (g.offers_apply hreceive).offered

/-- **The queue after a change** is the one before with its messages offered to it. -/
theorem queue_apply (g : Gateway) {c : Change} (h : c ≠ .receive) :
    (g.apply c).queue = (g.queue.offer (c.posts g)).2 := (g.offers_apply h).queue

/-- A gateway is made with an empty queue, and the first things it says are of its status. -/
theorem offers_of_make {s : Settings} {d : Device} {g : Gateway} (h : make s d = .ok g) :
    (Outbox.empty queueCapacity).Offers
      (Status.news {} Status.fresh ++ Status.fresh.news g.status) g.link.outbox := by
  have hmade : ∀ e ∈ d.layoutEvents ++ [.started d], e.IsNote :=
    Event.note_of_mem_layoutEvents_append ⟨rfl, rfl, rfl⟩
  obtain ⟨noted, hnoted, hzero, rfl⟩ : ∃ noted : Gateway,
      (Outbox.empty queueCapacity).Offers [] noted.link.outbox ∧ noted.status = {} ∧
      g = if s.watchdog then (noted.setFlags Status.configured).setFlags Status.watchdog
        else noted.setFlags Status.configured := by
    unfold make at h
    split at h
    · cases h
    · exact ⟨_, (Outbox.Offers.refl _).noteAll hmade, rfl, (Except.ok.inj h).symm⟩
  have hfresh : (noted.setFlags Status.configured).status = Status.fresh := by
    rw [status_setFlags, hzero]
    rfl
  have hfirst := hnoted.setFlags Status.configured
  rw [hzero, hfresh] at hfirst
  split
  · -- the watchdog is on from the start
    have hsecond := hfirst.setFlags Status.watchdog
    rw [hfresh] at hsecond
    exact hsecond
  · rw [hfresh, Status.news_self, List.append_nil]
    exact hfirst

theorem offered_of_make {s : Settings} {d : Device} {g : Gateway} (h : make s d = .ok g) :
    g.offered = .status Status.fresh :: Status.fresh.news g.status := by
  have htold : g.outcomes = _ := (offers_of_make h).told
  unfold offered
  rw [htold]
  show List.filterMap QueueOutcome.offered? (Queue.offer _ _).1 = _
  rw [Queue.offered_offer]
  rfl

end Gateway
end Fieldbus
