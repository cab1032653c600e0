import Fieldbus.Proofs.Effect
import Fieldbus.Proofs.QueueRun
/-!
What each change tells.

A gateway queues messages in many places and takes them in one. What ties it to the law of queues is
its journal, which tells of just what the queue did (`Outbox.Tells`): every change of a gateway
goes on with it (`Gateway.exists_tells`).

Most changes are aside from the work of the host (`Change.isAside`): all that is heard of them is
noted and sent (`Outbox.Murmurs`). Of these the journal also keeps what there is to say of the
contact with the host: that it was heard, that the transport failed, that a fault was reported.

An event of the journal is of use to several readers, and each has a view of its own: what it says
of the queue (`Event.outcome?`), what it says of the contact (`Event.contact?`), and whether it is
part of the work of the host (`Event.isAside`). This module fixes the views and says of each change
what they see. The laws of delivery, of the turn of the worker and of the contact are about these
views, and none of them looks into a change again.

A change is made of smaller ones that note, send and update the status, so the laws come in two
layers. An outbox murmurs or tells across each of these, and both relations compose. A gateway does
what its outbox does, since nothing but the outbox has a journal.
-/

namespace Fieldbus

/-! ## What an event says

Most events are notes (`Event.IsNote`), about which all views agree that there is nothing. Those
that making the layouts of a device brings with it are many, and are notes one and all, so they can
be passed over at once. -/

/-- What there is to say of the contact with the host. -/
inductive Contact where
  /-- A valid exchange took place. -/
  | heard
  /-- Serving the transport failed. -/
  | failed (f : Fault)
  | reported (f : Fault)
deriving DecidableEq, Repr

namespace Event

/-- What an event says of the queue. -/
def outcome? : Event → Option QueueOutcome
  | .queued m => some (.accepted m)
  | .dropped m _ => some (.refused m)
  | .taken m => some (.received m)
  | _ => none

/-- Whether an event is aside from the work of the host: no message is taken, the transport is not
served, and the application is told nothing. -/
def isAside : Event → Bool
  | .taken _ | .asked .service | .indicated _ => false
  | _ => true

/-- What an event says of the contact. -/
def contact? : Event → Option Contact
  | .heard => some .heard
  | .serviceFailed f => some (.failed f)
  | .faultReported f => some (.reported f)
  | _ => none

/-- Whether an event is no more than a note: it is aside, and says nothing of queue or contact. -/
structure IsNote (e : Event) : Prop where
  outcome : e.outcome? = none
  aside : e.isAside = true
  contact : e.contact? = none

theorem note_of_mem_placementEvents {d : Device} {dir : Direction} {e : Event}
    (h : e ∈ d.placementEvents dir) : e.IsNote := by
  obtain ⟨slot, -, hslot⟩ := List.mem_flatMap.1 h
  obtain ⟨s, -, hs⟩ := List.mem_filterMap.1 hslot
  split at hs
  · cases hs
  · cases hs
    exact ⟨rfl, rfl, rfl⟩

theorem note_of_mem_layoutEvents {d : Device} {e : Event} (h : e ∈ d.layoutEvents) :
    e.IsNote := by
  unfold Device.layoutEvents at h
  rcases List.mem_append.1 h with h | h
  · rcases List.mem_append.1 h with h | h
    · exact note_of_mem_placementEvents h
    · exact note_of_mem_placementEvents h
  · rw [List.mem_singleton.1 h]
    exact ⟨rfl, rfl, rfl⟩

/-- Making the layouts of a device is noted, and one thing more. -/
theorem note_of_mem_layoutEvents_append {d : Device} {last : Event} (hlast : last.IsNote) :
    ∀ e ∈ d.layoutEvents ++ [last], e.IsNote := by
  intro e he
  rcases List.mem_append.1 he with he | he
  · exact note_of_mem_layoutEvents he
  · rw [List.mem_singleton.1 he]
    exact hlast

/-- Nothing leaves a queue aside. -/
theorem flatMap_left_of_isAside {events : List Event} (h : ∀ e ∈ events, e.isAside = true) :
    (events.filterMap outcome?).flatMap QueueOutcome.left = [] := by
  rw [List.flatMap_eq_nil_iff]
  intro o ho
  obtain ⟨e, he, houtcome⟩ := List.mem_filterMap.1 ho
  have haside := h e he
  cases e with
  | queued m =>
    cases houtcome
    rfl
  | dropped m total =>
    cases houtcome
    rfl
  | taken m => cases haside
  | _ => cases houtcome

end Event

/-- No remark is about queue or contact. -/
theorem Remark.silent_event (r : Remark) :
    r.event.outcome? = none ∧ r.event.contact? = none := by
  cases r <;> exact ⟨rfl, rfl⟩

/-! ## The journal tells what the queue did

`Outbox.Tells` relates two outboxes by the events between them: the journal has them in front, and
the queue passed on what they say. The capacity of the queue is kept as well, so from an empty
outbox on the journal is all there is to know (`Outbox.Tells.journal_eq`). -/

namespace Outbox

/-- **From the one outbox to the other,** these events were journalled, and the queue did what they
say and no more. -/
structure Tells (o : Outbox) (events : List Event) (o' : Outbox) : Prop where
  journal : o'.journal = events.reverse ++ o.journal
  queue : ∃ steps, o.queue.run steps = (events.filterMap Event.outcome?, o'.queue)

theorem tells_nil (o : Outbox) : o.Tells [] o := ⟨rfl, [], rfl⟩

theorem Tells.trans {o o' o'' : Outbox} {es es' : List Event} (h : o.Tells es o')
    (h' : o'.Tells es' o'') : o.Tells (es ++ es') o'' := by
  obtain ⟨steps, hsteps⟩ := h.queue
  obtain ⟨steps', hsteps'⟩ := h'.queue
  refine ⟨?_, steps ++ steps', ?_⟩
  · rw [h'.journal, h.journal, List.reverse_append, List.append_assoc]
  · rw [Queue.run_append, hsteps, hsteps', List.filterMap_append]

/-- From an empty outbox on, the journal has what was told and no more. -/
theorem Tells.journal_eq {o : Outbox} {capacity : Nat} {events : List Event}
    (h : (empty capacity).Tells events o) : o.journal = events.reverse := by
  rw [← List.append_nil events.reverse]
  exact h.journal

theorem tells_note {e : Event} (h : e.outcome? = none) (o : Outbox) : o.Tells [e] (o.note e) := by
  refine ⟨rfl, [], ?_⟩
  rw [List.filterMap_cons_none h]
  rfl

/-- Sending tells of what became of the message. -/
theorem exists_tells_post (o : Outbox) (m : Message) :
    ∃ e : Event, e.isAside = true ∧ e.contact? = none ∧ o.Tells [e] (o.post m) := by
  have hstep : o.queue.run [.send m] =
      ([if (o.queue.send m).1 then .accepted m else .refused m], (o.queue.send m).2) := rfl
  unfold post send
  generalize o.queue.send m = result at hstep
  obtain ⟨_ | _, queue⟩ := result
  · exact ⟨.dropped m queue.dropped, rfl, rfl, rfl, [.send m], hstep⟩
  · exact ⟨.queued m, rfl, rfl, rfl, [.send m], hstep⟩

/-- Receiving tells of the message, if there is one. -/
theorem tells_receive (o : Outbox) :
    o.Tells (o.queue.messages.head?.toList.map .taken) o.receive.2 := by
  have hreceive := o.queue.receive_eq
  unfold receive
  rw [hreceive]
  cases hmessages : o.queue.messages with
  | nil =>
    have hsame : { o.queue with messages := [] } = o.queue := by
      rw [← hmessages]
    refine ⟨rfl, [], ?_⟩
    show ([], o.queue) = ([], { o.queue with messages := [] })
    rw [hsame]
  | cons m rest =>
    rw [hmessages] at hreceive
    refine ⟨rfl, [.receive], ?_⟩
    unfold Queue.run Queue.step
    rw [hreceive]
    rfl

/-- What is told of was passed on by the queue. -/
theorem Tells.delivers {o o' : Outbox} {events : List Event} (h : o.Tells events o') :
    o.queue.Delivers (events.filterMap Event.outcome?) o'.queue := by
  obtain ⟨steps, hsteps⟩ := h.queue
  have hrun := o.queue.delivers_run steps
  rw [hsteps] at hrun
  exact hrun

/-! ## What happens aside

`Outbox.Murmurs` hides the events and keeps what they say of the contact. It is weaker than telling,
but it is what can be said of a change without listing all that the change notes; and that no
message is taken by it is enough for the laws of the turn. -/

/-- From the one outbox to the other, something was noted and sent, and that is all. With it, this was
said of the contact. -/
def Murmurs (o : Outbox) (contacts : List Contact) (o' : Outbox) : Prop :=
  ∃ events, o.Tells events o' ∧ (∀ e ∈ events, e.isAside = true) ∧
    events.filterMap Event.contact? = contacts

namespace Murmurs
variable {o o' o'' : Outbox} {contacts contacts' : List Contact}

theorem refl (o : Outbox) : o.Murmurs [] o :=
  ⟨[], o.tells_nil, fun _ he => absurd he List.not_mem_nil, rfl⟩

theorem trans (h : o.Murmurs contacts o') (h' : o'.Murmurs contacts' o'') :
    o.Murmurs (contacts ++ contacts') o'' := by
  obtain ⟨es, hes, haside, rfl⟩ := h
  obtain ⟨es', hes', haside', rfl⟩ := h'
  refine ⟨es ++ es', hes.trans hes', fun e he => ?_, List.filterMap_append⟩
  rcases List.mem_append.1 he with he | he
  · exact haside e he
  · exact haside' e he

/-- Something is told on top. -/
theorem tell {e : Event} (h : o.Murmurs contacts o') (htells : o'.Tells [e] o'')
    (haside : e.isAside = true) : o.Murmurs (contacts ++ e.contact?.toList) o'' := by
  refine h.trans ⟨[e], htells, fun x hx => ?_, ?_⟩
  · rw [List.mem_singleton.1 hx]
    exact haside
  · cases hcontact : e.contact? with
    | none => exact List.filterMap_cons_none hcontact
    | some c => exact List.filterMap_cons_some hcontact

/-- Something is said of the contact. -/
theorem say {e : Event} {c : Contact} (h : o.Murmurs contacts o') (he : e.outcome? = none)
    (haside : e.isAside = true) (hc : e.contact? = some c) :
    o.Murmurs (contacts ++ [c]) (o'.note e) := by
  have htell := h.tell (tells_note he o') haside
  rw [hc] at htell
  exact htell

theorem note {e : Event} (h : o.Murmurs contacts o') (he : e.IsNote) :
    o.Murmurs contacts (o'.note e) := by
  have htell := h.tell (tells_note he.outcome o') he.aside
  rw [he.contact] at htell
  exact (List.append_nil contacts) ▸ htell

theorem noteAll {events : List Event} (h : o.Murmurs contacts o') (he : ∀ e ∈ events, e.IsNote) :
    o.Murmurs contacts (o'.noteAll events) := by
  unfold Outbox.noteAll
  induction events generalizing o' with
  | nil => exact h
  | cons e rest ih =>
    exact ih (h.note (he e List.mem_cons_self)) fun x hx => he x (List.mem_cons_of_mem e hx)

theorem post (h : o.Murmurs contacts o') (m : Message) : o.Murmurs contacts (o'.post m) := by
  obtain ⟨e, haside, hcontact, htells⟩ := o'.exists_tells_post m
  have htell := h.tell htells haside
  rw [hcontact] at htell
  exact (List.append_nil contacts) ▸ htell

/-- A change of the status is noted and sent. -/
theorem update {l : Link} (h : o.Murmurs contacts l.outbox) (new : Status) :
    o.Murmurs contacts (l.update new).2.outbox := by
  unfold Link.update
  split
  · exact h
  · exact (h.note ⟨rfl, rfl, rfl⟩).post (.status new)

end Murmurs
end Outbox

/-! ## What each change tells

One law for each operation of a gateway that a change stands for. The two that are not aside are
treated by themselves: to receive a message tells of the message, and to take the mark of work notes
nothing at all. Every change tells what the queue did, whichever it is (`Gateway.exists_tells`). -/

/-- Whether a change is aside from the work of the host: it neither takes a message or the mark of
work, nor is it a remark that the transport is served or the application told something. -/
def Change.isAside : Change → Bool
  | .receive | .takeInterrupt | .remark (.asked .service) | .remark (.indicated _) => false
  | _ => true

/-- What is said of the contact with a change. -/
def Change.contacts : Change → List Contact
  | .avail | .sync | .hear => [.heard]
  | .failTransport f => [.failed f]
  | .fault f => [.reported f]
  | _ => []

/-- Nothing is said twice with a change. -/
theorem Change.reverse_contacts (c : Change) : c.contacts.reverse = c.contacts := by
  cases c <;> rfl

/-- A parameter that is written is noted and sent. -/
theorem ParamStore.murmurs_of_write {s s' : ParamStore} {d : Device} {slot param : UInt16}
    {bits : Nat} {data : Bytes} {o o' : Outbox}
    (h : s.write d slot param bits data o = .ok (s', o')) : o.Murmurs [] o' := by
  unfold ParamStore.write at h
  split at h
  · cases h
  · split at h
    · cases h
    · cases h
      exact ((Outbox.Murmurs.refl o).note ⟨rfl, rfl, rfl⟩).post (.paramWrite slot param)

namespace Gateway
variable (g : Gateway)

/-- From the one gateway to the other, something was noted and sent, with this said of the contact. -/
def Murmurs (contacts : List Contact) (g' : Gateway) : Prop :=
  g.link.outbox.Murmurs contacts g'.link.outbox

theorem murmurs_hear : g.Murmurs [.heard] g.hear := by
  have hheard : g.link.outbox.Murmurs [.heard] (g.link.outbox.note .heard) :=
    (Outbox.Murmurs.refl _).say rfl rfl rfl
  unfold hear
  dsimp only
  -- recoveries are noted where there are any
  split <;> split
  · exact ((hheard.note (e := .hostRecovered) ⟨rfl, rfl, rfl⟩).note
      (e := .transportRecovered) ⟨rfl, rfl, rfl⟩).update _
  · exact (hheard.note (e := .hostRecovered) ⟨rfl, rfl, rfl⟩).update _
  · exact (hheard.note (e := .transportRecovered) ⟨rfl, rfl, rfl⟩).update _
  · exact hheard.update _

theorem murmurs_avail : g.Murmurs [.heard] g.avail := by
  have hhear := g.murmurs_hear
  unfold avail
  dsimp only
  split
  · exact hhear.post .avail
  · exact hhear

theorem murmurs_sync : g.Murmurs [.heard] g.sync := by
  have hhear := g.murmurs_hear
  unfold sync
  dsimp only
  split
  · exact hhear.post .sync
  · exact hhear

theorem murmurs_advance : g.Murmurs [] g.advance.2 := by
  have hticked : g.link.outbox.Murmurs [] (g.link.outbox.note .ticked) :=
    (Outbox.Murmurs.refl _).note ⟨rfl, rfl, rfl⟩
  have hpoll : g.Murmurs [] ({ g with ticks := g.ticks + 1 }.note .ticked).pollIfDue := by
    unfold pollIfDue
    split
    · dsimp only
      split
      · exact hticked
      · exact hticked.post .poll
    · exact hticked
  unfold advance
  generalize ({ g with ticks := g.ticks + 1 }.note .ticked).pollIfDue = g' at hpoll
  unfold checkWatchdog
  split
  · dsimp only
    split
    · exact (Outbox.Murmurs.note hpoll ⟨rfl, rfl, rfl⟩).update _
    · exact hpoll
  · exact hpoll

theorem murmurs_loseContact : g.Murmurs [] g.loseContact.2 := by
  have hclear : g.link.outbox.Murmurs [] (g.link.clear Status.connectionDependent).2.outbox :=
    (Outbox.Murmurs.refl _).update _
  unfold loseContact
  dsimp only
  split
  · exact hclear.note ⟨rfl, rfl, rfl⟩
  · exact hclear

theorem murmurs_failTransport (f : Fault) : g.Murmurs [.failed f] (g.failTransport f) :=
  ((Outbox.Murmurs.refl _).say (e := .serviceFailed f) rfl rfl rfl).update _

theorem murmurs_fault (f : Fault) : g.Murmurs [.reported f] (g.fault f) :=
  ((Outbox.Murmurs.refl _).post (.error f)).say (e := .faultReported f) rfl rfl rfl

theorem murmurs_restartWatchdog : g.Murmurs [] g.restartWatchdog :=
  (Outbox.Murmurs.refl _).note (e := .watchdogStarted) ⟨rfl, rfl, rfl⟩

theorem murmurs_raiseFlags (flags : UInt32) : g.Murmurs [] (g.raiseFlags flags) := by
  unfold raiseFlags
  dsimp only
  split
  · exact g.murmurs_restartWatchdog.update _
  · exact (Outbox.Murmurs.refl _).update _

theorem murmurs_enableWatchdog (on : Bool) : g.Murmurs [] (g.enableWatchdog on) := by
  cases on with
  | false => exact (Outbox.Murmurs.refl _).update _
  | true => exact g.murmurs_restartWatchdog.update _

theorem murmurs_install (c : Configuration) : g.Murmurs [] (g.install c) := by
  have hmade : ∀ e ∈ c.device.layoutEvents ++ [.reconfigured c.device], e.IsNote :=
    Event.note_of_mem_layoutEvents_append ⟨rfl, rfl, rfl⟩
  exact ((Outbox.Murmurs.refl _).noteAll hmade).update _

theorem murmurs_takeWrite : g.Murmurs [] g.takeWrite.2 := by
  unfold takeWrite
  generalize g.config.params.takeWrite = result
  obtain ⟨_ | w, params⟩ := result
  · exact Outbox.Murmurs.refl _
  · exact (Outbox.Murmurs.refl _).note (e := .writeTaken w.slot w.param w.data) ⟨rfl, rfl, rfl⟩

variable {g}

/-! ### Everything that is aside

The laws of the parts are put together by one case split on the change. -/

/-- What parameters, alarms and process data are changed to is noted at most. -/
theorem murmurs_of_configures {c : Change} {g' : Gateway} (hc : c.configures = true)
    (h : g.attempt c = .ok g') : g.Murmurs [] g' := by
  have hrefl := Outbox.Murmurs.refl g.link.outbox
  cases c with
  | install d =>
    replace h : g.installDevice d = .ok g' := h
    unfold installDevice at h
    split at h
    · cases h
    · next k _ =>
      cases h
      exact g.murmurs_install k
  | addAlarm _ _ | removeAlarm _ _ =>
    simp only [attempt, addAlarm, removeAlarm] at h
    split at h
    · cases h
    · cases h
      exact hrefl.note ⟨rfl, rfl, rfl⟩
  | writeParam slot param bits data =>
    replace h : g.writeParam slot param bits data = .ok g' := h
    unfold writeParam at h
    split at h
    · cases h
    · next params out hwrite =>
      cases h
      exact ParamStore.murmurs_of_write hwrite
  | takeWrite =>
    replace h : g.takeWrite.2 = g' := Except.ok.inj h
    exact h ▸ g.murmurs_takeWrite
  | setSignal _ _ _ | setValue _ _ _ _ | setSlotStatus _ _ | unpackOutputs _ =>
    simp only [attempt, setSignal, setValue, setSlotStatus, unpackOutputs] at h
    split at h
    · cases h
    · cases h
      exact hrefl
  | _ => cases hc

/-- **What is aside is noted and sent,** and that is all that is heard of it. -/
theorem murmurs_apply (g : Gateway) {c : Change} (haside : c.isAside = true) :
    g.Murmurs c.contacts (g.apply c) := by
  have hrefl := Outbox.Murmurs.refl g.link.outbox
  cases hc : c.configures with
  | true =>
    have hnone : c.contacts = [] := by
      cases c <;> first | rfl | cases hc
    rw [hnone]
    cases h : g.attempt c with
    | error e =>
      rw [apply_of_error h]
      exact hrefl
    | ok g' =>
      rw [apply_of_ok h]
      exact murmurs_of_configures hc h
  | false =>
    cases c with
    -- of the remarks, service and indications are the work of the host
    | remark r =>
      cases r with
      | asked r =>
        cases r with
        | service => cases haside
        | _ => exact hrefl.note ⟨rfl, rfl, rfl⟩
      | indicated i => cases haside
      | _ => exact hrefl.note ⟨rfl, rfl, rfl⟩
    | advance => exact g.murmurs_advance
    | avail => exact g.murmurs_avail
    | sync => exact g.murmurs_sync
    | hear => exact g.murmurs_hear
    | loseContact => exact g.murmurs_loseContact
    | failTransport f => exact g.murmurs_failTransport f
    | fault f => exact g.murmurs_fault f
    | raiseFlags flags => exact g.murmurs_raiseFlags flags
    | enableWatchdog on => exact g.murmurs_enableWatchdog on
    | clearFlags flags => exact hrefl.update _
    | countCrc | setTransport _ | selectCycle _ => exact hrefl.note ⟨rfl, rfl, rfl⟩
    | signalWork | lookForRing | lieDown | getUp => exact hrefl
    | receive | takeInterrupt => cases haside
    | _ => cases hc

/-- What does not receive a message tells of none that is taken. -/
theorem exists_tells_of_ne_receive (g : Gateway) {c : Change} (h : c ≠ .receive) :
    ∃ events, g.link.outbox.Tells events (g.apply c).link.outbox ∧
      (events.filterMap Event.outcome?).flatMap QueueOutcome.left = [] := by
  cases haside : c.isAside with
  | true =>
    obtain ⟨events, htells, hevents, -⟩ := g.murmurs_apply haside
    exact ⟨events, htells, Event.flatMap_left_of_isAside hevents⟩
  | false =>
    cases c with
    | receive => exact absurd rfl h
    | takeInterrupt => exact ⟨[], g.link.outbox.tells_nil, rfl⟩
    | remark r =>
      refine ⟨[r.event], Outbox.tells_note r.silent_event.1 g.link.outbox, ?_⟩
      rw [List.filterMap_cons_none r.silent_event.1]
      rfl
    | _ => cases haside

/-- **Every change tells what the queue did.** -/
theorem exists_tells (g : Gateway) (c : Change) :
    ∃ events, g.link.outbox.Tells events (g.apply c).link.outbox := by
  by_cases hreceive : c = .receive
  · subst hreceive
    exact ⟨_, g.link.outbox.tells_receive⟩
  · obtain ⟨events, htells, -⟩ := g.exists_tells_of_ne_receive hreceive
    exact ⟨events, htells⟩

/-- Making a gateway is aside too, from an empty outbox. -/
theorem murmurs_make {s : Settings} {d : Device} {g : Gateway} (h : make s d = .ok g) :
    (Outbox.empty queueCapacity).Murmurs [] g.link.outbox := by
  have hmade : ∀ e ∈ d.layoutEvents ++ [.started d], e.IsNote :=
    Event.note_of_mem_layoutEvents_append ⟨rfl, rfl, rfl⟩
  have hnoted := (Outbox.Murmurs.refl (.empty queueCapacity)).noteAll hmade
  unfold make at h
  split at h
  · cases h
  · rw [Except.ok.injEq] at h
    subst h
    split
    · exact (hnoted.update _).update _
    · exact hnoted.update _

/-! ## What is said of the contact

Read off the journal, latest first. A change adds to it what `Change.contacts` says, once at most,
so what was said of the contact grows along a run by a list that is known from its changes alone. -/

/-- What the journal says of the contact, latest first. -/
def contacts (g : Gateway) : List Contact := g.journal.filterMap Event.contact?

theorem contacts_of_tells {g g' : Gateway} {events : List Event}
    (h : g.link.outbox.Tells events g'.link.outbox) :
    g'.contacts = (events.filterMap Event.contact?).reverse ++ g.contacts := by
  have hjournal : g'.journal = events.reverse ++ g.journal := h.journal
  unfold contacts
  rw [hjournal, List.filterMap_append, List.filterMap_reverse]

theorem contacts_of_make {s : Settings} {d : Device} {g : Gateway} (h : make s d = .ok g) :
    g.contacts = [] := by
  obtain ⟨events, htells, -, hcontacts⟩ := murmurs_make h
  have hjournal : g.journal = events.reverse := htells.journal_eq
  unfold contacts
  rw [hjournal, List.filterMap_reverse, hcontacts]
  rfl

/-- **A change says of the contact what there is to say,** once at most. -/
theorem contacts_apply (g : Gateway) (c : Change) : (g.apply c).contacts = c.contacts ++ g.contacts := by
  cases haside : c.isAside with
  | true =>
    obtain ⟨events, htells, -, hcontacts⟩ := g.murmurs_apply haside
    rw [contacts_of_tells htells, hcontacts, c.reverse_contacts]
  | false =>
    cases c with
    | receive =>
      have htells : g.link.outbox.Tells _ (g.apply .receive).link.outbox :=
        g.link.outbox.tells_receive
      rw [contacts_of_tells htells]
      cases g.link.outbox.queue.messages <;> rfl
    | takeInterrupt => rfl
    | remark r =>
      have htells : g.link.outbox.Tells [r.event] (g.apply (.remark r)).link.outbox :=
        Outbox.tells_note r.silent_event.1 g.link.outbox
      rw [contacts_of_tells htells, List.filterMap_cons_none r.silent_event.2]
      rfl
    | _ => cases haside

theorem contacts_after (g : Gateway) (cs : List Change) :
    (g.after cs).contacts = (cs.flatMap Change.contacts).reverse ++ g.contacts := by
  induction cs generalizing g with
  | nil => rfl
  | cons c rest ih =>
    show ((g.apply c).after rest).contacts = _
    rw [ih, contacts_apply, List.flatMap_cons, List.reverse_append, c.reverse_contacts,
      List.append_assoc]

end Gateway

end Fieldbus
