import Fieldbus.Proofs.Conduct
import Fieldbus.Proofs.Telling
/-!
The turn of the worker: what it does for the host, and in which order.

Adapter and application may call back while the worker has its turn. As long as they take no
messages and give the worker no other turn, all that they do is aside (`Conduct.aside`). Set apart
from it, what a turn does is read off the messages that are queued when it begins (`turnTrace`),
however many others come up on the way. The law is by induction on those messages
(`World.does_dispatch`): what is aside may put others behind them, but never takes one.

The turn goes through as many messages as are queued when it starts to hand them out. That is a
number, not a list, and what is queued changes while it counts down; so it has to be shown that the
messages it meets are the ones that were there. The invariant is that the queue is what is left of
those, followed by what was accepted since.

Whether the transport is served with a poll depends on whether it was served before in the same
turn, which goes through the induction as a flag. And there are two accounts of a turn to be kept
apart: all that was noted during it (`before` and `during` in `Turn`), and the part of this that is
the work of the host. The first says which messages were accepted on the way, and so which are left;
the second says what was done and in which order.
-/

namespace Fieldbus

/-! ## What is done for the host

An event is aside if anybody may bring it about at any time, and the work of the host is what is
left when those are filtered out (`workIn`). Taking messages, telling the application and serving
the transport are in it. `Gateway.Does` says that this was done on the way from one gateway to
another, and composes. -/

/-- The messages that were accepted with these events. -/
def acceptedIn (events : List Event) : List Message :=
  (events.filterMap Event.outcome?).flatMap QueueOutcome.entered

/-- The messages that were taken with these events. -/
def takenIn (events : List Event) : List Message :=
  (events.filterMap Event.outcome?).flatMap QueueOutcome.left

/-- The events of the work of the host, among others. -/
def workIn (events : List Event) : List Event := events.filter fun e => !e.isAside

theorem takenIn_append (es es' : List Event) : takenIn (es ++ es') = takenIn es ++ takenIn es' := by
  unfold takenIn
  rw [List.filterMap_append, List.flatMap_append]

theorem workIn_append (es es' : List Event) : workIn (es ++ es') = workIn es ++ workIn es' :=
  List.filter_append es es'

/-- Messages are taken as part of the work of the host only. -/
theorem takenIn_workIn (events : List Event) : takenIn (workIn events) = takenIn events := by
  induction events with
  | nil => rfl
  | cons e rest ih =>
    have hcons : takenIn (e :: rest) = takenIn [e] ++ takenIn rest := takenIn_append [e] rest
    cases haside : e.isAside with
    | true =>
      have hnone : takenIn [e] = [] := by
        refine Event.flatMap_left_of_isAside fun x hx => ?_
        rw [List.mem_singleton.1 hx]
        exact haside
      have hskip : workIn (e :: rest) = workIn rest :=
        List.filter_cons_of_neg (by rw [haside]; exact Bool.false_ne_true)
      rw [hskip, hcons, hnone, ih]
      rfl
    | false =>
      have hkeep : workIn (e :: rest) = e :: workIn rest :=
        List.filter_cons_of_pos (by rw [haside]; rfl)
      rw [hkeep, hcons, ← ih]
      exact takenIn_append [e] (workIn rest)

namespace Event

/-- Whether the transport is served. -/
def isService : Event → Bool
  | .asked .service => true
  | _ => false

/-- What the application is told. -/
def indication? : Event → Option Indication
  | .indicated i => some i
  | _ => none

end Event

theorem countP_isService_workIn (events : List Event) :
    (workIn events).countP Event.isService = events.countP Event.isService := by
  unfold workIn
  rw [List.countP_filter]
  refine List.countP_congr fun e _ => ?_
  unfold Event.isService
  split <;> simp [Event.isAside]

theorem filterMap_indication?_workIn (events : List Event) :
    (workIn events).filterMap Event.indication? = events.filterMap Event.indication? := by
  unfold workIn
  rw [List.filterMap_filter]
  congr 1
  funext e
  cases e with
  | indicated i => rfl
  | _ => exact ite_self none

namespace Outbox

/-- What is queued and what is accepted is taken, or still queued. -/
theorem Tells.messages_eq {o o' : Outbox} {events : List Event} (h : o.Tells events o') :
    o.queue.messages ++ acceptedIn events = takenIn events ++ o'.queue.messages :=
  h.delivers.order

end Outbox

namespace Gateway

/-- From the one gateway to the other, this was done for the host. All else was aside. -/
def Does (g : Gateway) (trace : List Event) (g' : Gateway) : Prop :=
  ∃ events, g.link.outbox.Tells events g'.link.outbox ∧ workIn events = trace

variable {g g' g'' : Gateway}

theorem Does.trans {trace trace' : List Event} (h : g.Does trace g') (h' : g'.Does trace' g'') :
    g.Does (trace ++ trace') g'' := by
  obtain ⟨events, htells, rfl⟩ := h
  obtain ⟨events', htells', rfl⟩ := h'
  exact ⟨events ++ events', htells.trans htells', workIn_append events events'⟩

/-- What is aside does nothing for the host. -/
theorem Murmurs.does {contacts : List Contact} (h : g.Murmurs contacts g') : g.Does [] g' := by
  obtain ⟨events, htells, haside, -⟩ := h
  refine ⟨events, htells, List.filter_eq_nil_iff.2 fun e he => ?_⟩
  rw [haside e he]
  exact Bool.false_ne_true

/-- What is noted of the work of the host is done for it. -/
theorem does_note {e : Event} (houtcome : e.outcome? = none) (haside : e.isAside = false)
    (g : Gateway) : g.Does [e] (g.note e) := by
  have hwork : workIn [e] = [e] := List.filter_cons_of_pos (by rw [haside]; rfl)
  exact ⟨[e], Outbox.tells_note houtcome _, hwork⟩

/-- Where no message is taken, others may only come up behind those that are queued. -/
theorem Does.exists_messages {trace : List Event} (h : g.Does trace g') (htrace : takenIn trace = []) :
    ∃ more, g'.queue.messages = g.queue.messages ++ more := by
  obtain ⟨events, htells, rfl⟩ := h
  rw [takenIn_workIn] at htrace
  refine ⟨acceptedIn events, ?_⟩
  have hmessages := htells.messages_eq
  rw [htrace] at hmessages
  exact hmessages.symm

end Gateway

/-! ## The conduct of those who call back

What a modest operation does by itself is aside, so modest peers keep aside however deeply their
calls are nested; by the law of conducts that needs to be seen of single operations only
(`Op.Modest.aside`). -/

/-- The conduct of leaving the work of the host to the worker. -/
def Conduct.aside : Conduct := .only fun c => c.isAside = true

/-- Whether an operation neither takes messages nor gives the worker a turn. -/
def Op.Modest : Op → Prop
  | .receive | .work | .workUnheard => False
  | _ => True

theorem Conduct.aside_allows_singleton {c : Change} (h : c.isAside = true) : aside.Allows [c] :=
  only_allows_singleton h

/-- A report is aside. -/
theorem Reports.aside {f : Fault} {cs : List Change} (h : Reports f cs) : Conduct.aside.Allows cs := by
  rcases h with rfl | rfl <;> exact Conduct.aside_allows_singleton rfl

/-- **All that a modest operation does by itself is aside.** -/
theorem Op.Modest.aside {op : Op} (h : op.Modest) {cs : List Change} (hcs : op.Makes cs) :
    Conduct.aside.Allows cs := by
  cases op with
  | receive | work | workUnheard => exact h.elim
  | reconfigure d =>
    rcases hcs with rfl | ⟨e, rfl⟩ | hcs
    · exact Conduct.aside_allows_singleton rfl
    · exact Conduct.aside_allows_singleton rfl
    · exact hcs.aside
  | tick | disconnect =>
    rcases hcs with rfl | hcs
    · exact Conduct.aside_allows_singleton rfl
    · exact hcs.aside
  | report f => exact Reports.aside hcs
  | addAlarm slot a | removeAlarm slot a =>
    rcases hcs with rfl | rfl <;> exact Conduct.aside_allows_singleton rfl
  | writeInputs =>
    obtain ⟨frame, rfl⟩ := hcs
    exact Conduct.aside_allows_singleton rfl
  | readOutputs =>
    rcases hcs with ⟨size, rfl⟩ | ⟨frame, rfl⟩ <;> exact Conduct.aside_allows_singleton rfl
  | _ =>
    cases hcs
    exact Conduct.aside_allows_singleton rfl

namespace Gateway

/-- Changes that are aside are heard of aside only. -/
theorem murmurs_after (g : Gateway) {cs : List Change} (hcs : ∀ c ∈ cs, c.isAside = true) :
    g.Murmurs (cs.flatMap Change.contacts) (g.after cs) := by
  induction cs generalizing g with
  | nil => exact Outbox.Murmurs.refl _
  | cons c rest ih =>
    have hhead := g.murmurs_apply (hcs c List.mem_cons_self)
    have hrest := ih (g.apply c) fun d hd => hcs d (List.mem_cons_of_mem c hd)
    exact Outbox.Murmurs.trans hhead hrest

/-- Whoever keeps aside does nothing for the host. -/
theorem LeadsBy.does_nil {g g' : Gateway} (h : g.LeadsBy .aside g') : g.Does [] g' := by
  obtain ⟨cs, hcs, rfl⟩ := h
  exact Murmurs.does (g.murmurs_after hcs)

/-! ## The mark of work

The mark is set by one change and cleared by one, and no other touches it. So over any sequence that
does not take it, it is set at the end exactly if it was at first or was signalled in between. -/

/-- **The mark of work** is set by a signal, and cleared by who takes it only. -/
theorem interrupt_apply (g : Gateway) {c : Change} (hc : c ≠ .takeInterrupt) :
    (g.apply c).interrupt = true ↔ g.interrupt = true ∨ c = .signalWork := by
  cases hrouses : c.rouses with
  | false =>
    have hkept : (g.apply c).interrupt = g.interrupt := congrArg Prod.fst (g.rousing_apply hrouses)
    have hother : c ≠ .signalWork := by
      rintro rfl
      cases hrouses
    rw [hkept, or_iff_left hother]
  | true =>
    cases c with
    | takeInterrupt => exact absurd rfl hc
    | signalWork => exact iff_of_true rfl (Or.inr rfl)
    | lookForRing | lieDown | getUp => exact (or_iff_left nofun).symm
    | _ => cases hrouses

/-- Where the mark is not taken, it is set at the end if it was before or was signalled since. -/
theorem interrupt_after (g : Gateway) {cs : List Change} (hcs : ∀ c ∈ cs, c ≠ .takeInterrupt) :
    (g.after cs).interrupt = true ↔ g.interrupt = true ∨ .signalWork ∈ cs := by
  induction cs generalizing g with
  | nil => exact (or_iff_left List.not_mem_nil).symm
  | cons c rest ih =>
    have hrest := ih (g.apply c) fun d hd => hcs d (List.mem_cons_of_mem c hd)
    show ((g.apply c).after rest).interrupt = true ↔ _
    rw [hrest, g.interrupt_apply (hcs c List.mem_cons_self), List.mem_cons, or_assoc,
      eq_comm (a := c)]

end Gateway

/-! ## The turn

`turnTrace` is the turn as a program on lists, with the two things that it depends on: the messages,
and whether the transport was served already. To hand out one message is to take it, to serve the
transport if it is the first poll, and to tell the application; the lemma for one message is the
step of the induction, and what adapter and application do in the course of it is aside. -/

/-! ### The trace of a turn

What is said of the trace is said of lists: which messages it takes, what it tells, and how often it
serves the transport. -/

/-- **What a turn does for the host** that hands out these messages: each is taken, and the
application told of it. Before the first poll is told, the transport is served, unless it was
served already. -/
def turnTrace : (served : Bool) → List Message → List Event
  | _, [] => []
  | served, m :: rest =>
    .taken m :: (if m = .poll ∧ served = false then [.asked .service] else []) ++
      .indicated m.indication :: turnTrace (served || m == .poll) rest

theorem turnTrace_cons (served : Bool) (m : Message) (rest : List Message) :
    turnTrace served (m :: rest) =
      .taken m :: (if m = .poll ∧ served = false then [.asked .service] else []) ++
        .indicated m.indication :: turnTrace (served || m == .poll) rest := rfl

theorem takenIn_turnTrace (served : Bool) (messages : List Message) :
    takenIn (turnTrace served messages) = messages := by
  induction messages generalizing served with
  | nil => rfl
  | cons m rest ih =>
    have hrest := ih (served || m == .poll)
    rw [turnTrace_cons]
    split
    · exact congrArg (m :: ·) hrest
    · exact congrArg (m :: ·) hrest

theorem indications_turnTrace (served : Bool) (messages : List Message) :
    (turnTrace served messages).filterMap Event.indication? = messages.map Message.indication := by
  induction messages generalizing served with
  | nil => rfl
  | cons m rest ih =>
    have hrest := ih (served || m == .poll)
    rw [turnTrace_cons]
    split
    · exact congrArg (m.indication :: ·) hrest
    · exact congrArg (m.indication :: ·) hrest

/-- The transport is served once if there is a poll, and it was not served before. -/
theorem services_turnTrace (served : Bool) (messages : List Message) :
    (turnTrace served messages).countP Event.isService =
      if .poll ∈ messages ∧ served = false then 1 else 0 := by
  induction messages generalizing served with
  | nil => rfl
  | cons m rest ih =>
    have hcons : (turnTrace served (m :: rest)).countP Event.isService =
        (if m = .poll ∧ served = false then 1 else 0) +
          if .poll ∈ rest ∧ (served || m == .poll) = false then 1 else 0 := by
      rw [turnTrace_cons, List.countP_append, ← ih]
      congr 1
      split <;> rfl
    rw [hcons]
    -- a poll has the transport served, and then none of the others does
    by_cases hm : m = .poll
    · subst hm
      cases served <;> simp
    · simp [hm, Ne.symm hm]

/-! ### The world of a turn

From lists to worlds: each part of the turn does what the trace says, and whatever adapter and
application do meanwhile is aside. -/

/-- Receiving gives the oldest message, and leaves the others. -/
theorem Gateway.receive_cons {g : Gateway} {m : Message} {rest : List Message}
    (hg : g.queue.messages = m :: rest) :
    g.receive.1 = some m ∧ g.receive.2.queue.messages = rest := by
  have hreceive : g.link.outbox.queue.receive = (some m, { g.queue with messages := rest }) := by
    rw [Queue.receive_eq]
    show (g.queue.messages.head?, { g.queue with messages := g.queue.messages.tail }) = _
    rw [hg]
    rfl
  unfold Gateway.receive Outbox.receive
  rw [hreceive]
  exact ⟨rfl, rfl⟩

section Turns
variable {σ : Type} {h : Handler σ}

namespace World

/-- The world as a turn finds the messages in it: the mark of work is taken, and where there was
one, the transport is served. -/
def beginTurn (w : World σ) (h : Handler σ) : World σ :=
  if w.gateway.interrupt then (w.change (·.takeInterrupt.2)).serve h
  else w.change (·.takeInterrupt.2)

/-- Where no work is marked, the messages are found as they are. -/
theorem beginTurn_of_idle (w : World σ) (h : Handler σ) (hw : w.gateway.interrupt = false) :
    w.beginTurn h = w := by
  rw [beginTurn, if_neg (by rw [hw]; exact Bool.false_ne_true)]
  unfold change
  dsimp only
  rw [Gateway.takeInterrupt_of_idle hw]

theorem does_ask_service (hh : h.FairBy .aside) (w : World σ) :
    w.gateway.Does [.asked .service] (w.ask h .service).2.gateway := by
  have hanswer := (hh.ask .service (w.change (·.note (.asked .service)))).does_nil
  exact (Gateway.does_note rfl rfl w.gateway).trans hanswer

/-- Serving the transport is no more than that, whatever comes of it. -/
theorem does_serve (hh : h.FairBy .aside) (w : World σ) :
    w.gateway.Does [.asked .service] (w.serve h).gateway := by
  have hask := does_ask_service hh w
  rcases w.serve_cases h with ⟨-, hserve⟩ | ⟨f, -, hserve⟩
  · rw [hserve]
    exact hask
  · rw [hserve]
    generalize (w.ask h .service).2 = w' at hask
    have hfail : w'.gateway.Does [] (w'.change (·.failTransport f)).gateway :=
      Gateway.Murmurs.does (w'.gateway.murmurs_failTransport f)
    have hreport : (w'.change (·.failTransport f)).gateway.Does []
        ((w'.change (·.failTransport f)).report h f).gateway :=
      (leadsBy_report hh (fun cs hcs => hcs.aside) _).does_nil
    exact hask.trans (hfail.trans hreport)

theorem does_tell (hh : h.FairBy .aside) (i : Indication) (w : World σ) :
    w.gateway.Does [.indicated i] (w.tell h i).gateway := by
  have hheard := (hh.tell i (w.change (·.note (.indicated i)))).does_nil
  exact (Gateway.does_note rfl rfl w.gateway).trans hheard

/-- One message is handed out. -/
theorem dispatch_cons (h : Handler σ) (count : Nat) (served : Bool) {w : World σ} {m : Message}
    {rest : List Message} (hw : w.gateway.queue.messages = m :: rest) :
    dispatch h (count + 1) served w =
      let w' := w.change (·.receive.2)
      dispatch h count (served || m == .poll)
        ((if m = .poll ∧ served = false then w'.serve h else w').tell h m.indication) := by
  have hanswer : w.answer (·.receive) = (some m, w.change (·.receive.2)) :=
    Prod.ext (Gateway.receive_cons hw).1 rfl
  rw [dispatch, hanswer]
  cases m with
  | poll => cases served <;> rfl
  | _ =>
    dsimp only
    rw [if_neg fun hpoll => Message.noConfusion hpoll.1]
    cases served <;> rfl

/-- **Messages are handed out in order,** those that are queued at first and no others. -/
theorem does_dispatch (hh : h.FairBy .aside) (messages later : List Message) (served : Bool)
    (w : World σ) (hw : w.gateway.queue.messages = messages ++ later) :
    w.gateway.Does (turnTrace served messages)
      (dispatch h messages.length served w).gateway := by
  induction messages generalizing later served w with
  | nil => exact Gateway.Murmurs.does (Outbox.Murmurs.refl _)
  | cons m rest ih =>
    rw [List.length_cons, dispatch_cons h rest.length served hw]
    dsimp only
    have htake : w.gateway.Does [.taken m] (w.change (·.receive.2)).gateway := by
      refine ⟨[.taken m], ?_, rfl⟩
      have htells := w.gateway.link.outbox.tells_receive
      rw [show w.gateway.link.outbox.queue.messages = m :: (rest ++ later) from hw] at htells
      exact htells
    have hleft : (w.change (·.receive.2)).gateway.queue.messages = rest ++ later :=
      (Gateway.receive_cons hw).2
    generalize w.change (·.receive.2) = w' at htake hleft ⊢
    have hserve : w'.gateway.Does (if m = .poll ∧ served = false then [.asked .service] else [])
        (if m = .poll ∧ served = false then w'.serve h else w').gateway := by
      split
      · exact does_serve hh w'
      · exact Gateway.Murmurs.does (Outbox.Murmurs.refl _)
    generalize (if m = .poll ∧ served = false then w'.serve h else w') = w'' at hserve ⊢
    have htell := does_tell hh m.indication w''
    -- whoever was called may have put others behind those that are still to come
    have hmore : ∃ more, (w''.tell h m.indication).gateway.queue.messages = rest ++ (later ++ more) := by
      obtain ⟨more, hw''⟩ := hserve.exists_messages (by split <;> rfl)
      obtain ⟨more', htold⟩ := htell.exists_messages rfl
      refine ⟨more ++ more', ?_⟩
      rw [htold, hw'', hleft, List.append_assoc, List.append_assoc]
    obtain ⟨more, htold⟩ := hmore
    have hrest := ih (later ++ more) (served || m == .poll) _ htold
    rw [turnTrace_cons, List.cons_append]
    exact htake.trans (hserve.trans (htell.trans hrest))

theorem does_beginTurn (hh : h.FairBy .aside) (w : World σ) :
    w.gateway.Does (if w.gateway.interrupt then [.asked .service] else [])
      (w.beginTurn h).gateway := by
  have htake : w.gateway.Does [] (w.change (·.takeInterrupt.2)).gateway :=
    Gateway.Murmurs.does (Outbox.Murmurs.refl _)
  unfold beginTurn
  split
  · exact htake.trans (does_serve hh _)
  · exact htake

end World

/-! ## The mark of work during a turn

A signal that comes while the worker has its turn is not for this turn, which has taken the mark at
its beginning. It has to be seen that the mark is still there at the end. It is a matter of conduct
again: once taken, nothing in the turn takes the mark, neither the worker nor modest peers
(`Conduct.marking`), so from any point on it stays as set. -/

/-- The conduct of leaving the mark of work where it is. -/
def Conduct.marking : Conduct := .only fun c => c ≠ .takeInterrupt

theorem Conduct.marking_of_aside {cs : List Change} (h : aside.Allows cs) : marking.Allows cs := by
  intro c hc hmark
  have haside := h c hc
  rw [hmark] at haside
  cases haside

theorem HandsOut.marking {cs : List Change} (h : HandsOut cs) : Conduct.marking.Allows cs := by
  intro c hc hmark
  subst hmark
  rcases h with (rfl | ⟨f, rfl | rfl⟩) | rfl | ⟨i, rfl⟩ <;> simp at hc

/-- With a conduct that leaves the mark, it stays where it is set. -/
theorem Gateway.LeadsBy.interrupt {g g' : Gateway} (h : g.LeadsBy .marking g')
    (hg : g.interrupt = true) : g'.interrupt = true := by
  obtain ⟨cs, hcs, rfl⟩ := h
  exact (g.interrupt_after hcs).2 (Or.inl hg)

/-- **Work that is signalled in a turn stays marked,** from any point of the turn on: through what
the script that is running has still to do, through the report of a fault, and through what is
handed out after that. -/
structure StaysMarked (env : Environment σ) (depth : Nat) (w : World σ) : Prop where
  script : ∀ {α : Type} (rest : Script σ α) (inner : Nat), rest.CallsOnly Op.Modest →
    (rest.run (env.perform inner) w).2.gateway.interrupt = true
  report : ∀ f, (w.report (env.peers depth) f).gateway.interrupt = true
  dispatch : ∀ count served,
    (World.dispatch (env.peers depth) count served w).gateway.interrupt = true

variable {env : Environment σ}

/-- All that modest peers do is aside. -/
theorem Environment.fairBy_aside (henv : env.CallsOnly Op.Modest) (depth : Nat) :
    (env.peers depth).FairBy .aside :=
  Environment.fairBy_peers (fun _ hop _ hcs => hop.aside hcs) henv depth

/-- Nor do modest peers touch the mark of work. -/
theorem Environment.fairBy_marking (henv : env.CallsOnly Op.Modest) (depth : Nat) :
    (env.peers depth).FairBy .marking :=
  (Environment.fairBy_aside henv depth).mono fun _ => Conduct.marking_of_aside

theorem staysMarked (henv : env.CallsOnly Op.Modest) (depth : Nat) {w : World σ}
    (hw : w.gateway.interrupt = true) : StaysMarked env depth w := by
  have hpeers := Environment.fairBy_marking henv depth
  have hmodest : ∀ op : Op, op.Modest → ∀ cs, op.Makes cs → Conduct.marking.Allows cs := by
    intro op hop cs hcs
    exact Conduct.marking_of_aside (hop.aside hcs)
  refine ⟨fun rest inner hrest => ?_, fun f => ?_, fun count served => ?_⟩
  · have hperform : ∀ op : Op, op.Modest → ∀ v : World σ,
        v.gateway.LeadsBy .marking (env.perform inner op v).2.gateway := by
      intro op hop v
      exact Environment.leadsBy_perform hmodest henv inner op hop v
    exact (Script.leadsBy_run hperform hrest w).interrupt hw
  · have hreport : ∀ cs, Reports f cs → Conduct.marking.Allows cs := by
      intro cs hcs
      exact Conduct.marking_of_aside hcs.aside
    exact (World.leadsBy_report hpeers hreport w).interrupt hw
  · exact (World.leadsBy_dispatch hpeers (fun _ hcs => hcs.marking) count served w).interrupt hw

/-- A turn takes the mark first. From there on it keeps a conduct that handing out keeps. -/
theorem World.leadsBy_turn {k : Conduct} (hh : h.FairBy k) (hk : ∀ cs, HandsOut cs → k.Allows cs)
    (w : World σ) : (w.change (·.takeInterrupt.2)).gateway.LeadsBy k (w.work h).2.gateway := by
  have hbegin : (w.change (·.takeInterrupt.2)).gateway.LeadsBy k (w.beginTurn h).gateway := by
    unfold World.beginTurn
    split
    · exact World.leadsBy_serve hh (fun _ hcs => hk _ (Or.inl hcs)) _
    · exact Gateway.LeadsBy.refl _ _
  exact hbegin.trans (World.leadsBy_dispatch hh hk _ _ _)

/-- Once the mark is taken, the turn leaves it where it is. -/
theorem World.leadsBy_marking_turn (henv : env.CallsOnly Op.Modest) (depth : Nat) (w : World σ) :
    (w.change (·.takeInterrupt.2)).gateway.LeadsBy .marking
      (env.perform depth .work w).2.gateway := by
  rw [env.perform_eq]
  exact World.leadsBy_turn (Environment.fairBy_marking henv depth) (fun _ hcs => hcs.marking) w

/-! ## The law of the turn

`Turn` states all of it for a world before the turn, the world in which messages begin to be handed
out, and the world after. The event lists of the two halves are given by existence, but what they
have of the work of the host is given outright. -/

/-- **A turn of the worker,** with what happens before the messages are handed out and while they
are. -/
structure Turn (env : Environment σ) (depth : Nat) (w w' w'' : World σ)
    (before during : List Event) : Prop where
  /-- Where no work is marked, messages are handed out at once, -/
  idle : w.gateway.interrupt = false → w' = w
  /-- and otherwise once the mark was taken and the transport was served. -/
  begins : w.gateway.link.outbox.Tells before w'.gateway.link.outbox
  serves : workIn before = if w.gateway.interrupt then [.asked .service] else []
  /-- The messages that are queued then are handed out, one after another, -/
  goesOn : w'.gateway.link.outbox.Tells during w''.gateway.link.outbox
  works : workIn during = turnTrace w.gateway.interrupt w'.gateway.queue.messages
  /-- so the application is told each of them once, in order, and nothing else; -/
  tells : during.filterMap Event.indication? = w'.gateway.queue.messages.map Message.indication
  takes : takenIn during = w'.gateway.queue.messages
  /-- and those are left, in order, that were accepted on the way. -/
  leaves : w''.gateway.queue.messages = acceptedIn during
  /-- The transport is served once if work was marked or there is a poll, and never twice. -/
  servesOnce : (before ++ during).countP Event.isService =
    if w.gateway.interrupt = true ∨ .poll ∈ w'.gateway.queue.messages then 1 else 0
  /-- The mark is taken at first and then left, so in the end it is set if work was signalled in the
  meantime. -/
  marks : ∃ cs, (∀ c ∈ cs, c ≠ .takeInterrupt) ∧
    (w.change (·.takeInterrupt.2)).gateway.after cs = w''.gateway ∧
    (w''.gateway.interrupt = true ↔ .signalWork ∈ cs) ∧
    ∀ as bs, cs = as ++ bs →
      (((w.change (·.takeInterrupt.2)).gateway.after as).signalWork.after bs).interrupt = true
  keeps : ∀ v : World σ, v.gateway.interrupt = true → StaysMarked env depth v

/-- **The turn of the worker** among peers that neither take messages nor give it another turn,
whatever else they do with the gateway. -/
theorem worker_turn_in_order (henv : env.CallsOnly Op.Modest) (depth : Nat) (w : World σ) :
    (∃ before during, Turn env depth w (w.beginTurn (env.peers depth)) (env.perform depth .work w).2
      before during) ∧
    (env.perform depth .work w).1 = !(env.perform depth .work w).2.gateway.transportFailed := by
  refine ⟨?_, by rw [env.perform_eq]; rfl⟩
  have hpeers := Environment.fairBy_aside henv depth
  obtain ⟨before, hbegins, hserves⟩ := World.does_beginTurn hpeers w
  have hturn := World.does_dispatch hpeers (w.beginTurn (env.peers depth)).gateway.queue.messages []
    w.gateway.interrupt (w.beginTurn (env.peers depth)) (List.append_nil _).symm
  obtain ⟨during, hgoesOn, hworks⟩ := hturn
  -- what is taken is part of the work of the host, which is known
  have htakes : takenIn during = (w.beginTurn (env.peers depth)).gateway.queue.messages := by
    rw [← takenIn_workIn, hworks, takenIn_turnTrace]
  have hends : (w.beginTurn (env.peers depth)).gateway.link.outbox.Tells during
      (env.perform depth .work w).2.gateway.link.outbox := by
    rw [env.perform_eq]
    exact hgoesOn
  refine ⟨before, during, w.beginTurn_of_idle _, hbegins, hserves, hends, hworks, ?_, htakes, ?_,
    ?_, ?_, fun v hv => staysMarked henv depth hv⟩
  · rw [← filterMap_indication?_workIn, hworks, indications_turnTrace]
  · -- what was queued and accepted was taken or is left, and the first part of it was taken
    have hmessages := hends.messages_eq
    rw [htakes] at hmessages
    exact (List.append_cancel_left hmessages).symm
  · have hbefore : before.countP Event.isService = if w.gateway.interrupt then 1 else 0 := by
      rw [← countP_isService_workIn, hserves]
      split <;> rfl
    have hduring := services_turnTrace w.gateway.interrupt
      (w.beginTurn (env.peers depth)).gateway.queue.messages
    rw [← hworks, countP_isService_workIn] at hduring
    rw [List.countP_append, hbefore, hduring]
    -- marked work is served before, and then no poll is
    cases w.gateway.interrupt <;> simp
  · obtain ⟨cs, hcs, hafter⟩ := World.leadsBy_marking_turn henv depth w
    refine ⟨cs, hcs, hafter, ?_, fun as bs hsplit => ?_⟩
    · rw [← hafter, Gateway.interrupt_after _ hcs]
      exact or_iff_right Bool.false_ne_true
    · -- the mark is set by the signal, and nobody takes it after that
      have hbs : ∀ c ∈ bs, c ≠ .takeInterrupt := by
        intro c hc
        exact hcs c (hsplit ▸ List.mem_append_right as hc)
      exact (Gateway.interrupt_after _ hbs).2 (Or.inl rfl)

end Turns

/-- Peers with their hands full: the transport cannot be served, and with every poll the application
exchanges with the controller and finds more work. -/
def busyPeers : Environment Unit where
  adapter
    | .service => .call .avail fun _ => .done (.error .transport)
    | r => .done r.idle
  application
    | .poll => .call .sync fun _ => .call .signalWork fun _ => .done ()
    | _ => .done ()

/-- The first tick calls for a poll, in cycles that the host is to hear of. -/
def polledRun : Run := Run.bare.andThen [.selectCycle .synchronous, .advance]

/-- The status at the start and the poll are handed out, and what comes up with them is left. -/
theorem turn_of_busyPeers :
    busyPeers.CallsOnly Op.Modest ∧
      ∃ w' w'' : World Unit, ∃ before during,
        Turn busyPeers 1 ⟨polledRun.state, ()⟩ w' w'' before during ∧
        during.filterMap Event.indication? = [.status ⟨1⟩, .poll] ∧
        (before ++ during).countP Event.isService = 1 ∧
        w''.gateway.interrupt = true ∧
        w''.gateway.queue.messages =
          [.status ⟨3⟩, .avail, .status ⟨1⟩, .error .transport, .status ⟨3⟩, .sync] := by
  have hmodest : busyPeers.CallsOnly Op.Modest := by
    refine ⟨fun r => ?_, fun i => ?_⟩
    · cases r with
      | service => exact ⟨trivial, fun _ => trivial⟩
      | _ => trivial
    · cases i with
      | poll => exact ⟨trivial, fun _ => ⟨trivial, fun _ => trivial⟩⟩
      | _ => trivial
  obtain ⟨⟨before, during, hturn⟩, -⟩ := worker_turn_in_order hmodest 1 ⟨polledRun.state, ()⟩
  refine ⟨hmodest, _, _, before, during, hturn, hturn.tells, hturn.servesOnce, ?_, ?_⟩
  · decide +kernel
  · decide +kernel

end Fieldbus
