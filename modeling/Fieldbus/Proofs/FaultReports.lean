import Fieldbus.Proofs.Posting
import Fieldbus.Proofs.Watching
/-!
Host and adapter are told the same faults.

A fault is taken down by one change, which offers one message to the host, and before anybody else
has a turn the adapter is told. So in every session the faults that the adapter is told are those
that were offered to the host, and both are those for which there was cause, one report for each
(`Stretch.tellsAlike`). The fault that a gateway shows is the last one reported since the last valid
exchange, in the midst of calls too (`Run.lastFault_iff`).

Cause is meant of what can be seen from outside: a call that gives cause to report in the state it
finds, or an answer by which the transport failed. Each is followed by one report, and no report
comes without one. Faults of all kinds go one way, so there is nothing to tell them apart by.

Whether the message to the host found room is another matter. It was offered, and the law of queues
says what became of it.
-/

namespace Fieldbus

/-! ## The faults that the host is told

Of what a change has to say, one message at most tells of a fault, and only the change that takes
down a fault has one. -/

/-- The fault that a message tells, if it does. -/
def Message.fault? : Message → Option Fault
  | .error f => some f
  | _ => none

/-- **What a change has to say of faults** is the one that it takes down. -/
theorem Change.fault_posts (g : Gateway) (c : Change) :
    (c.posts g).filterMap Message.fault? = c.faults := by
  have hnews : (g.status.news (g.apply c).status).filterMap Message.fault? = [] := by
    unfold Status.news
    split <;> rfl
  have hfaults : c.faults.filterMap (fun f => (Message.error f).fault?) = c.faults :=
    List.filterMap_some
  rw [filterMap_posts rfl rfl rfl (fun _ _ => rfl), hnews, hfaults, List.nil_append]

namespace Gateway

/-- The faults that were offered to the queue, in order. -/
def offeredFaults (g : Gateway) : List Fault := g.offered.filterMap Message.fault?

theorem offeredFaults_apply (g : Gateway) (c : Change) :
    (g.apply c).offeredFaults = g.offeredFaults ++ c.faults := by
  unfold offeredFaults
  rw [offered_apply, List.filterMap_append, Change.fault_posts]

theorem offeredFaults_of_make {s : Settings} {d : Device} {g : Gateway} (h : make s d = .ok g) :
    g.offeredFaults = [] := by
  unfold offeredFaults
  rw [offered_of_make h]
  unfold Status.news
  split <;> rfl

end Gateway

/-! ## One report for each cause

The invariant of watched runs is that three lists are the same: the faults offered to the host,
those that the adapter was told, and those for which there was cause. A stretch adds one to each of
them or none to any. -/

/-- **Host and adapter were told the same faults, those for which there was cause.** -/
structure Scene.TellsAlike (s : Scene) : Prop where
  told : gathered Occasion.told? s.seen = s.gateway.offeredFaults
  caused : gathered Occasion.cause? s.seen = s.gateway.offeredFaults

/-- What is a cause is not the report. -/
theorem Occasion.told?_of_cause {o : Occasion} {f : Fault} (h : o.cause? = some f) :
    o.told? = none := by
  cases o with
  | asked r => cases h
  | _ => rfl

/-- A change that takes down no fault has nothing to tell of one. -/
theorem Scene.TellsAlike.change {s : Scene} (h : s.TellsAlike) {c : Change} (hc : c.faults = []) :
    Scene.TellsAlike { s with gateway := s.gateway.apply c } := by
  have hsame : (s.gateway.apply c).offeredFaults = s.gateway.offeredFaults := by
    rw [Gateway.offeredFaults_apply, hc, List.append_nil]
  exact ⟨h.told.trans hsame.symm, h.caused.trans hsame.symm⟩

/-- Neither has an occasion that is neither a cause nor a report. -/
theorem Scene.TellsAlike.see {s : Scene} (h : s.TellsAlike) {o : Occasion} (htold : o.told? = none)
    (hcause : o.cause? = none) : Scene.TellsAlike { s with seen := o :: s.seen } :=
  ⟨(gathered_cons_none htold _).trans h.told, (gathered_cons_none hcause _).trans h.caused⟩

/-- **Every stretch tells both the same.** -/
theorem Stretch.tellsAlike {s s' : Scene} (h : Stretch s s') (hs : s.TellsAlike) :
    s'.TellsAlike := by
  cases h with
  | @change c hc =>
    refine hs.change ?_
    cases c with
    | fault f => cases hc
    | _ => rfl
  | see ho => exact hs.see ho.told ho.cause
  | @report o f ho =>
    have hoffered : (s.gateway.apply (.fault f)).offeredFaults = s.gateway.offeredFaults ++ [f] :=
      s.gateway.offeredFaults_apply (.fault f)
    refine ⟨?_, ?_⟩
    · rw [gathered_cons, gathered_cons_none (Occasion.told?_of_cause ho), hs.told, hoffered]
      rfl
    · rw [gathered_cons_none rfl, gathered_cons, ho, hs.caused, hoffered]
      rfl
  | @renew d hd g =>
    exact (hs.change (c := .install d) rfl).see rfl (Op.renews_of_valid hd g).1
  | @alarm slot a active g hg =>
    have hnone : (Change.alarm slot a active).faults = [] := by
      cases active <;> rfl
    have hchanged := hs.change hnone
    rw [Gateway.apply_of_ok hg] at hchanged
    exact hchanged.see rfl rfl

/-! ## The last fault

It is read off the journal: the latest report, if no valid exchange came after it. So it is known in
the midst of calls, where the adapter may not have been told yet. -/

/-- The faults that were offered are those of which the journal says that they were reported. -/
theorem Run.offeredFaults_eq (r : Run) :
    r.state.offeredFaults = (r.state.contacts.filterMap Contact.fault?).reverse := by
  induction r using Run.induct with
  | @hmade s d g h =>
    show g.offeredFaults = (g.contacts.filterMap Contact.fault?).reverse
    rw [Gateway.offeredFaults_of_make h, Gateway.contacts_of_make h]
    rfl
  | hnext r c ih =>
    have hone : c.contacts.filterMap Contact.fault? = c.faults := by
      cases c <;> rfl
    have hreverse : c.faults.reverse = c.faults := by
      cases c <;> rfl
    rw [r.state_next, Gateway.offeredFaults_apply, Gateway.contacts_apply, List.filterMap_append,
      hone, List.reverse_append, ih, hreverse]

/-- **The fault that is shown** is the one reported latest, if that was since the last valid
exchange. -/
theorem Run.lastFault_iff (r : Run) (f : Fault) :
    r.state.lastFault = some f ↔
      Since (fun x _ => x = .reported f) (fun x => x ≠ .heard ∧ ∀ f', x ≠ .reported f')
        r.state.contacts := by
  induction r using Run.induct with
  | @hmade s d g h =>
    show g.lastFault = some f ↔ Since _ _ g.contacts
    rw [(Gateway.untied_of_make h).2.2, Gateway.contacts_of_make h]
    exact iff_of_false nofun not_since_nil
  | hnext r c ih =>
    rw [r.state_next, Gateway.contacts_apply]
    cases r.state.ties_apply c with
    | heard said _ _ _ hfault =>
      rw [said, List.singleton_append, since_cons, hfault]
      simp
    | failed f' said _ _ hfault =>
      rw [said, List.singleton_append, since_cons, hfault, ih]
      simp
    | reported f' said _ _ _ hfault =>
      rw [said, List.singleton_append, since_cons, hfault]
      simp
    | kept said _ hfault _ =>
      rw [said, List.nil_append, hfault, ih]

/-! ## Over a session

The law for the faults of any session, and of any state of a run. -/

/-- **How the faults of a run are told.** -/
structure Run.TellsFaults (r : Run) : Prop where
  /-- In every session from the start on, whatever adapter and application do, the adapter is told
  the faults that were offered to the host, in the same order, -/
  alike : ∀ {σ α : Type} (env : Environment σ) (depth : Nat) (s : Script σ α) (outside : σ),
    gathered Occasion.told? (r.session env depth s outside).2.scene.seen =
      (r.session env depth s outside).2.gateway.offeredFaults
  /-- and they are those for which there was cause, each time once. -/
  caused : ∀ {σ α : Type} (env : Environment σ) (depth : Nat) (s : Script σ α) (outside : σ),
    gathered Occasion.cause? (r.session env depth s outside).2.scene.seen =
      (r.session env depth s outside).2.gateway.offeredFaults
  /-- A session is what happens when nobody takes anything down, -/
  unseen : ∀ {σ α : Type} (env : Environment σ) (depth : Nat) (s : Script σ α) (outside : σ),
    Prod.map id World.unseen (r.session env depth s outside) =
      s.run (env.perform depth) ⟨r.start, outside⟩
  /-- and a run comes to its end. -/
  reached : ∀ {σ α : Type} (env : Environment σ) (depth : Nat) (s : Script σ α) (outside : σ),
    ∃ cs, ((Run.begun r.made).andThen cs).state = (r.session env depth s outside).2.gateway
  /-- What was offered is what the journal tells of the queue, whether or not there was room. -/
  offered : ∃ steps, (Queue.empty queueCapacity).run steps = (r.state.outcomes, r.state.queue)
  /-- A disconnection leaves nothing to disconnect, so the next one gives no cause. -/
  again : Op.disconnect.cause? (r.next .loseContact).state = none
  /-- The faults that were offered are those reported, latest first in what is said of the
  contact. -/
  reported : r.state.offeredFaults = (r.state.contacts.filterMap Contact.fault?).reverse
  /-- The fault that is shown is the one reported latest, if that was since the last valid
  exchange. -/
  last : ∀ f, r.state.lastFault = some f ↔
    Since (fun x _ => x = .reported f) (fun x => x ≠ .heard ∧ ∀ f', x ≠ .reported f')
      r.state.contacts
  /-- None is shown if none was. -/
  none : r.state.lastFault = none ↔
    ¬ Since (fun x _ => ∃ f, x = .reported f) (· ≠ .heard) r.state.contacts

/-- **Host and adapter are told the same faults,** in every run. -/
theorem Run.faults_told_alike (r : Run) : r.TellsFaults := by
  have halike : ∀ {σ α : Type} (env : Environment σ) (depth : Nat) (s : Script σ α) (outside : σ),
      (r.session env depth s outside).2.scene.TellsAlike := by
    intro σ α env depth s outside
    have hstart : Scene.TellsAlike ⟨r.start, []⟩ := by
      have hnone := Gateway.offeredFaults_of_make r.made
      exact ⟨hnone.symm, hnone.symm⟩
    exact (r.course_session env depth s outside).keeps hstart fun _ _ hx => hx.tellsAlike
  refine
    { alike := fun env depth s outside => (halike env depth s outside).told
      caused := fun env depth s outside => (halike env depth s outside).caused
      unseen := fun env depth s outside => r.session_unseen env depth s outside
      reached := fun env depth s outside => r.exists_session env depth s outside
      offered := r.tells_state.queue
      again := ?_
      reported := r.offeredFaults_eq
      last := r.lastFault_iff
      none := ?_ }
  · have hstatus : (r.next .loseContact).state.status = _ :=
      (congrArg Gateway.status (r.state_next .loseContact)).trans r.state.status_loseContact
    have hconnected : (r.next .loseContact).state.status.has Status.connected = false := by
      rw [hstatus]
      exact Status.has_withoutFlags_eq_false (by decide)
    have hrunning : (r.next .loseContact).state.status.has Status.running = false := by
      rw [hstatus]
      exact Status.has_withoutFlags_eq_false (by decide)
    unfold Op.cause?
    dsimp only
    rw [hconnected, hrunning]
    rfl
  · rw [← r.isSome_lastFault_iff, Bool.not_eq_true, Option.isSome_eq_false_iff,
      Option.isNone_iff_eq_none]

end Fieldbus
