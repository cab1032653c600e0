import Mathlib.Data.List.Destutter
import Fieldbus.Proofs.Posting
/-!
The host sees the status as it is.

The status messages that a gateway offers are a mirror of its status: each change of the status is
told by one message that carries all flags, and nothing else is told (`Change.status_posts`). So
what was offered since the gateway was made is the sequence of all states of the status without
repetitions, and as long as no message was dropped the host has the status as it is now, in the last
message that is queued or else in the last that it took (`Run.status_mirrored`).

Without repetitions means of neighbours: a status that comes back later is told again. A change that
sets a flag which is set already leaves the status as it is, and nothing is told.

A message carries all flags, so one that was dropped is made up for by the next. That the host has
the status as it is needs only that the last one was not dropped; as the counter of dropped messages
wraps around, it is stated for a counter that has counted fewer than it can.
-/

namespace Fieldbus

/-! ## The messages about the status

Of what a change has to say, the news of the status is all that is about the status, and it is the
status that the change leaves. Messages that are offered, received and queued are read alike. -/

/-- The status that a message tells, if it does. -/
def Message.status? : Message → Option Status
  | .status s => some s
  | _ => none

theorem Status.status_news (old new : Status) :
    (old.news new).filterMap Message.status? = if new = old then [] else [new] := by
  unfold Status.news
  split <;> rfl

/-- **What a change has to say of the status** is the new one, if it is a new one. -/
theorem Change.status_posts (g : Gateway) (c : Change) :
    (c.posts g).filterMap Message.status? =
      if (g.apply c).status = g.status then [] else [(g.apply c).status] := by
  have hfaults : c.faults.filterMap (fun f => (Message.error f).status?) = [] :=
    List.filterMap_eq_nil_iff.2 fun _ _ => rfl
  rw [filterMap_posts rfl rfl rfl (fun _ _ => rfl), hfaults, Status.status_news, List.append_nil]

namespace Gateway
variable (g : Gateway)

/-- The states of the status that were offered to the queue, in order. -/
def offeredStatuses : List Status := g.offered.filterMap Message.status?

/-- The states of the status that the host was told, in order. -/
def receivedStatuses : List Status :=
  (g.outcomes.flatMap QueueOutcome.left).filterMap Message.status?

/-- The states of the status that are queued, in order. -/
def queuedStatuses : List Status := g.queue.messages.filterMap Message.status?

variable {g} in
/-- At the start, the status is told as it is made. -/
theorem offeredStatuses_of_make {s : Settings} {d : Device} (h : make s d = .ok g) :
    g.offeredStatuses =
      Status.fresh :: if g.status = Status.fresh then [] else [g.status] := by
  unfold offeredStatuses
  rw [offered_of_make h, List.filterMap_cons, Status.status_news]
  rfl

theorem offeredStatuses_apply (c : Change) :
    (g.apply c).offeredStatuses = g.offeredStatuses ++
      if (g.apply c).status = g.status then [] else [(g.apply c).status] := by
  unfold offeredStatuses
  rw [offered_apply, List.filterMap_append, Change.status_posts]

end Gateway

/-! ## All states of the status

The states of a run, one for each change, and one for the start before any flag was set. What was
offered is this list without its first and without repetitions, by induction on the run: a change
adds its state to the one and its news to the other, or nothing if the state is the same. -/

/-- One more value behind a list without repetitions is left out if it is the last one again. -/
theorem destutter'_ne_append_singleton {α : Type} [DecidableEq α] {l : List α} {a last : α} (s : α)
    (h : (a :: l).getLast? = some last) :
    (l ++ [s]).destutter' (· ≠ ·) a = l.destutter' (· ≠ ·) a ++ if s = last then [] else [s] := by
  induction l generalizing a with
  | nil =>
    obtain rfl : a = last := Option.some.inj h
    rw [List.nil_append, List.destutter'_singleton, List.destutter'_nil]
    by_cases heq : s = a
    · rw [if_neg (fun hne => hne heq.symm), if_pos heq, List.append_nil]
    · rw [if_pos (fun hsame => heq hsame.symm), if_neg heq]
      rfl
  | cons b rest ih =>
    rw [List.getLast?_cons_cons] at h
    rw [List.cons_append]
    by_cases heq : a = b
    · subst heq
      rw [List.destutter'_cons_neg _ (fun hne => hne rfl),
        List.destutter'_cons_neg _ (fun hne => hne rfl)]
      exact ih h
    · rw [List.destutter'_cons_pos _ heq, List.destutter'_cons_pos _ heq, ih h]
      rfl

namespace Run
variable (r : Run)

/-- All states of the status, oldest first: from none of the flags to that at the start, and the one
after each change. -/
def statuses : List Status :=
  {} :: r.track (fun g c past => past ++ [(g.apply c).status]) [Status.fresh, r.start.status]

theorem statuses_next (c : Change) :
    (r.next c).statuses = r.statuses ++ [(r.next c).state.status] := by
  unfold statuses
  rw [track_next, state_next]
  rfl

/-- The last of them is the status as it is. -/
theorem getLast?_statuses : r.statuses.getLast? = some r.state.status := by
  induction r using Run.induct with
  | hmade h => rfl
  | hnext r c ih => rw [statuses_next, List.getLast?_concat]

/-- What was offered are the states of the status without repetitions. -/
theorem offeredStatuses_eq :
    {} :: r.state.offeredStatuses = r.statuses.destutter (· ≠ ·) := by
  induction r using Run.induct with
  | hmade h =>
    rename_i g
    show {} :: g.offeredStatuses = [{}, Status.fresh, g.status].destutter (· ≠ ·)
    have hfirst : ({} : Status) ≠ Status.fresh := by decide
    rw [Gateway.offeredStatuses_of_make h, List.destutter_cons_cons, if_pos hfirst,
      List.destutter'_singleton]
    by_cases hsame : g.status = Status.fresh
    · rw [if_pos hsame, if_neg (fun hne => hne hsame.symm)]
    · rw [if_neg hsame, if_pos (fun heq => hsame heq.symm)]
  | hnext r c ih =>
    have hlast := r.getLast?_statuses
    rw [statuses_next, state_next, Gateway.offeredStatuses_apply]
    unfold statuses at hlast ih ⊢
    rw [List.cons_append, List.destutter_cons', destutter'_ne_append_singleton _ hlast,
      ← List.destutter_cons', ← ih]
    rfl

/-- Something was offered at the start, and what was offered last is the status as it is. -/
theorem getLast?_offeredStatuses : r.state.offeredStatuses.getLast? = some r.state.status := by
  induction r using Run.induct with
  | hmade h =>
    rename_i g
    show g.offeredStatuses.getLast? = some g.status
    rw [Gateway.offeredStatuses_of_make h]
    split
    · next hsame =>
      rw [hsame]
      rfl
    · rfl
  | hnext r c ih =>
    rw [state_next, Gateway.offeredStatuses_apply]
    split
    · next hsame =>
      rw [List.append_nil, hsame]
      exact ih
    · exact List.getLast?_concat

/-- Before anything is dropped, what was offered is what the host was told and what is queued. -/
theorem offeredStatuses_eq_of_dropped (hdropped : r.state.queue.dropped = 0)
    (hfew : r.state.offered.length < 2 ^ 32) :
    r.state.offeredStatuses = r.state.receivedStatuses ++ r.state.queuedStatuses := by
  have hdelivered := r.delivered_state
  have hle := QueueOutcome.countP_isRefused_le r.state.outcomes
  have hcount := hdelivered.dropped
  unfold Gateway.offered at hfew
  rw [hdropped, show (0 : UInt32).toNat = 0 from rfl] at hcount
  -- the count of refusals has not wrapped around, so there was none
  have hnone : r.state.outcomes.countP QueueOutcome.isRefused = 0 := by omega
  have hentered := QueueOutcome.entered_eq_offered hnone
  unfold Gateway.offeredStatuses Gateway.receivedStatuses Gateway.queuedStatuses Gateway.offered
  rw [← hentered, hdelivered.order, List.filterMap_append]

end Run

/-- **How the status messages of a run mirror its status.** -/
structure Run.Mirrors (r : Run) : Prop where
  /-- The journal tells of all that was done to the queue, from the beginning. -/
  told : ∃ steps, (Queue.empty queueCapacity).run steps = (r.state.outcomes, r.state.queue)
  /-- What was offered to it are, after the initial zero, the states of the status without
  repetitions, -/
  sequence : {} :: r.state.offeredStatuses = r.statuses.destutter (· ≠ ·)
  /-- which is to say that no two in a row are equal. -/
  distinct : ({} :: r.state.offeredStatuses).IsChain (· ≠ ·)
  /-- The last of these states is the status as it is, -/
  current : r.statuses.getLast? = some r.state.status
  /-- and a change adds the one it leaves. -/
  onward : ∀ c, (r.next c).statuses = r.statuses ++ [(r.next c).state.status]
  /-- A change that touches the status offers one message with all flags; any other offers none. -/
  offers : ∀ c, (r.next c).state.offeredStatuses = r.state.offeredStatuses ++
    if (r.next c).state.status = r.state.status then [] else [(r.next c).state.status]
  /-- Flags are set and cleared as they are, those without a meaning too. -/
  sets : ∀ flags, (r.next (.raiseFlags flags)).state.status.bits = r.state.status.bits ||| flags
  clears : ∀ flags,
    (r.next (.clearFlags flags)).state.status.bits = r.state.status.bits &&& ~~~flags
  /-- While no message was dropped, the last status message is of the status as it is: it is queued,
  or else the host has it. -/
  last : r.state.queue.dropped = 0 → r.state.offered.length < 2 ^ 32 →
    r.state.queuedStatuses.getLast?.or r.state.receivedStatuses.getLast? = some r.state.status
  /-- The run goes on with every operation, whatever adapter and application do. -/
  performs : ∀ {σ : Type} (env : Environment σ) (depth : Nat) (op : Op) (w : World σ),
    w.gateway = r.state → ∃ cs, (r.andThen cs).state = (env.perform depth op w).2.gateway

/-- **In every run the status messages mirror the status.** -/
theorem Run.status_mirrored (r : Run) : r.Mirrors where
  told := r.tells_state.queue
  sequence := r.offeredStatuses_eq
  distinct := by
    rw [r.offeredStatuses_eq]
    exact List.isChain_destutter _ _
  current := r.getLast?_statuses
  onward c := r.statuses_next c
  offers c := by
    rw [r.state_next]
    exact r.state.offeredStatuses_apply c
  sets flags := by
    rw [r.state_next]
    exact congrArg Status.bits (r.state.status_raiseFlags flags)
  clears flags := by
    rw [r.state_next]
    exact congrArg Status.bits (r.state.status_clearFlags flags)
  last hdropped hfew := by
    rw [← List.getLast?_append, ← r.offeredStatuses_eq_of_dropped hdropped hfew]
    exact r.getLast?_offeredStatuses
  performs env depth op w hw := r.exists_perform env depth op hw

end Fieldbus
