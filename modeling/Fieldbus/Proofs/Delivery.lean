import Fieldbus.Proofs.Conduct
import Fieldbus.Proofs.Telling
/-!
Delivery: a message that was accepted reaches the host once, and in its turn.

The queue of a gateway obeys the law of queues because its journal tells of all that was done to it,
from the beginning (`Run.tells_state`).

A law of queues by itself says nothing of a gateway: it is about steps that somebody makes. Here the
steps are what the journal says, and they are all there were. So the messages that were accepted
are, in order, those that were taken and those still queued, at any time, whoever has sent and
received in between.
-/

namespace Fieldbus

namespace Gateway

/-! ## Outcomes in the journal

Messages leave by one kind of change, which takes the oldest. All others send or leave the queue
alone. -/

/-- All that came of the queue so far, as the journal has it. -/
def outcomes (g : Gateway) : List QueueOutcome := g.journal.reverse.filterMap Event.outcome?

theorem outcomes_of_tells {g g' : Gateway} {events : List Event}
    (h : g.link.outbox.Tells events g'.link.outbox) :
    g'.outcomes = g.outcomes ++ events.filterMap Event.outcome? := by
  have hjournal : g'.journal = events.reverse ++ g.journal := h.journal
  unfold outcomes
  rw [hjournal, List.reverse_append, List.reverse_reverse, List.filterMap_append]

/-- A gateway that is made has told of its queue from the beginning. -/
theorem tells_make {s : Settings} {d : Device} {g : Gateway} (h : make s d = .ok g) :
    (Outbox.empty queueCapacity).Tells g.journal.reverse g.link.outbox := by
  obtain ⟨events, htells, -⟩ := murmurs_make h
  have hjournal : g.journal = events.reverse := htells.journal_eq
  rw [hjournal, List.reverse_reverse]
  exact htells

end Gateway

/-! ## Over a whole run

By induction on the run, from the empty queue that a gateway is made with; after that any operation
goes on with the run. -/

/-- **The journal of a run tells of its queue** from the beginning. -/
theorem Run.tells_state (r : Run) :
    (Outbox.empty queueCapacity).Tells r.state.journal.reverse r.state.link.outbox := by
  induction r using Run.induct with
  | hmade h => exact Gateway.tells_make h
  | hnext r c ih =>
    obtain ⟨events, htells⟩ := r.state.exists_tells c
    have hjournal : (r.next c).state.journal.reverse = r.state.journal.reverse ++ events := by
      show (r.next c).state.link.outbox.journal.reverse = _
      rw [r.state_next, htells.journal, List.reverse_append, List.reverse_reverse]
      rfl
    rw [hjournal, r.state_next]
    exact ih.trans htells

/-- What a run has accepted for the host is delivered. -/
theorem Run.delivered_state (r : Run) :
    Queue.Delivered queueCapacity r.state.outcomes r.state.queue :=
  r.tells_state.delivers.delivered

end Fieldbus
