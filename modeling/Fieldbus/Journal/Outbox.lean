import Fieldbus.Journal.Event
import Fieldbus.Message.Queue
/-!
The outbox of a gateway: the message queue together with the journal.

Everything that leaves a trace goes through here. A message is journalled as queued or dropped when
it is sent and as taken when it is received, so the journal tells the whole history of the queue.

Queue and journal are changed together and never one without the other where messages are concerned.
That makes one a digest of the other, which is what the laws of delivery go by.
-/

namespace Fieldbus

/-- The message queue and the journal, latest event first. -/
structure Outbox where
  queue : Queue
  journal : List Event := []

namespace Outbox

/-- An outbox with an empty queue of the given capacity and nothing journalled. -/
def empty (capacity : Nat) : Outbox := { queue := .empty capacity }

/-- Journals an event. -/
def note (o : Outbox) (e : Event) : Outbox := { o with journal := e :: o.journal }

/-- Journals events in order. -/
def noteAll (o : Outbox) (events : List Event) : Outbox := events.foldl note o

/-- Sends a message to the host; tells whether it was queued. -/
def send (o : Outbox) (m : Message) : Bool × Outbox :=
  match o.queue.send m with
  | (true, queue) => (true, { queue, journal := .queued m :: o.journal })
  | (false, queue) => (false, { queue, journal := .dropped m queue.dropped :: o.journal })

/-- Sends a message to the host. -/
def post (o : Outbox) (m : Message) : Outbox := (o.send m).2

/-- Takes the oldest message. -/
def receive (o : Outbox) : Option Message × Outbox :=
  match o.queue.receive with
  | (none, queue) => (none, { o with queue })
  | (some m, queue) => (some m, { queue, journal := .taken m :: o.journal })

/-- The events journalled since the journal had the given length, oldest first. -/
def since (o : Outbox) (length : Nat) : List Event :=
  (o.journal.take (o.journal.length - length)).reverse

@[simp] theorem queue_note (o : Outbox) (e : Event) : (o.note e).queue = o.queue := rfl

@[simp] theorem queue_noteAll (o : Outbox) (events : List Event) :
    (o.noteAll events).queue = o.queue := by
  unfold noteAll
  induction events generalizing o with
  | nil => rfl
  | cons e rest ih => exact ih (o.note e)

/-- A sent message goes to the queue, whatever the journal says of it. -/
theorem queue_post (o : Outbox) (m : Message) : (o.post m).queue = (o.queue.send m).2 := by
  unfold post send
  split <;> simp_all

/-- Sending answers as the queue does. -/
theorem send_fst (o : Outbox) (m : Message) : (o.send m).1 = !o.queue.isFull := by
  rw [← Queue.send_fst o.queue m]
  unfold send
  split <;> simp_all

end Outbox
end Fieldbus
