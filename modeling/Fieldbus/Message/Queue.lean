import Fieldbus.Message.Basic
/-!
The message queue: first in, first out, with room for a fixed number of messages.

Sending never waits. A message sent to a full queue is dropped and counted; those already queued
are never touched.

The count of dropped messages has 32 bits and wraps around. It is never set back, not even when the
queue is cleared.
-/

namespace Fieldbus

/-- A bounded queue of messages, oldest first. -/
structure Queue where
  capacity : Nat
  messages : List Message := []
  /-- Messages dropped so far, modulo `2^32`. -/
  dropped : UInt32 := 0
deriving DecidableEq, Repr

namespace Queue

/-- An empty queue with room for `capacity` messages. -/
def empty (capacity : Nat) : Queue := { capacity }

/-- The number of messages queued. -/
def length (q : Queue) : Nat := q.messages.length

/-- Whether no message is queued. -/
def isEmpty (q : Queue) : Bool := q.messages.isEmpty

/-- Whether there is no room for another message. -/
def isFull (q : Queue) : Bool := q.capacity ≤ q.messages.length

/-- Appends a message if there is room, else counts it as dropped; tells whether it was queued. -/
def send (q : Queue) (m : Message) : Bool × Queue :=
  if q.isFull then (false, { q with dropped := q.dropped + 1 })
  else (true, { q with messages := q.messages ++ [m] })

/-- Takes the oldest message. -/
def receive (q : Queue) : Option Message × Queue :=
  match q.messages with
  | [] => (none, q)
  | m :: rest => (some m, { q with messages := rest })

/-- Forgets the messages queued; the count of dropped ones stays. -/
def clear (q : Queue) : Queue := { q with messages := [] }

/-- The state of the queue in one line. -/
def record (q : Queue) : RecordText where
  name := "MessageChannel"
  fields :=
    [ ("pending", toString q.length), ("capacity", toString q.capacity),
      ("dropped", toString q.dropped.toNat) ]

/-! ## One law per operation

What is used of these functions elsewhere. -/

/-- A message is refused exactly when the queue is full. -/
theorem send_fst (q : Queue) (m : Message) : (q.send m).1 = !q.isFull := by
  unfold send; split <;> simp_all

@[simp] theorem capacity_send (q : Queue) (m : Message) : (q.send m).2.capacity = q.capacity := by
  unfold send; split <;> rfl

/-- Sending keeps the queue within its capacity. -/
theorem length_send_le {q : Queue} (h : q.messages.length ≤ q.capacity) (m : Message) :
    (q.send m).2.messages.length ≤ (q.send m).2.capacity := by
  unfold send isFull
  split
  · exact h
  · next hn =>
    simp only [decide_eq_true_eq] at hn
    simp only [List.length_append, List.length_cons, List.length_nil]
    omega

/-- What is left is what was behind the front. -/
theorem receive_snd_messages (q : Queue) : q.receive.2.messages = q.messages.tail := by
  unfold receive; cases h : q.messages <;> simp [h]

end Queue
end Fieldbus
