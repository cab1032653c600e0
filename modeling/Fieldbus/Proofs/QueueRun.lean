import Mathlib.Algebra.Ring.Nat
import Fieldbus.Message.Queue
/-!
A queue in use: it is run through any list of steps, and what comes of each step is a
`QueueOutcome`.

The law is one of conservation: what was queued at first and what was accepted since is, in this
order, what has left since and what is queued now (`Queue.delivers_run`). It says at once that
nothing is lost, nothing comes twice and nothing is overtaken, since both sides are lists.

Clearing a queue counts as leaving it: the messages go at once and to nobody, but they go from the
front and in order like all others. Messages that are refused have not come in, and are counted
instead; the counter is one of 32 bits and wraps around, so what it says of the number of refused
messages is said modulo `2 ^ 32`.

The outcomes are what ties this to a gateway. A gateway has no list of steps to be run, but a
journal that has such outcomes in it, so the law is stated of outcomes and holds of whatever made
them.
-/

namespace Fieldbus

/-! ## Steps and outcomes

What a step makes come in and what it makes leave are lists, each of at most one message but for
clearing. With them the law needs no case for each kind of step, except in what one step does. -/

/-- Something done to a queue. -/
inductive QueueStep where
  | send (m : Message)
  | receive
  /-- Looks at the messages, oldest first. -/
  | list
  | clear
deriving DecidableEq, Repr

/-- What comes of it. -/
inductive QueueOutcome where
  /-- A message was sent, and the answer was true. -/
  | accepted (m : Message)
  /-- A message was sent, and the answer was false. -/
  | refused (m : Message)
  | received (m : Message)
  /-- There was nothing to receive. -/
  | nothing
  | listed (messages : List Message)
  /-- These messages were forgotten. -/
  | cleared (messages : List Message)
deriving DecidableEq, Repr

namespace QueueOutcome

/-- The message that has come into the queue with it. -/
def entered : QueueOutcome → List Message
  | .accepted m => [m]
  | _ => []

/-- The messages that have left the queue with it. -/
def left : QueueOutcome → List Message
  | .received m => [m]
  | .cleared messages => messages
  | _ => []

/-- Whether a message was turned away. -/
def isRefused : QueueOutcome → Bool
  | .refused _ => true
  | _ => false

end QueueOutcome

namespace Queue

/-- Does something to a queue. -/
def step (q : Queue) : QueueStep → QueueOutcome × Queue
  | .send m => (if (q.send m).1 then .accepted m else .refused m, (q.send m).2)
  | .receive =>
    (match q.receive.1 with
      | none => .nothing
      | some m => .received m, q.receive.2)
  | .list => (.listed q.messages, q)
  | .clear => (.cleared q.messages, q.clear)

/-- Does one thing after another. -/
def run (q : Queue) : List QueueStep → List QueueOutcome × Queue
  | [] => ([], q)
  | s :: rest => ((q.step s).1 :: ((q.step s).2.run rest).1, ((q.step s).2.run rest).2)

theorem run_append (q : Queue) (as bs : List QueueStep) :
    q.run (as ++ bs) = ((q.run as).1 ++ ((q.run as).2.run bs).1, ((q.run as).2.run bs).2) := by
  induction as generalizing q with
  | nil => rfl
  | cons s rest ih =>
    show ((q.step s).1 :: ((q.step s).2.run (rest ++ bs)).1, ((q.step s).2.run (rest ++ bs)).2) = _
    rw [ih]
    rfl

/-! ## Passing on

`Queue.Delivers` relates two queues by what came of the steps between them. It holds of no step, of
each single one, and of one run after another, so it holds of every run by induction. That a queue
within its capacity stays within it is part of it, and so is the counting of refusals. -/

/-- **What one queue passed on before it became the other.** -/
structure Delivers (q : Queue) (os : List QueueOutcome) (q' : Queue) : Prop where
  /-- What was queued and what was accepted is, in order, what has left and what is queued. -/
  order : q.messages ++ os.flatMap QueueOutcome.entered = os.flatMap QueueOutcome.left ++ q'.messages
  capacity : q'.capacity = q.capacity
  room : q.messages.length ≤ q.capacity → q'.messages.length ≤ q'.capacity
  /-- Every refusal is counted, and nothing else, on a counter that wraps around. -/
  dropped : q'.dropped.toNat = (q.dropped.toNat + os.countP QueueOutcome.isRefused) % 2 ^ 32

theorem delivers_nil (q : Queue) : q.Delivers [] q where
  order := List.append_nil q.messages
  capacity := rfl
  room := id
  dropped := (Nat.mod_eq_of_lt q.dropped.toNat_lt).symm

/-- A counter that nothing was added to. -/
theorem dropped_add_zero (q : Queue) : q.dropped.toNat = (q.dropped.toNat + 0) % 2 ^ 32 :=
  (Nat.mod_eq_of_lt q.dropped.toNat_lt).symm

theorem delivers_send (q : Queue) (m : Message) :
    q.Delivers [(q.step (.send m)).1] (q.send m).2 := by
  have hroom : q.messages.length ≤ q.capacity →
      (q.send m).2.messages.length ≤ (q.send m).2.capacity := fun h => length_send_le h m
  have hcapacity : (q.send m).2.capacity = q.capacity := capacity_send q m
  have hsent := q.send_fst m
  cases hfull : q.isFull with
  | true =>
    rw [hfull] at hsent
    have houtcome : (q.step (.send m)).1 = .refused m := by
      show (if (q.send m).1 then QueueOutcome.accepted m else .refused m) = _
      rw [hsent]
      rfl
    have hsend : (q.send m).2 = { q with dropped := q.dropped + 1 } := by
      rw [send, if_pos hfull]
    rw [houtcome]
    -- nothing has come in, and one more is counted
    refine ⟨?_, hcapacity, hroom, ?_⟩
    · rw [hsend]
      exact List.append_nil q.messages
    · rw [hsend]
      exact UInt32.toNat_add q.dropped 1
  | false =>
    rw [hfull] at hsent
    have houtcome : (q.step (.send m)).1 = .accepted m := by
      show (if (q.send m).1 then QueueOutcome.accepted m else .refused m) = _
      rw [hsent]
      rfl
    have hsend : (q.send m).2 = { q with messages := q.messages ++ [m] } := by
      rw [send, hfull]
      rfl
    rw [houtcome]
    -- the message is behind all others
    refine ⟨?_, hcapacity, hroom, ?_⟩
    · rw [hsend]
      rfl
    · rw [hsend]
      exact q.dropped_add_zero

theorem delivers_receive (q : Queue) : q.Delivers [(q.step .receive).1] q.receive.2 := by
  obtain ⟨capacity, _ | ⟨m, rest⟩, dropped⟩ := q
  · exact ⟨rfl, rfl, id, dropped_add_zero ⟨capacity, [], dropped⟩⟩
  · have hdropped := dropped_add_zero ⟨capacity, m :: rest, dropped⟩
    exact ⟨List.append_nil (m :: rest), rfl, fun h => Nat.le_of_succ_le h, hdropped⟩

/-- Each step passes on what its outcome says. -/
theorem delivers_step (q : Queue) (s : QueueStep) : q.Delivers [(q.step s).1] (q.step s).2 := by
  cases s with
  | send m => exact q.delivers_send m
  | receive => exact q.delivers_receive
  | list => exact ⟨List.append_nil q.messages, rfl, id, q.dropped_add_zero⟩
  | clear =>
    refine ⟨?_, rfl, fun _ => Nat.zero_le _, q.dropped_add_zero⟩
    show q.messages ++ [] = (q.messages ++ []) ++ []
    rw [List.append_nil, List.append_nil]

theorem Delivers.trans {q q' q'' : Queue} {os os' : List QueueOutcome} (h : q.Delivers os q')
    (h' : q'.Delivers os' q'') : q.Delivers (os ++ os') q'' := by
  refine ⟨?_, h'.capacity.trans h.capacity, fun hroom => h'.room (h.room hroom), ?_⟩
  · calc q.messages ++ (os ++ os').flatMap QueueOutcome.entered
        = (q.messages ++ os.flatMap QueueOutcome.entered) ++ os'.flatMap QueueOutcome.entered := by
          rw [List.flatMap_append, List.append_assoc]
      _ = os.flatMap QueueOutcome.left ++ (q'.messages ++ os'.flatMap QueueOutcome.entered) := by
          rw [h.order, List.append_assoc]
      _ = (os ++ os').flatMap QueueOutcome.left ++ q''.messages := by
          rw [h'.order, List.flatMap_append, List.append_assoc]
  · have hq := h.dropped
    have hq' := h'.dropped
    rw [List.countP_append]
    omega

/-- **A queue passes on all that it accepts, in order.** -/
theorem delivers_run (q : Queue) (steps : List QueueStep) :
    q.Delivers (q.run steps).1 (q.run steps).2 := by
  induction steps generalizing q with
  | nil => exact q.delivers_nil
  | cons s rest ih => exact (q.delivers_step s).trans (ih (q.step s).2)

/-- A queue that has been in use since it was empty, with all that came of it. -/
structure Delivered (capacity : Nat) (os : List QueueOutcome) (q : Queue) : Prop where
  /-- What was accepted is, in order, what has left and then what is queued. -/
  order : os.flatMap QueueOutcome.entered = os.flatMap QueueOutcome.left ++ q.messages
  room : q.messages.length ≤ capacity
  /-- Messages are refused when the queue is full, and only then. -/
  refuses : ∀ m, (q.send m).1 = false ↔ q.messages.length = capacity
  /-- A message that is refused is counted, and moves none of the others. -/
  unmoved : ∀ m, (q.send m).1 = false → (q.send m).2 = { q with dropped := q.dropped + 1 }
  /-- Refusals are counted, on a counter that wraps around. -/
  dropped : q.dropped.toNat = os.countP QueueOutcome.isRefused % 2 ^ 32
  /-- Whoever receives gets the oldest message, and leaves the others and the count alone. -/
  oldest : q.receive = (q.messages.head?, { q with messages := q.messages.tail })
  /-- Whoever clears takes the messages that are queued, and leaves the count alone. -/
  emptied : q.clear = { q with messages := [] }

theorem receive_eq (q : Queue) :
    q.receive = (q.messages.head?, { q with messages := q.messages.tail }) := by
  obtain ⟨capacity, _ | ⟨m, rest⟩, dropped⟩ := q <;> rfl

/-- What an empty queue has passed on, it has delivered. -/
theorem Delivers.delivered {capacity : Nat} {os : List QueueOutcome} {q : Queue}
    (h : (Queue.empty capacity).Delivers os q) : Delivered capacity os q := by
  have hcapacity : q.capacity = capacity := h.capacity
  have hroom : q.messages.length ≤ q.capacity := h.room (Nat.zero_le _)
  have hsent : ∀ m, (q.send m).1 = false ↔ q.isFull = true := by
    intro m
    rw [q.send_fst m, Bool.not_eq_false']
  have hfull : q.isFull = true ↔ capacity ≤ q.messages.length := by
    rw [isFull, decide_eq_true_iff, hcapacity]
  rw [hcapacity] at hroom
  refine ⟨h.order, hroom, fun m => ?_, fun m hm => ?_, ?_, q.receive_eq, rfl⟩
  · rw [hsent, hfull]
    omega
  · rw [hsent] at hm
    rw [send, if_pos hm]
  · have hdropped := h.dropped
    rw [show (Queue.empty capacity).dropped.toNat = 0 from rfl, Nat.zero_add] at hdropped
    exact hdropped

end Queue

/-- With room for one, the second of two messages is refused and the first is received. -/
example : (Queue.empty 1).run [.send .poll, .send .sync, .receive] =
    ([.accepted .poll, .refused .sync, .received .poll], ⟨1, [], 1⟩) := by decide

end Fieldbus
