namespace DropRoom

/-!
# Event bus

A bus hands every event that is published to every receiver that subscribed
before.  It keeps a limited number of events for slow receivers: one that is
further behind is told how many events it lost, and goes on with the oldest event
that is kept.

* `Bus` — the events published so far, and how far each receiver has come;
* `Bus.create` — make a bus that keeps at least so many events, or break off;
* `Bus.ofCapacity` — the bus that is made;
* `Bus.subscribe`, `Bus.unsubscribe`, `Bus.publish`, `Bus.close`;
* `Bus.receive` — what a receiver gets next.

All events stay in the log, so that a receiver is no more than a position in it;
the capacity decides which of them can still be had.
-/

/-- A bus for events of one type. -/
structure Bus (α : Type) where
  /-- How many events are kept for a receiver that is behind. -/
  capacity : Nat
  /-- The events that were published, the latest first. -/
  log : List α
  /-- The number of events before the next one, for each receiver that is still there. -/
  positions : List (Nat × Nat)
  /-- How many receivers there have been. -/
  subscriptions : Nat
  /-- Whether the bus is closed, so that nothing will be published any more. -/
  closed : Bool

/-- What a receiver gets. -/
inductive Received (α : Type) where
  | event (event : α)
  /-- So many events were lost; the next one is the oldest that is kept. -/
  | lagged (count : Nat)
  /-- Nothing has been published since. -/
  | empty
  /-- Nothing will be published any more. -/
  | closed
  /-- There is no such receiver, or it has unsubscribed. -/
  | gone
  deriving DecidableEq, Repr

namespace Bus

variable {α : Type}

/-- The least power of two that is not below a number. -/
def powerOfTwoAbove (n : Nat) : Nat :=
  if n ≤ 1 then 1 else Nat.pow 2 ((n - 1).log2 + 1)

/-- The greatest capacity that may be asked for: half of the greatest number of a machine word. -/
def greatestCapacity : Nat := 0x7fffffffffffffff

/-- Why the program breaks off where it makes a bus. -/
inductive Breakdown where
  /-- The capacity is beyond the greatest one. -/
  | tooLarge
  /-- There is no memory for the events. -/
  | outOfMemory
  deriving DecidableEq, Repr

/-- The bus of a capacity, as it is where it can be made: it keeps at least so many events, as many
as the next power of two. -/
def ofCapacity (capacity : Nat) : Bus α :=
  ⟨powerOfTwoAbove capacity, [], [], 0, false⟩

/-- Make the bus of a capacity.  The program breaks off where the capacity is too large, or where
there is no memory for as many events as are kept. -/
def create (hasRoomFor : Nat → Bool) (capacity : Nat) : Except Breakdown (Bus α) :=
  if greatestCapacity < capacity then .error .tooLarge
  else if hasRoomFor (powerOfTwoAbove capacity) then .ok (ofCapacity capacity)
  else .error .outOfMemory

/-- A bus that keeps 1024 events. -/
def initial : Bus α :=
  ofCapacity 1024

/-- The events that were published, the earliest first. -/
def published (bus : Bus α) : List α :=
  bus.log.reverse

/-- The number of receivers. -/
def receiverCount (bus : Bus α) : Nat :=
  bus.positions.length

/-- Add a receiver of all events from now on, and give its number. -/
def subscribe (bus : Bus α) : Nat × Bus α :=
  (bus.subscriptions,
    { bus with
      positions := bus.positions ++ [(bus.subscriptions, bus.log.length)]
      subscriptions := bus.subscriptions + 1 })

/-- Remove a receiver. -/
def unsubscribe (bus : Bus α) (receiver : Nat) : Bus α :=
  { bus with positions := bus.positions.filter fun entry => entry.1 != receiver }

/-- Publish an event. -/
def publish (bus : Bus α) (event : α) : Bus α :=
  { bus with log := event :: bus.log }

/-- Close the bus. -/
def close (bus : Bus α) : Bus α :=
  { bus with closed := true }

/-- The event after so many others, if it has been published. -/
def eventAt? (bus : Bus α) (position : Nat) : Option α :=
  if position < bus.log.length then bus.log[bus.log.length - 1 - position]? else none

/-- Move a receiver to a position. -/
def moveTo (bus : Bus α) (receiver position : Nat) : Bus α :=
  { bus with
    positions := bus.positions.map fun entry =>
      if entry.1 = receiver then (receiver, position) else entry }

/-- What a receiver gets next. -/
def receive (bus : Bus α) (receiver : Nat) : Received α × Bus α :=
  match bus.positions.lookup receiver with
  | none => (.gone, bus)
  | some position =>
    let oldest := bus.log.length - bus.capacity
    if position < oldest then (.lagged (oldest - position), bus.moveTo receiver oldest)
    else
      match bus.eventAt? position with
      | some event => (.event event, bus.moveTo receiver (position + 1))
      | none => (if bus.closed then .closed else .empty, bus)

/-- Everything that a receiver gets until nothing is left, at most so many answers. -/
def receiveAtMost : Nat → Nat → Bus α → List (Received α) × Bus α
  | 0, _, bus => ([], bus)
  | limit + 1, receiver, bus =>
    match bus.receive receiver with
    | (.event event, bus) =>
      let (more, bus) := receiveAtMost limit receiver bus
      (.event event :: more, bus)
    | (.lagged count, bus) =>
      let (more, bus) := receiveAtMost limit receiver bus
      (.lagged count :: more, bus)
    | (_, bus) => ([], bus)

/-- Everything that a receiver gets until nothing is left. -/
def receiveAll (bus : Bus α) (receiver : Nat) : List (Received α) × Bus α :=
  receiveAtMost (bus.log.length + 1) receiver bus

end Bus

end DropRoom
