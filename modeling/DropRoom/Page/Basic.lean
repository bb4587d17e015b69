import DropRoom.Bus
import DropRoom.Event
import DropRoom.Scheduler

namespace DropRoom

/-!
# A room page

What the parts of a room page share: the bus that events are published on, the
timers, and the toasts that are shown.

* `Page` — the state, and `Page.initial`, a page that shows nothing;
* `Page.publish` — publish an event;
* `Page.settle`, `Page.advance` — let the timers do what is due.
-/

namespace Page

/-- What a timer is for: at most one of each waits at a time. -/
inductive TimerKey where
  /-- To dismiss a toast. -/
  | toast (id : Uuid)
  /-- To leave the page. -/
  | redirect
  deriving DecidableEq, Repr

/-- What happens when a timer ends. -/
inductive Effect where
  | dismiss (id : Uuid)
  | redirect
  deriving DecidableEq, Repr

/-- How a page is set up; lifetimes are in milliseconds. -/
structure Setup where
  /-- Where redirects go. -/
  createPage : String
  /-- How long a toast is shown. -/
  toastLifetime : UInt64
  /-- How long a toast that asks for something is shown. -/
  promptLifetime : UInt64
  /-- How many events are kept for a slow receiver. -/
  eventCapacity : Nat
  deriving DecidableEq, Repr

end Page

/-- The state of a room page. -/
structure Page where
  setup : Page.Setup
  bus : Bus Event
  timers : Scheduler Page.TimerKey Page.Effect
  /-- The toasts that are shown, in the order in which they appeared. -/
  toasts : List Toast
  /-- How many toasts have appeared; the next one is known by this number. -/
  toastCount : Nat

namespace Page

/-- A page that shows nothing. -/
def initial (setup : Setup) : Page :=
  ⟨setup, .ofCapacity setup.eventCapacity, .initial, [], 0⟩

/-- Publish an event. -/
def publish (page : Page) (event : Event) : Page :=
  { page with bus := page.bus.publish event }

/-- The events that were published, the earliest first. -/
def published (page : Page) : List Event :=
  page.bus.published

/-- Take a toast off the page; whether it was there. -/
def dismiss (page : Page) (id : Uuid) : Bool × Page :=
  if page.toasts.any fun toast => toast.id = id then
    (true,
      { page with toasts := page.toasts.filter fun toast => toast.id ≠ id }.publish
        (.toast (.dismissed id)))
  else (false, page)

/-- Let what a timer is for happen. -/
def apply (page : Page) : Effect → Page
  | .dismiss id => (page.dismiss id).2
  | .redirect => page.publish (.navigation (.redirect page.setup.createPage))

/-- Take over what the timers have made happen. -/
def applyAll (page : Page) (outcome : List Effect × Scheduler TimerKey Effect) : Page :=
  outcome.1.foldl apply { page with timers := outcome.2 }

/-- Let the timers do what is due. -/
def settle (page : Page) : Page :=
  page.applyAll page.timers.settle

/-- Move the clock and let the timers do what is due then. -/
def advance (page : Page) (milliseconds : Nat) : Page :=
  page.applyAll (page.timers.advance milliseconds)

end Page

end DropRoom
