import DropRoom.Page.Basic
import DropRoom.Time.Json

namespace DropRoom.Page

/-!
# Toasts on a page

Toasts are kept in the order in which they appeared; none is merged with another.
Each but a persistent one is dismissed by a timer of its own.

* `push`, `pushPrompt`, `pushPersistent` — show a toast, and give its identifier;
* `remove` — take a toast off the page before its time;
* `clear` — take all toasts off the page.
-/

/-- Show a toast for a lifetime. -/
def display (page : Page) (message : String) (severity : Toast.Severity)
    (lifetime : Toast.Lifetime) : Uuid × Page :=
  let id := Uuid.ofNat page.toastCount
  let toast := ⟨id, message, severity, .sinceEpoch page.timers.now, lifetime⟩
  let page := { page with toasts := page.toasts ++ [toast], toastCount := page.toastCount + 1 }
  let page := page.publish (.toast (.shown toast))
  match lifetime with
  | .untilRemoved => (id, page)
  | .timed milliseconds =>
    let (_, timers) :=
      page.timers.schedule (.toast id) milliseconds.toNat (.emit (.dismiss id) .finish)
    (id, { page with timers := timers })

/-- Show a toast for the usual time. -/
def push (page : Page) (message : String) (severity : Toast.Severity) : Uuid × Page :=
  page.display message severity (.timed page.setup.toastLifetime)

/-- Show a toast that asks for something. -/
def pushPrompt (page : Page) (message : String) (severity : Toast.Severity) : Uuid × Page :=
  page.display message severity (.timed page.setup.promptLifetime)

/-- Show a toast until it is removed. -/
def pushPersistent (page : Page) (message : String) (severity : Toast.Severity) : Uuid × Page :=
  page.display message severity .untilRemoved

/-- Show a toast for the usual time, whatever its identifier. -/
def notify (page : Page) (message : String) (severity : Toast.Severity) : Page :=
  (page.push message severity).2

/-- Take a toast off the page and cancel its timer; whether it was there. -/
def remove (page : Page) (id : Uuid) : Bool × Page :=
  let (_, timers) := page.timers.cancel (.toast id)
  { page with timers := timers }.dismiss id

/-- Take all toasts off the page and cancel their timers. -/
def clear (page : Page) : Page :=
  (page.toasts.map (·.id)).foldl (fun page id => (page.remove id).2) page

end DropRoom.Page
