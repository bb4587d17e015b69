import DropRoom.Page.Basic

namespace DropRoom.Page

/-!
# Leaving a page

All redirects share one timer, so that at most one is pending.

* `redirect` — leave the page after a delay;
* `redirectPending`, `cancelRedirect`;
* `openDownload` — open an address at once.
-/

/-- Leave the page after a delay, unless a redirect is pending; whether it was accepted. -/
def redirect (page : Page) (delay : Nat) : Bool × Page :=
  let (accepted, timers) := page.timers.schedule .redirect delay (.emit .redirect .finish)
  (accepted, { page with timers := timers })

/-- Whether a redirect is pending. -/
def redirectPending (page : Page) : Bool :=
  page.timers.isPending .redirect

/-- Cancel the pending redirect; whether there was one. -/
def cancelRedirect (page : Page) : Bool × Page :=
  let (cancelled, timers) := page.timers.cancel .redirect
  (cancelled, { page with timers := timers })

/-- Open the address of a download at once. -/
def openDownload (page : Page) (url : String) : Page :=
  page.publish (.navigation (.download url))

end DropRoom.Page
