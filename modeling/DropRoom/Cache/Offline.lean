import DropRoom.Http.Message
import DropRoom.Json.Printer

namespace DropRoom.Cache.Offline

/-!
# Answers without a network

* `page` — the answer to a request for a document;
* `notice` — the answer to a request to the interface of the server.

A header marks both.
-/

open Http (Response)

/-- The header that marks an answer as made without a network. -/
def markHeader : String := "x-eventdrop-offline"

/-- The text of the notice. -/
def message : String :=
  "You're offline. EventDrop needs an internet connection for real-time file sharing."

/-- The lines of the page. -/
def pageLines : List String := [
  "<!DOCTYPE html>",
  "<html lang=\"en\">",
  "<head>",
  "  <meta charset=\"utf-8\">",
  "  <meta name=\"viewport\" content=\"width=device-width, initial-scale=1\">",
  "  <title>EventDrop - Offline</title>",
  "  <style>",
  "    body \x7b font-family: system-ui, sans-serif; background: #0f172a; color: #e2e8f0;",
  "           display: flex; align-items: center; justify-content: center; min-height: 100vh; margin: 0; \x7d",
  "    .card \x7b max-width: 420px; padding: 2rem; text-align: center; border-radius: 12px; background: #1e293b; \x7d",
  "    h1 \x7b font-size: 1.5rem; margin-bottom: 0.5rem; \x7d",
  "    p \x7b color: #94a3b8; line-height: 1.5; \x7d",
  "    button \x7b margin-top: 1rem; padding: 0.6rem 1.4rem; border: 0; border-radius: 8px;",
  "             background: #6366f1; color: white; font-size: 1rem; cursor: pointer; \x7d",
  "  </style>",
  "</head>",
  "<body>",
  "  <div class=\"card\">",
  "    <h1>You're offline</h1>",
  "    <p>EventDrop needs an internet connection for real-time file sharing. Check your connection and try again.</p>",
  "    <button onclick=\"window.location.reload()\">Try again</button>",
  "  </div>",
  "  <script>",
  "    window.addEventListener('online', function () \x7b window.location.reload(); \x7d);",
  "  </script>",
  "</body>",
  "</html>"]

/-- The page, each line of which ends in a line feed. -/
def pageText : String :=
  String.join (pageLines.map (· ++ "\n"))

/-- The answer to a request for a document. -/
def page : Response :=
  Response.ofBody 200 (Utf8.encode pageText)
    |>.withHeader "content-type" "text/html; charset=utf-8"
    |>.withHeader markHeader "1"

/-- The document of the notice for a path. -/
def noticeDocument (path : String) : Json :=
  .object [("message", .string message), ("offline", .bool true), ("path", .string path)]

/-- The answer to a request to the interface of the server. -/
def notice (path : String) : Response :=
  Response.ofBody 503 (Utf8.encode (noticeDocument path).render)
    |>.withHeader "content-type" "application/json"
    |>.withHeader markHeader "1"

end DropRoom.Cache.Offline
