import DropRoom.Cache.Classifier
import DropRoom.Cache.Serving
import DropRoom.Http.Json

namespace DropRoom.Cache

/-!
# The cache within documents

* `Store.toJson` — the partitions of a store in order, with their entries sorted by
  key;
* `Decision.toJson` — what becomes of a request;
* `Served.toJson`, `InstallReport.toJson` — what the engine did.
-/

/-- The keys of a partition as texts, sorted. -/
def Store.sortedKeys (store : Store) (partition : String) : List String :=
  ((store.keys partition).map Key.render).mergeSort fun a b => decide (a ≤ b)

/-- Entries as a JSON value, sorted by key. -/
def Entries.toJson (entries : Entries) : Json :=
  .array ((entries.mergeSort fun a b => decide (a.1.render ≤ b.1.render)).map fun entry =>
    .array [.string entry.1.render, .nat entry.2.status, Bytes.toJson entry.2.body])

/-- A store as a JSON value. -/
def Store.toJson (store : Store) : Json :=
  .array (store.contents.map fun part => .array [.string part.1, Entries.toJson part.2])

/-- The name of a reason. -/
def PassReason.name : PassReason → String
  | .nonGet => "NonGet"
  | .unsupportedScheme => "UnsupportedScheme"
  | .eventStream => "EventStream"
  | .dynamic => "Dynamic"

/-- What becomes of a request as a JSON value. -/
def Decision.toJson : Decision → Json
  | .pass reason => .object [("pass", .string reason.name)]
  | .intercept kind strategy => .object [("intercept", .strings [kind.name, strategy.name])]

/-- The decoder of a rule: a class and its matchers. -/
def Rule.ofJson : Json → Except Json.DecodeError Rule
  | .array [kind, matchers] =>
    match Json.decodeValue Kind.decoder kind with
    | .error e => .error e
    | .ok kind => (Json.decodeValue (.list Matcher.decoder) matchers).map (Rule.mk kind)
  | _ => .error .mismatch

/-- An answer with its source as a JSON value. -/
def Served.toJson (served : Served) : Json :=
  .object [("source", .string served.source.name), ("response", served.response.toJson)]

/-- A report as a JSON value. -/
def InstallReport.toJson (report : InstallReport) : Json :=
  .object [("cached", .strings report.cached), ("failed", .strings report.failed)]

end DropRoom.Cache
