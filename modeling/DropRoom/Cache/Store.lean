import DropRoom.Cache.Key
import DropRoom.Http.Message

namespace DropRoom.Cache

/-!
# Stores

A store keeps responses under keys in named partitions.  Partitions stay in the
order in which they were made.

* `Store` — the partitions with their entries;
* `Store.open_`, `Store.put`, `Store.deletePartition` — the changes;
* `Store.get?`, `Store.partitions`, `Store.keys`, `Store.size` — what is kept;
* `Store.matchAny?` — look a key up in all partitions, some of them first.
-/

open Http (Response)

/-- The entries of a partition, each key once. -/
abbrev Entries := List (Key × Response)

/-- Set the response of a key. -/
def Entries.insert (key : Key) (response : Response) : Entries → Entries
  | [] => [(key, response)]
  | entry :: entries =>
    if entry.1 = key then (key, response) :: entries else entry :: insert key response entries

/-- The response of a key. -/
def Entries.get? (key : Key) (entries : Entries) : Option Response :=
  (entries.find? fun entry => entry.1 = key).map (·.2)

/-- Partitions with their entries, each name once, in the order in which they were made. -/
structure Store where
  contents : List (String × Entries)
  deriving DecidableEq, Repr

namespace Store

/-- A store without partitions. -/
def empty : Store := ⟨[]⟩

/-- Change the entries of a partition, which is made if it is not there. -/
def update (name : String) (change : Entries → Entries) :
    List (String × Entries) → List (String × Entries)
  | [] => [(name, change [])]
  | part :: parts =>
    if part.1 = name then (name, change part.2) :: parts else part :: update name change parts

/-- Make a partition if it is not there. -/
def open_ (store : Store) (partition : String) : Store :=
  ⟨update partition id store.contents⟩

/-- Keep a response under a key of a partition. -/
def put (store : Store) (partition : String) (key : Key) (response : Response) : Store :=
  ⟨update partition (Entries.insert key response) store.contents⟩

/-- The entries of a partition. -/
def entries (store : Store) (partition : String) : Entries :=
  ((store.contents.find? fun part => part.1 = partition).map (·.2)).getD []

/-- The response under a key of a partition. -/
def get? (store : Store) (partition : String) (key : Key) : Option Response :=
  (store.entries partition).get? key

/-- The names of the partitions. -/
def partitions (store : Store) : List String :=
  store.contents.map (·.1)

/-- Delete a partition with its entries; whether it was there. -/
def deletePartition (store : Store) (partition : String) : Bool × Store :=
  (decide (partition ∈ store.partitions),
    ⟨store.contents.filter fun part => part.1 ≠ partition⟩)

/-- The keys of a partition. -/
def keys (store : Store) (partition : String) : List Key :=
  (store.entries partition).map (·.1)

/-- The number of entries in all partitions. -/
def size (store : Store) : Nat :=
  store.contents.foldr (fun part count => part.2.length + count) 0

/-- The response under a key in the first partition that has one: of the preferred ones in their
order, then of the others in the order in which they were made. -/
def matchAny? (store : Store) (preferred : List String) (key : Key) : Option Response :=
  let others := store.partitions.filter fun name => !preferred.contains name
  (preferred ++ others).findSome? fun name => store.get? name key

end Store

end DropRoom.Cache
