import DropRoom.Room.Reader
import DropRoom.Room.Visit

namespace DropRoom.Room.Visit

/-!
# Following a stream

* `listen` — begin to listen, with all that the reader brings of connections in
  order;
* `follow` — take up inputs, and wait as long as the reader does.
-/

/-- A reader brings inputs in order, and has finished. -/
def deliverAll (v : Visit) (reader : Nat) (inputs : List Input) : Visit :=
  (inputs.foldl (fun v input => v.deliver reader input) v).finish reader

/-- Begin to listen.  The reader brings what there is of connections in order. -/
def listen (v : Visit) (policy : Reconnection) (connections : List Connection) :
    Except FeedError Visit :=
  v.connect.map fun v =>
    match v.feed.reader with
    | none => v
    | some reader => v.deliverAll reader (Reader.run policy .initial connections)

/-- Wait as long as the reader that brought an input does. -/
def await (v : Visit) : Input → Visit
  | .reconnecting _ delay => v.advance delay
  | _ => v

/-- Take up at most so many inputs; an answer without an input is the last one. -/
def follow : Nat → Visit → List Feed.Taken × Visit
  | 0, v => ([], v)
  | count + 1, v =>
    match v.nextInput with
    | (.input input, v) =>
      let (more, v) := follow count ((v.handle input).await input).settle
      (.input input :: more, v)
    | (taken, v) => ([taken], v)

end DropRoom.Room.Visit
