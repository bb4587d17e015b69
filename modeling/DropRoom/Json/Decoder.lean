import DropRoom.Json.Reader

namespace DropRoom.Json

/-!
# Typed documents

A decoder takes the tree of a JSON text to a typed value or to the first thing
that is wrong with it, reading from left to right.

* `Source` — where a tree comes from, which decides how a surplus element is told;
* `DecodeError` — what can be wrong;
* `Decoder` and the decoders of truth values, numbers, texts, lists and names;
* `decodeText`, `decodeValue` — decode a whole text, a value.
-/

/-- Where a tree comes from. -/
inductive Source where
  /-- A text that is being read. -/
  | text
  /-- A value that was read before. -/
  | value
  /-- A part of a document that was held back until the type of the document was known. -/
  | held
  deriving DecidableEq, Repr

/-- What is wrong with a document. -/
inductive DecodeError where
  /-- The text is not JSON, or ended too early. -/
  | fault (fault : Fault)
  /-- A value has the wrong type or is out of range. -/
  | mismatch
  /-- A field that the document needs is not there. -/
  | missingField (name : String)
  /-- A field is given twice. -/
  | duplicateField (name : String)
  /-- A text is not a point in time. -/
  | invalidTimestamp (text : String)
  deriving DecidableEq, Repr

/-- The three kinds of failure: the input ended, is not JSON, or has the wrong shape. -/
inductive DecodeError.Category where
  | ended
  | syntactic
  | data
  deriving DecidableEq, Repr

/-- The kind of a failure. -/
def DecodeError.category : DecodeError → Category
  | .fault .ended => .ended
  | .fault .malformed => .syntactic
  | _ => .data

/-- The text of a failure, for the failures that name something. -/
def DecodeError.message? : DecodeError → Option String
  | .fault _ => none
  | .mismatch => none
  | .missingField name => some ("missing field \x60" ++ name ++ "\x60")
  | .duplicateField name => some ("duplicate field \x60" ++ name ++ "\x60")
  | .invalidTimestamp text => some ("invalid timestamp '" ++ text ++ "'")

/-- The failure of an element or value that has no place in its document: in a text that is being
read it is out of place, in a value it is of the wrong shape. -/
def Source.misplaced : Source → DecodeError
  | .text => .fault .malformed
  | _ => .mismatch

/-- A reader of one type of document. -/
abbrev Decoder (α : Type) := Source → Reading → Except DecodeError α

/-- The failure of a value of the wrong type.  Scalars are read first, so that a broken scalar is
reported as broken. -/
def Reading.reject : Reading → DecodeError
  | .text t =>
    match t.read with
    | .error f => .fault f
    | .ok _ => .mismatch
  | .number n => if n.overflows then .fault .malformed else .mismatch
  | .broken f => .fault f
  | _ => .mismatch

/-- Carry a fault of the text over to the document. -/
def ofFault {α : Type} : Except Fault α → Except DecodeError α
  | .ok a => .ok a
  | .error f => .error (.fault f)

namespace Decoder

variable {α β : Type}

/-- A text. -/
def string : Decoder String
  | _, .text t => ofFault t.read
  | _, r => .error r.reject

/-- A truth value. -/
def bool : Decoder Bool
  | _, .bool b => .ok b
  | _, r => .error r.reject

/-- An integer between two bounds, both included. -/
def intBetween (least greatest : Int) : Decoder Int
  | _, .number (.integer n) =>
    if least ≤ n ∧ n ≤ greatest then .ok n
    else .error (Reading.number (.integer n)).reject
  | _, r => .error r.reject

/-- A natural number below a bound. -/
def natBelow (bound : Nat) : Decoder Nat := fun source r =>
  (intBetween 0 (bound - 1 : Int) source r).map Int.toNat

/-- An unsigned integer of 8 bits. -/
def uint8 : Decoder UInt8 := fun source r =>
  (natBelow UInt8.size source r).map UInt8.ofNat

/-- An unsigned integer of 16 bits. -/
def uint16 : Decoder UInt16 := fun source r =>
  (natBelow UInt16.size source r).map UInt16.ofNat

/-- An unsigned integer of 32 bits. -/
def uint32 : Decoder UInt32 := fun source r =>
  (natBelow UInt32.size source r).map UInt32.ofNat

/-- An unsigned integer of 64 bits. -/
def uint64 : Decoder UInt64 := fun source r =>
  (natBelow UInt64.size source r).map UInt64.ofNat

/-- A signed integer of 64 bits. -/
def int64 : Decoder Int64 := fun source r =>
  (intBetween (-0x8000000000000000) 0x7fffffffffffffff source r).map Int64.ofInt

/-- Any value. -/
def any : Decoder Json := fun _ r =>
  ofFault r.complete

/-- A value or null. -/
def nullable (decode : Decoder α) : Decoder (Option α)
  | _, .null => .ok none
  | source, r => (decode source r).map some

/-- The items of an array, from left to right. -/
def listItems (decode : Decoder α) (source : Source) : Items → Except DecodeError (List α)
  | .close => .ok []
  | .broken f => .error (.fault f)
  | .cons item rest =>
    match decode source item with
    | .error e => .error e
    | .ok a => (listItems decode source rest).map (a :: ·)

/-- An array. -/
def list (decode : Decoder α) : Decoder (List α)
  | source, .array items => listItems decode source items
  | _, .deep _ => .error (.fault .malformed)
  | _, r => .error r.reject

/-- Decode, then check and convert. -/
def bind (decode : Decoder α) (next : α → Except DecodeError β) : Decoder β := fun source r =>
  match decode source r with
  | .error e => .error e
  | .ok a => next a

/-- Decode, then convert. -/
def map (f : α → β) (decode : Decoder α) : Decoder β := fun source r =>
  (decode source r).map f

/-- The meaning of a name in a table. -/
def lookup (table : List (String × α)) (name : String) : Except DecodeError α :=
  match table.find? fun entry => entry.1 == name with
  | some entry => .ok entry.2
  | none => .error .mismatch

/-- One of a table of names, given as a text, or as an object with that one member, null.  In a
part that was held back an empty object does for null. -/
def name (table : List (String × α)) : Decoder α
  | _, .text t =>
    match t.read with
    | .error f => .error (.fault f)
    | .ok s => lookup table s
  | source, .object .close => .error source.misplaced
  | _, .object (.broken f) => .error (.fault f)
  | source, .object (.cons key content rest) =>
    match key.read with
    | .error f => .error (.fault f)
    | .ok s =>
      match lookup table s with
      | .error e => .error e
      | .ok a =>
        match source, content with
        | _, .null | .held, .object .close =>
          match rest with
          | .close => .ok a
          | .broken f => .error (.fault f)
          | .cons _ _ _ => .error source.misplaced
        | _, other => .error other.reject
  | _, .broken f => .error (.fault f)
  | _, .deep _ => .error (.fault .malformed)
  | source, _ => .error source.misplaced

end Decoder

/-- Decode a text that must hold one document and nothing else. -/
def decodeText {α : Type} (decode : Decoder α) (text : String) : Except DecodeError α :=
  let (tree, trailing) := read text
  match decode .text tree, trailing with
  | .error e, _ => .error e
  | .ok _, some f => .error (.fault f)
  | .ok a, none => .ok a

/-- Decode a value. -/
def decodeValue {α : Type} (decode : Decoder α) (value : Json) : Except DecodeError α :=
  decode .value (Reading.ofJson value)

end DropRoom.Json
