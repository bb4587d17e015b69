import DropRoom.Json.Decoder

namespace DropRoom.Json

/-!
# Records and tagged variants

A record is an object with known fields, or an array of their values in order.
Members of other names are passed over.  A variant is told by its tag, which may
stand anywhere in its object.

* `Record` — the fields of a record and how to build it, made by `Record.start`
  followed by `required`, `nullable` and `defaulted`;
* `Record.decoder` — the decoder of a record;
* `tagged` — variants whose fields stand beside the tag;
* `adjacent` — variants whose content stands under a name of its own.
-/

/-! ### Records -/

/-- What a document holds in the place of a field. -/
inductive Slot where
  /-- A value. -/
  | given (value : Reading)
  /-- An object without the field. -/
  | absent
  /-- An array that ends before the field. -/
  | short
  /-- A text that is broken where the field would be. -/
  | broken (fault : Fault)

/-- The value of a field that must be given. -/
def Slot.required {α : Type} (name : String) (decode : Decoder α) (source : Source) :
    Slot → Except DecodeError α
  | .given r => decode source r
  | .absent => .error (.missingField name)
  | .short => .error .mismatch
  | .broken f => .error (.fault f)

/-- The value of a field that objects may leave out. -/
def Slot.nullable {α : Type} (decode : Decoder α) (source : Source) :
    Slot → Except DecodeError (Option α)
  | .given r => Decoder.nullable decode source r
  | .absent => .ok none
  | .short => .error .mismatch
  | .broken f => .error (.fault f)

/-- The value of a field that may be left out, and then has a default. -/
def Slot.defaulted {α : Type} (decode : Decoder α) (default : α) (source : Source) :
    Slot → Except DecodeError α
  | .given r => decode source r
  | .absent => .ok default
  | .short => .ok default
  | .broken f => .error (.fault f)

/-- A field: its names, the first of which is used in messages, and the check of its value. -/
structure Field where
  names : List String
  check : Source → Reading → Except DecodeError Unit

/-- The name of a field in messages. -/
def Field.name (field : Field) : String :=
  field.names.headD ""

/-- The fields of a record in order, and how its value is built from what stands in their
places. -/
structure Record (α : Type) where
  fields : List Field
  build : Source → List Slot → Except DecodeError (α × List Slot)

namespace Record

variable {α β : Type}

/-- A record without fields. -/
def start (a : α) : Record α :=
  ⟨[], fun _ slots => .ok (a, slots)⟩

/-- Add a field with its names, the check of its value, and what its place means. -/
def field (r : Record (β → α)) (names : List String)
    (check : Source → Reading → Except DecodeError Unit)
    (take : Source → Slot → Except DecodeError β) : Record α where
  fields := r.fields ++ [⟨names, check⟩]
  build source slots :=
    match r.build source slots with
    | .error e => .error e
    | .ok (_, []) => .error .mismatch
    | .ok (f, slot :: rest) => (take source slot).map fun b => (f b, rest)

/-- The check of a value by a decoder. -/
def checkOf (decode : Decoder β) (source : Source) (r : Reading) : Except DecodeError Unit :=
  (decode source r).map fun _ => ()

/-- A field that must be given. -/
def required (r : Record (β → α)) (name : String) (decode : Decoder β) : Record α :=
  r.field [name] (checkOf decode) (Slot.required name decode)

/-- A field that may be null, and that an object may leave out. -/
def nullable (r : Record (Option β → α)) (name : String) (decode : Decoder β) : Record α :=
  r.field [name] (checkOf (Decoder.nullable decode)) (Slot.nullable decode)

/-- A field that may be left out, and then has a default. -/
def defaulted (r : Record (β → α)) (name : String) (decode : Decoder β) (default : β) :
    Record α :=
  r.field [name] (checkOf decode) (Slot.defaulted decode default)

/-- A field with a default that has a second name. -/
def aliased (r : Record (β → α)) (name other : String) (decode : Decoder β) (default : β) :
    Record α :=
  r.field [name, other] (checkOf decode) (Slot.defaulted decode default)

/-- The field of a name. -/
def find? (fields : List Field) (name : String) : Option Field :=
  fields.find? fun field => field.names.contains name

/-- Check the members of an object in order: a known field must not be repeated and must hold a
value of its type, and any other member is passed over. -/
def checkMembers (fields : List Field) (source : Source) :
    List String → Members → Except DecodeError Unit
  | _, .close => .ok ()
  | _, .broken f => .error (.fault f)
  | seen, .cons key content rest =>
    match key.read with
    | .error f => .error (.fault f)
    | .ok name =>
      match find? fields name with
      | none =>
        match content.skip with
        | .error f => .error (.fault f)
        | .ok () => checkMembers fields source seen rest
      | some field =>
        if seen.contains field.name then .error (.duplicateField field.name)
        else
          match field.check source content with
          | .error e => .error e
          | .ok () => checkMembers fields source (field.name :: seen) rest

/-- What an object holds in the place of a field. -/
def slotOf (field : Field) : Members → Slot
  | .close => .absent
  | .broken f => .broken f
  | .cons key content rest =>
    match key.read with
    | .error f => .broken f
    | .ok name => if field.names.contains name then .given content else slotOf field rest

/-- What an array holds in the places of its first `n` fields, and what is left of it. -/
def slots : Nat → Items → List Slot × Items
  | 0, items => ([], items)
  | n + 1, .close => (List.replicate (n + 1) .short, .close)
  | n + 1, .broken f => (List.replicate (n + 1) (.broken f), .broken f)
  | n + 1, .cons item rest =>
    let (more, left) := slots n rest
    (.given item :: more, left)

/-- The decoder of a record. -/
def decoder (r : Record α) : Decoder α
  | source, .object contents =>
    match checkMembers r.fields source [] contents with
    | .error e => .error e
    | .ok () => (r.build source (r.fields.map fun field => slotOf field contents)).map (·.1)
  | source, .array items =>
    let (places, left) := slots r.fields.length items
    match r.build source places with
    | .error e => .error e
    | .ok (a, _) =>
      match left with
      | .close => .ok a
      | .broken f => .error (.fault f)
      | .cons _ _ => .error source.misplaced
  | _, .deep _ => .error (.fault .malformed)
  | _, r => .error r.reject

end Record

/-! ### Variants -/

/-- A variant without content: it passes over the members of an object, and takes an empty
array. -/
def unitVariant {α : Type} (a : α) : Decoder α
  | _, .array (.cons _ _) => .error .mismatch
  | _, _ => .ok a

/-- The variant that a tag names.  In a part that was held back the tag may also be the position
of the variant. -/
def variantOf {α : Type} (variants : List (String × Decoder α)) (source : Source) (tag : Reading) :
    Except DecodeError (Decoder α) :=
  match source, tag with
  | .held, .number (.integer n) =>
    match if 0 ≤ n then variants[n.toNat]? else none with
    | some entry => .ok entry.2
    | none => .error .mismatch
  | _, .text t =>
    match t.read with
    | .error f => .error (.fault f)
    | .ok name => Decoder.lookup variants name
  | _, r => .error r.reject

/-- Look for the tag among the members of an object and hold back the others. -/
def splitTag {α : Type} (tag : String) (variants : List (String × Decoder α)) (source : Source) :
    Option (Decoder α) → Members →
      Except DecodeError (Option (Decoder α) × List (String × Json))
  | found, .close => .ok (found, [])
  | _, .broken f => .error (.fault f)
  | found, .cons key content rest =>
    match key.read with
    | .error f => .error (.fault f)
    | .ok name =>
      if name = tag then
        match found with
        | some _ => .error (.duplicateField tag)
        | none =>
          match variantOf variants source content with
          | .error e => .error e
          | .ok variant => splitTag tag variants source (some variant) rest
      else
        match content.complete with
        | .error f => .error (.fault f)
        | .ok value =>
          match splitTag tag variants source found rest with
          | .error e => .error e
          | .ok (found, others) => .ok (found, (name, value) :: others)

/-- Variants whose fields stand beside their tag, or after it in an array. -/
def tagged {α : Type} (tag : String) (variants : List (String × Decoder α)) : Decoder α
  | source, .object contents =>
    match splitTag tag variants source none contents with
    | .error e => .error e
    | .ok (none, _) => .error (.missingField tag)
    | .ok (some variant, others) => variant .held (Reading.ofJson (.object others))
  | _, .array .close => .error (.missingField tag)
  | _, .array (.broken f) => .error (.fault f)
  | source, .array (.cons first rest) =>
    match variantOf variants source first with
    | .error e => .error e
    | .ok variant =>
      match rest.complete with
      | .error f => .error (.fault f)
      | .ok values => variant .held (Reading.ofJson (.array values))
  | _, .deep _ => .error (.fault .malformed)
  | _, r => .error r.reject

/-- What has been read of an object with a tag and a content. -/
inductive Adjacent (β α : Type) where
  /-- Neither of the two. -/
  | neither
  /-- The tag, which says what becomes of the content. -/
  | tag (make : β → α)
  /-- The content, held back. -/
  | content (value : Json)
  /-- Both. -/
  | both (a : α)

/-- Read the members of an object with a tag and a content, in whatever order. -/
def adjacentMembers {α β : Type} (tag content : String) (variants : List (String × (β → α)))
    (decode : Decoder β) (source : Source) :
    Adjacent β α → Members → Except DecodeError α
  | _, .broken f => .error (.fault f)
  | .neither, .close => .error (.missingField tag)
  | .tag _, .close => .error (.missingField content)
  | .content _, .close => .error (.missingField tag)
  | .both a, .close => .ok a
  | state, .cons key inner rest =>
    match key.read with
    | .error f => .error (.fault f)
    | .ok name =>
      if name = tag then
        match state with
        | .tag _ => .error (.duplicateField tag)
        | .both _ => .error (.duplicateField tag)
        | .neither =>
          match Decoder.name variants source inner with
          | .error e => .error e
          | .ok make => adjacentMembers tag content variants decode source (.tag make) rest
        | .content value =>
          match Decoder.name variants source inner with
          | .error e => .error e
          | .ok make =>
            match decode .held (Reading.ofJson value) with
            | .error e => .error e
            | .ok b => adjacentMembers tag content variants decode source (.both (make b)) rest
      else if name = content then
        match state with
        | .content _ => .error (.duplicateField content)
        | .both _ => .error (.duplicateField content)
        | .neither =>
          match inner.complete with
          | .error f => .error (.fault f)
          | .ok value => adjacentMembers tag content variants decode source (.content value) rest
        | .tag make =>
          match decode source inner with
          | .error e => .error e
          | .ok b => adjacentMembers tag content variants decode source (.both (make b)) rest
      else
        match inner.skip with
        | .error f => .error (.fault f)
        | .ok () => adjacentMembers tag content variants decode source state rest

/-- Variants that all hold one content of one type, under a name of its own. -/
def adjacent {α β : Type} (tag content : String) (variants : List (String × (β → α)))
    (decode : Decoder β) : Decoder α
  | source, .object contents =>
    adjacentMembers tag content variants decode source .neither contents
  | source, .array items =>
    match Record.slots 2 items with
    | ([first, second], left) =>
      match Slot.required tag (Decoder.name variants) source first with
      | .error e => .error e
      | .ok make =>
        match Slot.required content decode source second with
        | .error e => .error e
        | .ok b =>
          match left with
          | .close => .ok (make b)
          | .broken f => .error (.fault f)
          | .cons _ _ => .error source.misplaced
    | _ => .error .mismatch
  | _, .deep _ => .error (.fault .malformed)
  | _, r => .error r.reject

end DropRoom.Json
