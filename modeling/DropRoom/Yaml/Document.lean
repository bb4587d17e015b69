import DropRoom.Yaml.Token

namespace DropRoom.Yaml

/-!
# YAML texts of one document

* `Reading` — the tokens that are left, the nodes that have been given names, and
  what handles stand for;
* `node?` — the node that comes next;
* `parse` — the one document of a text.
-/

/-- A place in a run of tokens. -/
structure Reading where
  tokens : List Token
  /-- The nodes that references are to, the latest of a name first. -/
  anchors : List (String × Node)
  handles : List (String × String)

namespace Reading

/-- The token that comes next. -/
def next (r : Reading) : Option Token :=
  r.tokens.head?

/-- The place after the next token. -/
def drop (r : Reading) : Reading :=
  { r with tokens := r.tokens.drop 1 }

/-- Whether one of the given tokens comes next. -/
def isAt (r : Reading) (tokens : List Token) : Bool :=
  r.next.any tokens.contains

end Reading

/-- What stands before a node. -/
structure Properties where
  anchor : Option String
  tag : Option Tag

/-- The anchor and the tag before a node, in either order. -/
def properties (r : Reading) : Properties × Reading :=
  match r.tokens with
  | .anchor name :: .tag tag :: rest => (⟨some name, some tag⟩, { r with tokens := rest })
  | .tag tag :: .anchor name :: rest => (⟨some name, some tag⟩, { r with tokens := rest })
  | .anchor name :: rest => (⟨some name, none⟩, { r with tokens := rest })
  | .tag tag :: rest => (⟨none, some tag⟩, { r with tokens := rest })
  | _ => (⟨none, none⟩, r)

/-- The tag of a node in full, if it has one. -/
def Properties.fullTag? (p : Properties) (r : Reading) : Option (Option String) :=
  match p.tag with
  | none => some none
  | some tag => (tag.resolve? r.handles).map some

/-- Give a node that was read its name. -/
def Properties.name (p : Properties) (result : Node × Reading) : Node × Reading :=
  match p.anchor with
  | some name => (result.1, { result.2 with anchors := (name, result.1) :: result.2.anchors })
  | none => result

/-- The node of items that were read. -/
def asSequence (tag : Option String) (result : List Node × Reading) : Node × Reading :=
  (.sequence result.1 tag, result.2)

/-- The node of entries that were read. -/
def asMapping (tag : Option String) (result : List (Node × Node) × Reading) : Node × Reading :=
  (.mapping result.1 tag, result.2)

/-- Where a node stands, which says what collections it can be. -/
inductive Position where
  /-- Within brackets. -/
  | flow
  /-- A document, or an item. -/
  | block
  /-- A key or a value, whose dashes may stand in the column of the key. -/
  | member
  deriving DecidableEq

mutual

/-- The node that comes next. -/
def node? (fuel : Nat) (position : Position) (r : Reading) : Option (Node × Reading) :=
  match fuel with
  | 0 => none
  | fuel + 1 =>
    match r.next with
    | some (.reference name) => (r.anchors.lookup name).map fun node => (node, r.drop)
    | _ => do
      let (p, r) := properties r
      let tag ← p.fullTag? r
      let result ←
        match r.next with
        | some (.scalar text style) =>
          some (.scalar text style (if tag = some "!" then none else tag), r.drop)
        | some .dash =>
          if position = .member then (dashItems? fuel [] r).map (asSequence tag)
          else unwritten p tag r
        | some .openBracket => (flowItems? fuel [] r.drop).map (asSequence tag)
        | some .openBrace => (flowEntries? fuel [] r.drop).map (asMapping tag)
        | some .sequenceStart =>
          if position = .flow then unwritten p tag r
          else (blockItems? fuel [] r.drop).map (asSequence tag)
        | some .mappingStart =>
          if position = .flow then unwritten p tag r
          else (blockEntries? fuel [] r.drop).map (asMapping tag)
        | _ => unwritten p tag r
      return p.name result
where
  /-- A node of which only the name or the tag is written. -/
  unwritten (p : Properties) (tag : Option String) (r : Reading) : Option (Node × Reading) :=
    if p.anchor.isSome ∨ p.tag.isSome then some (.scalar "" .plain tag, r) else none

/-- The node that comes next, or the empty one where one of the given tokens stands instead. -/
def nodeUnless? (fuel : Nat) (position : Position) (ends : List Token) (r : Reading) :
    Option (Node × Reading) :=
  match fuel with
  | 0 => none
  | fuel + 1 => if r.isAt ends then some (.empty, r) else node? fuel position r

/-- The items of a sequence that has a column of its own. -/
def blockItems? (fuel : Nat) (done : List Node) (r : Reading) : Option (List Node × Reading) :=
  match fuel with
  | 0 => none
  | fuel + 1 =>
    match r.next with
    | some .dash => do
      let (item, r) ← nodeUnless? fuel .block [.dash, .blockEnd] r.drop
      blockItems? fuel (item :: done) r
    | some .blockEnd => some (done.reverse, r.drop)
    | _ => none

/-- The items of a sequence in the column of its key. -/
def dashItems? (fuel : Nat) (done : List Node) (r : Reading) : Option (List Node × Reading) :=
  match fuel with
  | 0 => none
  | fuel + 1 =>
    if r.next = some .dash then do
      let (item, r) ← nodeUnless? fuel .block [.dash, .key, .value, .blockEnd] r.drop
      dashItems? fuel (item :: done) r
    else some (done.reverse, r)

/-- The entries of a mapping that has a column of its own. -/
def blockEntries? (fuel : Nat) (done : List (Node × Node)) (r : Reading) :
    Option (List (Node × Node) × Reading) :=
  match fuel with
  | 0 => none
  | fuel + 1 =>
    match r.next with
    | some .key => do
      let ends := [.key, .value, .blockEnd]
      let (key, r) ← nodeUnless? fuel .member ends r.drop
      let (value, r) ←
        if r.next = some .value then nodeUnless? fuel .member ends r.drop else some (.empty, r)
      blockEntries? fuel ((key, value) :: done) r
    | some .blockEnd => some (done.reverse, r.drop)
    | _ => none

/-- The items of a sequence up to its closing bracket; an item may be a mapping of one entry. -/
def flowItems? (fuel : Nat) (done : List Node) (r : Reading) : Option (List Node × Reading) :=
  match fuel with
  | 0 => none
  | fuel + 1 =>
    match r.next with
    | some .closeBracket => some (done.reverse, r.drop)
    | some .key => do
      let (key, r) ← flowPairKey? fuel r.drop
      let (value, r) ← flowValue? fuel .closeBracket r
      flowItemsAfter? fuel (.mapping [(key, value)] none :: done) r
    | _ => do
      let (item, r) ← node? fuel .flow r
      flowItemsAfter? fuel (item :: done) r

/-- The key of an entry that is an item; a mark that stands instead of a key is passed over. -/
def flowPairKey? (fuel : Nat) (r : Reading) : Option (Node × Reading) :=
  match fuel with
  | 0 => none
  | fuel + 1 =>
    if r.isAt [.value, .comma, .closeBracket] then some (.empty, r.drop) else node? fuel .flow r

/-- The value after a key within brackets, if there is one. -/
def flowValue? (fuel : Nat) (close : Token) (r : Reading) : Option (Node × Reading) :=
  match fuel with
  | 0 => none
  | fuel + 1 =>
    if r.next = some .value then nodeUnless? fuel .flow [.comma, close] r.drop
    else some (.empty, r)

/-- The items of a sequence after one of them. -/
def flowItemsAfter? (fuel : Nat) (done : List Node) (r : Reading) : Option (List Node × Reading) :=
  match fuel with
  | 0 => none
  | fuel + 1 =>
    match r.next with
    | some .comma => flowItems? fuel done r.drop
    | some .closeBracket => some (done.reverse, r.drop)
    | _ => none

/-- The entries of a mapping up to its closing brace; a key may stand without a value. -/
def flowEntries? (fuel : Nat) (done : List (Node × Node)) (r : Reading) :
    Option (List (Node × Node) × Reading) :=
  match fuel with
  | 0 => none
  | fuel + 1 =>
    match r.next with
    | some .closeBrace => some (done.reverse, r.drop)
    | some .key => do
      let (key, r) ← nodeUnless? fuel .flow [.value, .comma, .closeBrace] r.drop
      let (value, r) ← flowValue? fuel .closeBrace r
      flowEntriesAfter? fuel ((key, value) :: done) r
    | _ => do
      let (key, r) ← node? fuel .flow r
      flowEntriesAfter? fuel ((key, .empty) :: done) r

/-- The entries of a mapping after one of them. -/
def flowEntriesAfter? (fuel : Nat) (done : List (Node × Node)) (r : Reading) :
    Option (List (Node × Node) × Reading) :=
  match fuel with
  | 0 => none
  | fuel + 1 =>
    match r.next with
    | some .comma => flowEntries? fuel done r.drop
    | some .closeBrace => some (done.reverse, r.drop)
    | _ => none

end

/-! ### Documents -/

/-- What handles stand for after the directives before a document.  The version is given at most
once and has to be known, and no handle is given twice. -/
def handlesOf? (directives : List Directive) : Option (List (String × String)) :=
  let versions := directives.filterMap fun
    | .version major minor => some (major, minor)
    | _ => none
  let handles := directives.filterMap fun
    | .handle handle meaning => some (handle, meaning)
    | _ => none
  if versions.length ≤ 1 ∧ versions.all (fun v => v == (1, 1) || v == (1, 2)) ∧
      (handles.map (·.1)).Nodup then
    some (handles ++ usualHandles)
  else none

/-- The directives in front of a run of tokens. -/
def directivesOf (tokens : List Token) : List Directive :=
  (tokens.takeWhile fun | .directive _ => true | _ => false).filterMap fun
    | .directive d => some d
    | _ => none

/-- The document at the front of a run of tokens. -/
def document? (tokens : List Token) : Option (Node × Reading) := do
  let directives := directivesOf tokens
  let r : Reading := ⟨tokens.drop directives.length, [], ← handlesOf? directives⟩
  let fuel := 4 * tokens.length + 8
  if r.next = some .documentStart then
    let r := r.drop
    if r.next.isNone ∨ r.isAt [.documentStart, .documentEnd] then return (.empty, r)
    else node? fuel .block r
  else if directives.isEmpty then node? fuel .block r
  else none

/-- The one document of a text. -/
def parse (text : String) : Option Node := do
  let tokens ← tokens? text
  let (node, r) ← document? tokens
  if r.tokens.all (· == .documentEnd) then some node else none

end DropRoom.Yaml
