import DropRoom.Yaml.Node

namespace DropRoom.Yaml

/-!
# What YAML nodes are by their looks

Where no type is asked for, a scalar without quotes and without a tag is what it
looks like, and one with the tag of a type of the language has to look like it.

* `Value` — nothing, a truth value, an integer, another number, a text, or a
  collection;
* `Node.value?` — the value of a node.
-/

/-- A value. -/
inductive Value where
  | null
  | bool (b : Bool)
  | int (n : Int)
  /-- A number that is not written as an integer, or is too large for one. -/
  | float
  | text (s : String)
  | sequence (items : List Value)
  | mapping (entries : List (Value × Value))
  deriving Repr, Inhabited

/-! ### Scalars -/

/-- The truth value that a text stands for. -/
def truthValue? (text : String) : Option Bool :=
  if text = "true" ∨ text = "True" ∨ text = "TRUE" then some true
  else if text = "false" ∨ text = "False" ∨ text = "FALSE" then some false
  else none

/-- The integer that a text stands for. -/
def integer? (text : String) : Option Int :=
  match text.toList with
  | '-' :: digits => (numeralOf? digits).map fun n => -(n : Int)
  | _ => (numeral? text).map fun n => (n : Int)

/-- Whether a text is a run of digits with at most one point, and at least one digit. -/
def isDecimal (cs : List Char) : Bool :=
  cs.all (fun c => c.isDigit || c == '.') && cs.any Char.isDigit && cs.count '.' ≤ 1

/-- Drop a sign at the front. -/
def dropSign : List Char → List Char
  | '+' :: cs => cs
  | '-' :: cs => cs
  | cs => cs

/-- Whether a text is a decimal number, with or without an exponent, or the name of what is no
finite number. -/
def isFloatText (text : String) : Bool :=
  let cs := text.toList
  let unsigned := dropSign cs
  let named := String.ofList unsigned
  let mantissa := unsigned.takeWhile fun c => c != 'e' && c != 'E'
  let exponent := unsigned.drop mantissa.length
  named == ".inf" || named == ".Inf" || named == ".INF" ||
    text == ".nan" || text == ".NaN" || text == ".NAN" ||
    (isDecimal mantissa &&
      (exponent.isEmpty || isDecimal (dropSign (exponent.drop 1)) && !exponent.contains '.'))

/-- Whether a text is digits alone that start with a needless zero. -/
def hasNeedlessZero (text : String) : Bool :=
  let digits := dropSign text.toList
  digits.all Char.isDigit && digits.head? == some '0' && 1 < digits.length

/-- An integer of 64 bits with or without a sign; of 128 bits it is refused, and beyond that it is
no integer. -/
def ofInteger (n : Int) : Option Value :=
  if -0x8000000000000000 ≤ n ∧ n < 0x10000000000000000 then some (.int n)
  else if -0x80000000000000000000000000000000 ≤ n ∧ n < 0x100000000000000000000000000000000 then
    none
  else some .float

/-- What a text without quotes looks like. -/
def valueOfText? (text : String) : Option Value :=
  if text = "" ∨ isNullText text then some .null
  else
    match truthValue? text, integer? text with
    | some b, _ => some (.bool b)
    | none, some n => ofInteger n
    | none, none =>
      some (if !hasNeedlessZero text && isFloatText text then .float else .text text)

/-- What a text is that has a tag. -/
def valueOfTag? (tag text : String) : Option Value :=
  if isLocalTag (some tag) then none
  else if tag = coreTag "bool" then (truthValue? text).map .bool
  else if tag = coreTag "int" then
    (integer? text).bind fun n => (ofInteger n).filter (· matches .int _)
  else if tag = coreTag "float" then if isFloatText text then some .float else none
  else if tag = coreTag "null" then if isNullText text then some .null else none
  else some (.text text)

/-! ### Nodes -/

mutual

/-- The value of a node; none where a node has a type of the document's own. -/
def Node.value? : Node → Option Value
  | .scalar text _ (some tag) => valueOfTag? tag text
  | .scalar text .plain none => valueOfText? text
  | .scalar text _ none => some (.text text)
  | .sequence items tag =>
    if isLocalTag tag then none else (valuesOf? items).map .sequence
  | .mapping entries tag =>
    if isLocalTag tag then none else (entriesOf? entries).map .mapping

/-- The values of nodes. -/
def valuesOf? : List Node → Option (List Value)
  | [] => some []
  | node :: nodes => do
    let value ← node.value?
    let values ← valuesOf? nodes
    return value :: values

/-- The entries of a mapping as values. -/
def entriesOf? : List (Node × Node) → Option (List (Value × Value))
  | [] => some []
  | (key, node) :: entries => do
    let key ← key.value?
    let value ← node.value?
    let values ← entriesOf? entries
    return (key, value) :: values

end

end DropRoom.Yaml
