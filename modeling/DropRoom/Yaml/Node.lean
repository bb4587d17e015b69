namespace DropRoom.Yaml

/-!
# YAML documents

* `Node` — a scalar, a sequence or a mapping, each with the tag that names its type;
* `Node.text?`, `Node.natural?` — what a scalar means where a text, or a number, is
  asked for;
* `Node.isLeftOut` — whether a node stands for a value that is left out.

A scalar has no type of its own: any scalar is a text where a text is asked for,
and only a scalar without quotes is a number.
-/

/-- How a scalar is written. -/
inductive Style where
  /-- Without quotes. -/
  | plain
  | quoted
  /-- As lines that are kept as they are. -/
  | literal
  /-- As lines that are joined. -/
  | folded
  deriving DecidableEq, Repr, Inhabited

/-- A node of a document. -/
inductive Node where
  | scalar (text : String) (style : Style) (tag : Option String)
  | sequence (items : List Node) (tag : Option String)
  | mapping (entries : List (Node × Node)) (tag : Option String)
  deriving Repr, Inhabited

/-- The node of a value that is not written. -/
def Node.empty : Node :=
  .scalar "" .plain none

/-! ### Tags -/

/-- The tag of a type of the language itself. -/
def coreTag (name : String) : String :=
  "tag:yaml.org,2002:" ++ name

/-- Whether a tag names a type of the document's own. -/
def isLocalTag : Option String → Bool
  | some tag => tag.toList.head? == some '!'
  | none => false

/-! ### Numbers -/

/-- The value of a digit of a base up to 16. -/
def digitIn? (base : Nat) (c : Char) : Option Nat :=
  let n :=
    if '0' ≤ c ∧ c ≤ '9' then c.toNat - '0'.toNat
    else if 'a' ≤ c ∧ c ≤ 'f' then c.toNat - 'a'.toNat + 10
    else if 'A' ≤ c ∧ c ≤ 'F' then c.toNat - 'A'.toNat + 10
    else base
  if n < base then some n else none

/-- The number of a non-empty run of digits of a base. -/
def numeralIn? (base : Nat) : List Char → Option Nat
  | [] => none
  | digits => digits.foldl (fun n c => do return base * (← n) + (← digitIn? base c)) (some 0)

/-- The number that digits stand for: decimal without needless zeros, or with `0x`, `0o` or `0b`
in front. -/
def numeralOf? : List Char → Option Nat
  | '0' :: 'x' :: digits => numeralIn? 16 digits
  | '0' :: 'o' :: digits => numeralIn? 8 digits
  | '0' :: 'b' :: digits => numeralIn? 2 digits
  | '0' :: _ :: _ => none
  | digits => numeralIn? 10 digits

/-- The natural number that a text stands for, with or without a plus sign. -/
def numeral? (text : String) : Option Nat :=
  match text.toList with
  | '+' :: digits => numeralOf? digits
  | digits => numeralOf? digits

/-! ### What a node means where a type is asked for -/

/-- Whether a text stands for the absence of a value. -/
def isNullText (text : String) : Bool :=
  text == "~" || text == "null" || text == "Null" || text == "NULL"

/-- Whether a node is a scalar of which nothing is written. -/
def Node.isLeftOut : Node → Bool
  | .scalar text style _ => text == "" && style == .plain
  | _ => false

/-- The text of a scalar. -/
def Node.text? : Node → Option String
  | .scalar text _ _ => some text
  | _ => none

/-- The text of a scalar where there may be none; a scalar that is said to be none has to look like
it. -/
def Node.optionalText? : Node → Option (Option String)
  | .scalar text .plain tag =>
    match tag with
    | none => some (if text == "" || isNullText text then none else some text)
    | some tag =>
      if tag = coreTag "null" then if isNullText text then some none else none
      else some (some text)
  | node => node.text?.map some

/-- The natural number of a scalar without quotes, or of lines that are said to be a number. -/
def Node.natural? : Node → Option Nat
  | .scalar text .plain _ => numeral? text
  | .scalar text .literal (some tag) => if tag = coreTag "int" then numeral? text else none
  | _ => none

end DropRoom.Yaml
