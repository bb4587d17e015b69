import DropRoom.Json.Reader

namespace DropRoom.Json

/-!
# The grammar of JSON texts

A value can be written with any blanks around its parts, and with any escapes in its texts.

* `IsText`, `IsNumber`, `IsValue` — the texts of RFC 8259;
* `Spells` — the characters between two quotes spell a text;
* `Spaced`, `Member` — a value and a member of an object, with the blanks around their parts;
* `arrayChars`, `objectChars` — the texts of containers of such parts;
* `spells_of_plain` — characters that need no escape spell themselves.
-/

open DropRoom.Text

/-! ### Texts -/

/-- Nothing but blanks. -/
def Blank (cs : List Char) : Prop :=
  ∀ c ∈ cs, isSpace c = true

instance : DecidablePred Blank :=
  fun _ => decidable_of_iff _ List.all_eq_true

theorem blank_nil : Blank [] :=
  fun _ h => absurd h List.not_mem_nil

/-- What stands between the quotes of a text.  An escape of four digits need not stand for a
character: it may be half of a surrogate pair. -/
inductive IsText : List Char → Prop
  | nil : IsText []
  | plain {c : Char} {cs : List Char} : c ≠ '"' → c ≠ '\\' → 32 ≤ c.toNat → IsText cs → IsText (c :: cs)
  | short {e : Char} {cs : List Char} : (shortEscape? e).isSome → IsText cs → IsText ('\\' :: e :: cs)
  | code {a b c d : Char} {cs : List Char} : (hex4? a b c d).isSome → IsText cs →
      IsText ('\\' :: 'u' :: a :: b :: c :: d :: cs)

/-- What stands between the quotes spells the characters of a text. -/
inductive Spells : List Char → List Char → Prop
  | nil : Spells [] []
  | plain {c : Char} {cs s : List Char} : c ≠ '"' → c ≠ '\\' → 32 ≤ c.toNat → Spells cs s →
      Spells (c :: cs) (c :: s)
  | short {e c : Char} {cs s : List Char} : shortEscape? e = some c → Spells cs s →
      Spells ('\\' :: e :: cs) (c :: s)
  | code {a b c d : Char} {n : Nat} {cs s : List Char} : hex4? a b c d = some n →
      ¬ (0xD800 ≤ n ∧ n ≤ 0xDFFF) → Spells cs s →
      Spells ('\\' :: 'u' :: a :: b :: c :: d :: cs) (Char.ofNat n :: s)
  | pair {a b c d a' b' c' d' : Char} {n m : Nat} {cs s : List Char} : hex4? a b c d = some n →
      0xD800 ≤ n ∧ n ≤ 0xDBFF → hex4? a' b' c' d' = some m → 0xDC00 ≤ m ∧ m ≤ 0xDFFF → Spells cs s →
      Spells ('\\' :: 'u' :: a :: b :: c :: d :: '\\' :: 'u' :: a' :: b' :: c' :: d' :: cs)
        (Char.ofNat (0x10000 + (n - 0xD800) * 0x400 + (m - 0xDC00)) :: s)

/-- A text that spells something is one. -/
theorem Spells.isText {cs s : List Char} (h : Spells cs s) : IsText cs := by
  induction h with
  | nil => exact .nil
  | plain hquote hslash hlow _ ih => exact .plain hquote hslash hlow ih
  | short he _ ih => exact .short (Option.isSome_iff_exists.mpr ⟨_, he⟩) ih
  | code hn _ _ ih => exact .code (Option.isSome_iff_exists.mpr ⟨_, hn⟩) ih
  | pair hn _ hm _ _ ih =>
    exact .code (Option.isSome_iff_exists.mpr ⟨_, hn⟩) (.code (Option.isSome_iff_exists.mpr ⟨_, hm⟩) ih)

/-- A character that needs no escape. -/
def isPlain (c : Char) : Bool :=
  c != '"' && c != '\\' && 32 ≤ c.toNat

/-- Characters that need no escape spell themselves. -/
theorem spells_of_plain {cs : List Char} (h : cs.all isPlain = true) : Spells cs cs := by
  induction cs with
  | nil => exact .nil
  | cons c cs ih =>
    obtain ⟨hplain, hrest⟩ := Bool.and_eq_true_iff.mp h
    simp only [isPlain, Bool.and_eq_true, bne_iff_ne, decide_eq_true_eq] at hplain
    exact .plain hplain.1.1 hplain.1.2 hplain.2 (ih hrest)

/-! ### Numbers -/

/-- At least one digit. -/
structure IsDigits (cs : List Char) : Prop where
  ne_nil : cs ≠ []
  all : ∀ c ∈ cs, isDigit c = true

/-- The digits before a point: a zero stands alone. -/
def IsWhole (cs : List Char) : Prop :=
  cs = ['0'] ∨ (IsDigits cs ∧ cs.head? ≠ some '0')

/-- A point and digits, or nothing. -/
def IsFraction (cs : List Char) : Prop :=
  cs = [] ∨ ∃ digits, cs = '.' :: digits ∧ IsDigits digits

/-- An exponent with its sign, or nothing. -/
def IsExponent (cs : List Char) : Prop :=
  cs = [] ∨ ∃ mark sign digits, cs = mark :: (sign ++ digits) ∧ (mark = 'e' ∨ mark = 'E') ∧
    (sign = [] ∨ sign = ['+'] ∨ sign = ['-']) ∧ IsDigits digits

/-- The text of a number. -/
def IsNumber (cs : List Char) : Prop :=
  ∃ sign whole fraction exponent, cs = sign ++ (whole ++ (fraction ++ exponent)) ∧
    (sign = [] ∨ sign = ['-']) ∧ IsWhole whole ∧ IsFraction fraction ∧ IsExponent exponent

/-! ### Values -/

/-- The text of a value, with blanks around it. -/
structure Spaced where
  before : List Char
  value : List Char
  after : List Char

namespace Spaced

/-- The characters of a value and the blanks around it. -/
def chars (item : Spaced) : List Char :=
  item.before ++ (item.value ++ item.after)

/-- Only blanks stand around the value. -/
structure Proper (item : Spaced) : Prop where
  before : Blank item.before
  after : Blank item.after

end Spaced

/-- The text of a member of an object: a name between quotes, and a value, with blanks around both. -/
structure Member where
  before : List Char
  name : List Char
  after : List Char
  content : Spaced

namespace Member

/-- The characters of a member. -/
def chars (m : Member) : List Char :=
  m.before ++ '"' :: (m.name ++ '"' :: (m.after ++ ':' :: m.content.chars))

/-- A text stands between the quotes, and only blanks around the parts. -/
structure Proper (m : Member) : Prop where
  before : Blank m.before
  name : IsText m.name
  after : Blank m.after
  content : m.content.Proper

end Member

/-- Texts of which each follows a comma, and the end of their container. -/
def following (closing : Char) : List (List Char) → List Char
  | [] => [closing]
  | cs :: rest => ',' :: (cs ++ following closing rest)

/-- Texts with commas between them, within their container. -/
def enclosed (opening closing : Char) : List (List Char) → List Char
  | [] => [opening, closing]
  | cs :: rest => opening :: (cs ++ following closing rest)

/-- The text of an array. -/
def arrayChars (items : List Spaced) : List Char :=
  enclosed '[' ']' (items.map Spaced.chars)

/-- The text of an object. -/
def objectChars (ms : List Member) : List Char :=
  enclosed '{' '}' (ms.map Member.chars)

/-- The text of a value. -/
inductive IsValue : List Char → Prop
  | null : IsValue ['n', 'u', 'l', 'l']
  | true : IsValue ['t', 'r', 'u', 'e']
  | false : IsValue ['f', 'a', 'l', 's', 'e']
  | number {cs : List Char} : IsNumber cs → IsValue cs
  | text {cs : List Char} : IsText cs → IsValue ('"' :: (cs ++ ['"']))
  | emptyArray {cs : List Char} : Blank cs → IsValue ('[' :: (cs ++ [']']))
  | array {items : List Spaced} : (∀ item ∈ items, item.Proper) → (∀ item ∈ items, IsValue item.value) →
      IsValue (arrayChars items)
  | emptyObject {cs : List Char} : Blank cs → IsValue ('{' :: (cs ++ ['}']))
  | object {ms : List Member} : (∀ m ∈ ms, m.Proper) → (∀ m ∈ ms, IsValue m.content.value) →
      IsValue (objectChars ms)

end DropRoom.Json
