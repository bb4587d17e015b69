import DropRoom.Text.Ascii

namespace DropRoom.File

/-!
# Size labels

Sizes below 1024 are shown in bytes.  Larger ones are shown with one decimal in
the largest of the units `KB`, `MB` and `GB` that goes into them at least once.

A size is first rounded to 53 significant bits, as a double holds it, and the
quotient by the unit is then rounded to tenths; both roundings take the nearest
value, and the even one of two that are equally near.

* `divideToEven` — the nearest integer to a quotient;
* `roundToDouble` — the nearest integer of 53 significant bits;
* `SizeLabel` — a number of tenths of a unit;
* `SizeLabel.ofSize`, `SizeLabel.render` — the label of a size and its text.
-/

open DropRoom.Text

/-- The nearest integer to a quotient, the even one of two that are equally near. -/
def divideToEven (n d : Nat) : Nat :=
  if 2 * (n % d) < d then n / d
  else if d < 2 * (n % d) then n / d + 1
  else n / d + n / d % 2

/-- The nearest integer of at most 53 significant bits. -/
def roundToDouble (n : Nat) : Nat :=
  let unit := Nat.pow 2 (n.log2 - 52)
  divideToEven n unit * unit

/-- A unit of size. -/
inductive SizeUnit where
  | b
  | kb
  | mb
  | gb
  deriving DecidableEq, Repr

/-- The number of bytes of a unit. -/
def SizeUnit.bytes : SizeUnit → Nat
  | .b => 1
  | .kb => 1024
  | .mb => 1024 * 1024
  | .gb => 1024 * 1024 * 1024

/-- The symbol of a unit. -/
def SizeUnit.symbol : SizeUnit → String
  | .b => "B"
  | .kb => "KB"
  | .mb => "MB"
  | .gb => "GB"

/-- The largest unit that goes into a size at least once; bytes for zero. -/
def SizeUnit.ofSize (n : Nat) : SizeUnit :=
  if n < 1024 then .b
  else if n < SizeUnit.bytes .mb then .kb
  else if n < SizeUnit.bytes .gb then .mb
  else .gb

/-- A size as it is shown: a number of tenths of a unit. -/
structure SizeLabel where
  tenths : Nat
  unit : SizeUnit
  deriving DecidableEq, Repr

/-- The label of a size. -/
def SizeLabel.ofSize (size : UInt64) : SizeLabel :=
  let n := roundToDouble size.toNat
  let unit := SizeUnit.ofSize n
  ⟨divideToEven (10 * n) unit.bytes, unit⟩

/-- The text of a label; bytes are shown without a decimal. -/
def SizeLabel.render (label : SizeLabel) : String :=
  let whole := String.ofList (digitsOf (label.tenths / 10))
  match label.unit with
  | .b => whole ++ " " ++ label.unit.symbol
  | _ => whole ++ "." ++ String.ofList (digitsOf (label.tenths % 10)) ++ " " ++ label.unit.symbol

/-- The text that a size is shown as. -/
def sizeText (size : UInt64) : String :=
  (SizeLabel.ofSize size).render

end DropRoom.File
