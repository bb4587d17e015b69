import DropRoom.Json.Record
import DropRoom.Text.Ascii

namespace DropRoom.File

/-!
# File icons

A file is shown with an icon for its kind, which is told from the extension of its
name alone.

* `extensionOf` — what follows the last point of a name, in lower case;
* `Icon` — the style classes of an icon;
* `Icon.ofName` — the icon of a file name.
-/

open DropRoom.Text

/-- What follows the last point of a name, in lower case; nothing where there is no point. -/
def extensionOf (name : String) : String :=
  match cutLast '.' name.toList with
  | some (_, ext) => asciiLower (String.ofList ext)
  | none => ""

/-- The style classes of an icon: its shape and its colour. -/
structure Icon where
  shape : String
  colour : String
  deriving DecidableEq, Repr

/-- The icon of a file name. -/
def Icon.ofName (name : String) : Icon :=
  match extensionOf name with
  | "pdf" => ⟨"ri-file-pdf-line", "file-icon-pdf"⟩
  | "doc" | "docx" => ⟨"ri-file-word-line", "file-icon-doc"⟩
  | "xls" | "xlsx" => ⟨"ri-file-excel-line", "file-icon-xls"⟩
  | "png" | "jpg" | "jpeg" | "gif" => ⟨"ri-image-line", "file-icon-img"⟩
  | "txt" => ⟨"ri-file-text-line", "file-icon-doc"⟩
  | _ => ⟨"ri-file-line", "file-icon-doc"⟩

/-- An icon as a JSON value. -/
def Icon.toJson (icon : Icon) : Json :=
  .object [("class", .string icon.shape), ("color_class", .string icon.colour)]

/-- The decoder of an icon. -/
def Icon.decoder : Json.Decoder Icon :=
  (Json.Record.start Icon.mk
    |>.required "class" .string
    |>.required "color_class" .string).decoder

end DropRoom.File
