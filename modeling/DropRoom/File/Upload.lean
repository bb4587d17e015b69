import DropRoom.Bytes.Json
import DropRoom.File.MediaType

namespace DropRoom.File

/-!
# Files to upload

* `Upload` — a file that the user picked;
* `Upload.mediaType` — the type that it is sent with;
* `Upload.ofPath` — read a file;
* `Upload.ofJson` — the file of a document.
-/

/-- A file that the user picked. -/
structure Upload where
  name : String
  content : Bytes
  /-- The type that it is sent with; told from the name where it is not given. -/
  contentType : Option String
  deriving DecidableEq, Repr

/-- The type that a file is sent with. -/
def Upload.mediaType [MediaTypes] (file : Upload) : String :=
  file.contentType.getD (mediaTypeOfName file.name)

/-- What is found at a path. -/
inductive Found where
  | file (content : Bytes)
  | directory
  | nothing
  deriving DecidableEq, Repr

/-- Why a file cannot be read. -/
inductive ReadError where
  | notFound
  | isDirectory
  deriving DecidableEq, Repr

/-- The last name of a path. -/
def fileName? (path : String) : Option String :=
  let names := (Text.splitAt '/' path.toList).filter fun name => name ≠ [] ∧ name ≠ ['.']
  match names.getLast? with
  | some ['.', '.'] => none
  | some name => some (String.ofList name)
  | none => none

/-- Read the file at a path, given what is found there. -/
def Upload.ofPath (path : String) : Found → Except ReadError Upload
  | .file content => .ok ⟨(fileName? path).getD "upload", content, none⟩
  | .directory => .error .isDirectory
  | .nothing => .error .notFound

/-- The file of a JSON value. -/
def Upload.ofJson (j : Json) : Upload where
  name := ((j.field "name").text?).getD ""
  content := Bytes.ofJson (j.field "content")
  contentType := (j.field "type").text?

end DropRoom.File
