import DropRoom.Url.Reader

namespace DropRoom.Url

/-!
# Changing the path of an address

* `setPath` — replace the path; query and fragment stay;
* `pushSegment` — add one segment to the path.
-/

/-- Drop tabs and line ends. -/
def withoutLineEnds (text : String) : List Char :=
  text.toList.filter fun c => !(c == '\t' || c == '\n' || c == '\r')

/-- Replace the path.  The marks of query and fragment have no meaning in it and are encoded. -/
def setPath (url : Url) (path : String) : Url :=
  match url.path with
  | .rootless _ => url
  | .segments _ => { url with path := .segments (pathAfterHost url.scheme (withoutLineEnds path)) }

/-- Add one segment to the path, with every character encoded that would end it.  The texts `.`
and `..` add nothing. -/
def pushSegment (url : Url) (segment : String) : Url :=
  match url.path with
  | .rootless _ => url
  | .segments items =>
    if segment = "." ∨ segment = ".." then url
    else
      let encoded := percentEncode (inSegment (isSpecial url.scheme)) (withoutLineEnds segment)
      let items := if items = [""] then [] else items
      { url with path := .segments (resolveDots url.scheme items [String.ofList encoded]) }

end DropRoom.Url
