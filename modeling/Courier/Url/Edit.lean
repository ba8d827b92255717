import Courier.Url.Parser

set_option autoImplicit false

/-! # Changing URLs

A path is appended with a single slash in between, and fields are added to the query. Neither
touches another part of the URL. -/

namespace Courier

/-! ## Path -/

/-- The characters of a path that count, up to its last slashes. -/
def Url.trimSlashes (s : List Char) : List Char :=
  (s.reverse.dropWhile (· == '/')).reverse

/-- A URL with another path. Every character of the text is taken as a part of the path. -/
def Url.setPath (u : Url) (text : List Char) : Url :=
  let s := text.filter fun c => !Url.isIgnored c
  match u.path with
  | .rootless _ =>
    let (front, rest) : List Char × List Char :=
      match text with
      | '/' :: text => ("%2F".toList, text.filter fun c => !Url.isIgnored c)
      | _ => ([], s)
    { u with path := .rootless (String.ofList (front ++ Percent.encode Percent.isControl rest)) }
  | .rooted _ => { u with path := .rooted (Path.parse u.kind s) }

/-- A URL with some text appended to its path, with one slash in between. -/
def Url.appendPath (u : Url) (text : String) : Url :=
  u.setPath
    (Url.trimSlashes u.path.text.toList ++ '/' :: text.toList.dropWhile (· == '/'))

/-! ## Query -/

/-- A URL with fields added to its query; without fields it still gets a query. -/
def Url.addQuery (u : Url) (fields : List (String × String)) : Url :=
  { u with query := some (String.ofList (Form.extend (u.query.getD "").toList fields)) }

/-- Adding to the query leaves the other parts alone. -/
@[simp] theorem Url.addQuery_path (u : Url) (fields : List (String × String)) :
    (u.addQuery fields).path = u.path := rfl

/-- Another path leaves the query alone. -/
@[simp] theorem Url.setPath_query (u : Url) (text : List Char) :
    (u.setPath text).query = u.query := by
  unfold Url.setPath; cases u.path <;> rfl

end Courier
