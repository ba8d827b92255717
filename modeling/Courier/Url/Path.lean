import Courier.Url.Host

set_option autoImplicit false

/-! # Paths

A path is read as segments between slashes. A segment of one dot leaves the place as it is, one of
two dots goes back by a segment, and both also count when a dot is written `%2e`. Going back stops
at the root, and at a segment that names a drive. -/

namespace Courier

/-! ## Segments -/

/-- Whether a segment is one dot. -/
def Path.isDot (s : List Char) : Bool :=
  String.ofList (s.map Char.toLower) ∈ [".", "%2e"]

/-- Whether a segment is two dots. -/
def Path.isDotDot (s : List Char) : Bool :=
  String.ofList (s.map Char.toLower) ∈ ["..", "%2e%2e", "%2e.", ".%2e"]

/-- Whether a segment is the name of a drive: a letter and a colon or a bar. -/
def Path.isDrive (s : List Char) : Bool :=
  match s with
  | [a, b] => a.isAlpha && (b == ':' || b == '|')
  | _ => false

/-- The segments without the last one, unless it names a drive. -/
def Path.back (done : List String) : List String :=
  match done.getLast? with
  | some last => if Path.isDrive last.toList then done else done.dropLast
  | none => []

/-- Whether a character ends a segment. -/
def Path.isSlash (special : Bool) (c : Char) : Bool := c == '/' || (special && c == '\\')

/-- Follows encoded segments from a place. Dots at the end leave an empty last segment. -/
def Path.walk (done : List String) : List (List Char) → List String
  | [] => done
  | [last] =>
    if Path.isDotDot last then Path.back done ++ [""]
    else if Path.isDot last then done ++ [""]
    else done ++ [String.ofList last]
  | seg :: rest =>
    if Path.isDotDot seg then Path.walk (Path.back done) rest
    else if Path.isDot seg then Path.walk done rest
    else Path.walk (done ++ [String.ofList seg]) rest

/-! ## Files -/

/-- A drive is written with a colon. -/
def Path.withColon (s : List Char) : List Char :=
  if Path.isDrive s then s.take 1 ++ [':'] else s

/-- In a file URL a drive at the root is a segment of its own. -/
def Path.splitDrive : List (List Char) → List (List Char)
  | (a :: ':' :: c :: s) :: rest =>
    if a.isAlpha then [a, ':'] :: (c :: s) :: rest else (a :: ':' :: c :: s) :: rest
  | segs => segs

/-- The path of a file has no empty segments at its front. -/
def Path.trimFront (segs : List String) : List String :=
  match segs.dropWhile (·.isEmpty) with
  | [] => [""]
  | segs => segs

/-! ## Reading -/

/-- The segments of some text that follows a slash, from a place given by the segments before it. -/
def Path.follow (kind : Url.Kind) (done : List String) (s : List Char) : List String :=
  let segs := (splitAll (Path.isSlash kind.isSpecial) s).map (Percent.encode Percent.inPath)
  if kind = .file then
    let segs := if done.isEmpty then Path.splitDrive segs else segs
    Path.trimFront (Path.walk done (segs.map Path.withColon))
  else Path.walk done segs

/-- The path that a text with a slash at its front (or, in special schemes, without one) names. No
    text names no segment in other schemes. -/
def Path.parse (kind : Url.Kind) (s : List Char) : List String :=
  match s with
  | [] => if kind.isSpecial then [""] else []
  | c :: rest =>
    if Path.isSlash kind.isSpecial c then Path.follow kind [] rest
    else Path.follow kind [] (c :: rest)

end Courier
