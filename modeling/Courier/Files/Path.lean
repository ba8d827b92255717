set_option autoImplicit false

/-! # Paths of files

A path is a text in which slashes part the names. What is said here looks at the text alone: which
directory a path stands in, and the directories on the way down to it. A part that is empty or a
single point adds nothing to a path, unless the path begins with the point. -/

namespace Courier

/-- Whether a part of a path names something. -/
def FilePath.isReal (part : String) : Bool := part ≠ "" ∧ part ≠ "."

/-- The parts of a path between its slashes. -/
def FilePath.parts (path : String) : List String := (path.toList.splitOn '/').map String.ofList

/-- The parts of a path before and after the place where names begin. -/
def FilePath.split (path : String) : List String × List String :=
  match FilePath.parts path with
  | "" :: more => if more.isEmpty then ([], [""]) else ([""], more)
  | "." :: more => (["."], more)
  | parts => ([], parts)

/-- The path with such parts. The root is a slash. -/
def FilePath.join (head names : List String) : String :=
  if head = [""] ∧ names.isEmpty then "/" else String.intercalate "/" (head ++ names)

/-- Parts without those at the end that add nothing. -/
def FilePath.trimEnd (parts : List String) : List String :=
  (parts.reverse.dropWhile fun part => !FilePath.isReal part).reverse

/-- The directory that a path stands in: empty for the working directory, and none if the path
    is the root or empty. -/
def FilePath.parent? (path : String) : Option String :=
  match FilePath.split path with
  | (head, parts) =>
    match (FilePath.trimEnd parts).reverse with
    | _ :: above => some (FilePath.join head (FilePath.trimEnd above.reverse))
    | [] => if head = ["."] then some "" else none

/-- The paths that lead down to a directory, from the directory itself upwards. The root and the
    working directory are left out. -/
def FilePath.upwards (path : String) : List String :=
  match FilePath.split path with
  | (head, parts) =>
    let ways := ((List.range parts.length).map fun n => parts.take (n + 1)).filter fun names =>
      (names.getLast?.map FilePath.isReal).getD false
    (ways.map (FilePath.join head)).reverse ++ (if head = ["."] then ["."] else [])

end Courier
