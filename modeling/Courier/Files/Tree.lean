import Courier.Files.Path
import Courier.Text.Utf8

set_option autoImplicit false

/-! # A tree of files

The files and directories that the program sees, and what an operation does to them. There are no
links, and everything may be read and written. An operation is given a path as a text and looks it
up part by part from the working directory, which is also the root of the tree; every part but the
last must be a directory.

A place in the tree is the list of names that lead to it, and the view of a tree is
`FileTree.find?`: each operation changes the entry at one place, or at two for a move. -/

namespace Courier

/-! ## Errors -/

/-- Why an operation on files fails. -/
inductive FileError
  | notFound
  | alreadyExists
  | busy
  | notDirectory
  | isDirectory
  | noSpace
  | nameTooLong
  | innerNul
  /-- The content of a file that should be text is not. -/
  | notText
  deriving DecidableEq

/-- The wording of an error. -/
def FileError.message : FileError → String
  | .notFound => "No such file or directory (os error 2)"
  | .alreadyExists => "File exists (os error 17)"
  | .busy => "Device or resource busy (os error 16)"
  | .notDirectory => "Not a directory (os error 20)"
  | .isDirectory => "Is a directory (os error 21)"
  | .noSpace => "No space left on device (os error 28)"
  | .nameTooLong => "File name too long (os error 36)"
  | .innerNul => "file name contained an unexpected NUL byte"
  | .notText => "stream did not contain valid UTF-8"

/-! ## Trees -/

/-- The names that lead to a place in the tree. -/
abbrev Place := List String

/-- What stands at a place. -/
inductive FileTree.Entry
  | directory
  | file (content : Bytes)
  deriving DecidableEq

/-- A tree of files. The root is a directory. -/
structure FileTree where
  entries : List (Place × FileTree.Entry)

/-- A tree with nothing in it. -/
def FileTree.empty : FileTree := ⟨[]⟩

/-- What stands at a place. -/
def FileTree.find? (t : FileTree) (place : Place) : Option FileTree.Entry :=
  if place = [] then some .directory else t.entries.lookup place

/-- The tree with another entry at a place. -/
def FileTree.put (t : FileTree) (place : Place) (entry : FileTree.Entry) : FileTree :=
  ⟨(place, entry) :: t.entries.filter fun e => !(e.1 == place)⟩

/-- The tree without the entry at a place. -/
def FileTree.erase (t : FileTree) (place : Place) : FileTree :=
  ⟨t.entries.filter fun e => !(e.1 == place)⟩

private theorem lookup_filter_ne (l : List (Place × FileTree.Entry)) (a b : Place) :
    (l.filter fun e => !(e.1 == a)).lookup b = if b = a then none else l.lookup b := by
  induction l with
  | nil => simp
  | cons e rest ih =>
    obtain ⟨p, v⟩ := e
    by_cases hp : p = a
    · subst hp
      by_cases hb : b = p
      · subst hb; simpa using ih
      · have hne : (b == p) = false := by simpa using hb
        simp [List.lookup_cons, hb, hne, ih]
    · by_cases hb : b = p
      · subst hb; simp [hp]
      · have hne : (b == p) = false := by simpa using hb
        simp [List.lookup_cons, hp, hne, ih]

/-- What is put at a place stands there, and nothing else changes. -/
theorem FileTree.find?_put (t : FileTree) (a b : Place) (e : FileTree.Entry) (ha : a ≠ []) :
    (t.put a e).find? b = if b = a then some e else t.find? b := by
  unfold FileTree.find? FileTree.put
  by_cases hb : b = []
  · subst hb; simp [Ne.symm ha]
  · by_cases h : b = a
    · subst h; simp [hb]
    · have hne : (b == a) = false := by simpa using h
      simp [hb, h, hne, List.lookup_cons, lookup_filter_ne]

/-- What is erased is gone, and nothing else changes. -/
theorem FileTree.find?_erase (t : FileTree) (a b : Place) (ha : a ≠ []) :
    (t.erase a).find? b = if b = a then none else t.find? b := by
  unfold FileTree.find? FileTree.erase
  by_cases hb : b = []
  · subst hb; simp [Ne.symm ha]
  · by_cases h : b = a
    · subst h; simp [hb, lookup_filter_ne]
    · simp [hb, h, lookup_filter_ne]

/-! ## Looking up a path -/

/-- What the last part of a path points at. -/
inductive FileTree.Target
  /-- A directory that is named by none of its names, such as the one above another. -/
  | directory (place : Place)
  /-- A name in a directory, there or not. A slash after it says that a directory is meant. -/
  | name (place : Place) (name : String) (slash : Bool)

/-- Walks down from a directory through parts that must be directories. -/
def FileTree.walk (t : FileTree) (place : Place) : List String → Except FileError Place
  | [] => .ok place
  | part :: rest =>
    if part = "." then t.walk place rest
    else if part = ".." then t.walk place.dropLast rest
    else if 255 < part.utf8ByteSize then .error .nameTooLong
    else
      match t.find? (place ++ [part]) with
      | some .directory => t.walk (place ++ [part]) rest
      | some (.file _) => .error .notDirectory
      | none => .error .notFound

/-- What the parts of a path point at, those that are empty left out. -/
def FileTree.targetOf (t : FileTree) (parts : List String) (slash : Bool) :
    Except FileError FileTree.Target :=
  match parts.getLast? with
  | none => .ok (.directory [])
  | some last =>
    if last = "." ∨ last = ".." then (t.walk [] parts).map .directory
    else
      match t.walk [] parts.dropLast with
      | .error e => .error e
      | .ok place =>
        if 255 < last.utf8ByteSize then .error .nameTooLong else .ok (.name place last slash)

/-- What a path points at. -/
def FileTree.target (t : FileTree) (path : String) : Except FileError FileTree.Target :=
  if path.toList.contains '\x00' then .error .innerNul
  else if path.isEmpty then .error .notFound
  else if 4096 ≤ path.utf8ByteSize then .error .nameTooLong
  else
    let parts := FilePath.parts path
    t.targetOf (parts.filter (· ≠ "")) (parts.getLast? == some "")

/-! ## Operations -/

/-- Whether a path points at a directory. -/
def FileTree.isDirectory (t : FileTree) (path : String) : Bool :=
  match t.target path with
  | .ok (.directory _) => true
  | .ok (.name place name _) => t.find? (place ++ [name]) == some .directory
  | .error _ => false

/-- The content of a file. -/
def FileTree.read (t : FileTree) (path : String) : Except FileError Bytes := do
  match ← t.target path with
  | .directory _ => throw .isDirectory
  | .name place name slash =>
    match t.find? (place ++ [name]) with
    | none => throw .notFound
    | some .directory => throw .isDirectory
    | some (.file content) => if slash then throw .notDirectory else return content

/-- The place of the file that writing to a path writes to. -/
def FileTree.placeToWrite (t : FileTree) (path : String) : Except FileError Place := do
  match ← t.target path with
  | .directory _ => throw .isDirectory
  | .name place name slash =>
    if slash then throw .isDirectory
    else
      match t.find? (place ++ [name]) with
      | some .directory => throw .isDirectory
      | _ => return place ++ [name]

/-- Makes a file empty, or makes an empty file. -/
def FileTree.truncate (t : FileTree) (path : String) : Except FileError FileTree :=
  (t.placeToWrite path).map fun place => t.put place (.file [])

/-- Writes some octets at the end of the file at a path. The file goes by its path: if no file is
    there any more the octets are lost, also those for a file that has been moved since it was
    opened. -/
def FileTree.append (t : FileTree) (path : String) (more : Bytes) : Except FileError FileTree :=
  (t.placeToWrite path).map fun place =>
    match t.find? place with
    | some (.file content) => t.put place (.file (content ++ more))
    | _ => t

/-- Writes a file as a whole. -/
def FileTree.write (t : FileTree) (path : String) (content : Bytes) : Except FileError FileTree :=
  t.truncate path >>= fun t => t.append path content

/-- Makes a directory. -/
def FileTree.makeDirectory (t : FileTree) (path : String) : Except FileError FileTree := do
  match ← t.target path with
  | .directory _ => throw .alreadyExists
  | .name place name _ =>
    match t.find? (place ++ [name]) with
    | some _ => throw .alreadyExists
    | none => return t.put (place ++ [name]) .directory

/-- Makes a directory if it is not there yet. -/
def FileTree.ensureDirectory (t : FileTree) (path : String) : Except FileError Unit × FileTree :=
  match t.makeDirectory path with
  | .ok t => (.ok (), t)
  | .error e => if e = .alreadyExists ∧ t.isDirectory path then (.ok (), t) else (.error e, t)

/-- Makes the directories that are missing on the way down to a directory, which are given from the
    directory upwards, and tells the tree also if not all can be made. -/
def FileTree.makeMissing (t : FileTree) : List String → Except FileError Unit × FileTree
  | [] => (.ok (), t)
  | path :: above =>
    match t.makeDirectory path with
    | .error .notFound =>
      match t.makeMissing above with
      | (.ok _, t) => t.ensureDirectory path
      | failed => failed
    | _ => t.ensureDirectory path

/-- Makes a directory and those above it. -/
def FileTree.makeDirectories (t : FileTree) (path : String) : Except FileError Unit × FileTree :=
  t.makeMissing (FilePath.upwards path)

/-- Moves a file to another path, in place of the file that is there. -/
def FileTree.move (t : FileTree) (source target : String) : Except FileError FileTree := do
  match ← t.target source, ← t.target target with
  | .name sourcePlace sourceName sourceSlash, .name place name slash =>
    match t.find? (sourcePlace ++ [sourceName]) with
    | none => throw .notFound
    | some .directory => throw .isDirectory
    | some (.file content) =>
      if sourceSlash ∨ slash then throw .notDirectory
      else
        match t.find? (place ++ [name]) with
        | some .directory => throw .isDirectory
        | _ => return (t.erase (sourcePlace ++ [sourceName])).put (place ++ [name]) (.file content)
  | _, _ => throw .busy

/-- Removes a file. -/
def FileTree.remove (t : FileTree) (path : String) : Except FileError FileTree := do
  match ← t.target path with
  | .directory _ => throw .isDirectory
  | .name place name slash =>
    match t.find? (place ++ [name]) with
    | none => throw .notFound
    | some .directory => throw .isDirectory
    | some (.file _) => if slash then throw .notDirectory else return t.erase (place ++ [name])

/-! ## Contents -/

/-- A tree with one more file or, if there is no content, directory, and the directories above
it. -/
def FileTree.plant (t : FileTree) (path : String) : Option Bytes → FileTree
  | none => (t.makeDirectories path).2
  | some content =>
    let t := (t.makeDirectories ((FilePath.parent? path).getD "")).2
    (t.write path content).toOption.getD t

/-- The tree that some files and directories make. -/
def FileTree.ofFiles (files : List (String × Option Bytes)) : FileTree :=
  files.foldl (fun t (path, content) => t.plant path content) FileTree.empty

/-- What a tree holds, in the order of the paths. The path of a directory ends in a slash. -/
def FileTree.listing (t : FileTree) : List (String × Option Bytes) :=
  let line (e : Place × FileTree.Entry) : String × Option Bytes :=
    let path := String.intercalate "/" e.1
    match e.2 with
    | .directory => (path ++ "/", none)
    | .file content => (path, some content)
  (t.entries.map line).mergeSort fun a b => decide (¬ b.1 < a.1)

end Courier
