import Courier.Toml.Draft
import Courier.Toml.Scalar

set_option autoImplicit false

/-! # Reading TOML

A text of the format is a row of lines: headers, which open a table or one more table of an array,
and assignments of a value to a key in the table that is open. A text with any fault has no value at
all. -/

namespace Courier

/-! ## Values -/

/-- What stands before the next item of an array or an inline table: the text from the item on, or
the text after the closing mark. -/
def Toml.nextItem? (closing : Char) (first : Bool) (s : List Char) :
    Option (List Char ⊕ List Char) := do
  let item (s : List Char) : Option (List Char ⊕ List Char) :=
    match s with
    | [] => none
    | c :: rest => some (if c = closing then .inr rest else .inl s)
  let s ← Toml.skipGaps false s
  if first then item s
  else
    match s with
    | ',' :: s => (Toml.skipGaps false s).bind item
    | c :: s => if c = closing then some (.inr s) else none
    | [] => none

/-- Reads items up to a closing mark. -/
def Toml.readItems {α : Type} (closing : Char) (item : Toml.Reader α) :
    Nat → Bool → Toml.Reader (List α)
  | 0, _, _ => none
  | fuel + 1, first, s =>
    match Toml.nextItem? closing first s with
    | none => none
    | some (.inr rest) => some ([], rest)
    | some (.inl s) =>
      match item s with
      | none => none
      | some (x, s) =>
        (Toml.readItems closing item fuel false s).map fun (xs, rest) => (x :: xs, rest)

/-- Reads a key and its value within an inline table. -/
def Toml.readMember (value : Toml.Reader Toml) : Toml.Reader (List String × Toml) := fun s => do
  let (key, s) ← Toml.readKey s
  match ← Toml.skipGaps false s with
  | '=' :: s => do
    let s ← Toml.skipGaps false s
    let (v, s) ← value s
    return ((key, v), s)
  | _ => none

/-- Reads a string. -/
def Toml.readText? (s : List Char) : Option (String × List Char) :=
  let read := match s with
    | '"' :: '"' :: '"' :: s => Toml.readBlock '"' s
    | '"' :: s => Toml.readQuoted (s.length + 1) s
    | '\'' :: '\'' :: '\'' :: s => Toml.readBlock '\'' s
    | '\'' :: s => Toml.readLiteral s
    | _ => none
  read.map fun (cs, rest) => (String.ofList cs, rest)

/-- Reads a value. The number says how many more arrays and inline tables may stand in one
another. -/
def Toml.readValue : Nat → Toml.Reader Toml
  | depth, s =>
    match s with
    | [] => none
    | c :: rest =>
      if c = '"' ∨ c = '\'' then (Toml.readText? s).map fun (str, rest) => (.text str, rest)
      else if c = '[' then
        match depth with
        | 0 => none
        | depth + 1 =>
          (Toml.readItems ']' (Toml.readValue depth) (rest.length + 1) true rest).map
            fun (items, rest) => (.array items, rest)
      else if c = '{' then
        match depth with
        | 0 => none
        | depth + 1 => do
          let (members, rest) ←
            Toml.readItems '}' (Toml.readMember (Toml.readValue depth)) (rest.length + 1) true rest
          let table ← Toml.tableOf? members
          return (table, rest)
      else Toml.readScalar s

/-! ## Lines -/

/-- A line of a text. -/
inductive Toml.Line
  | assign (key : List String) (value : Toml)
  | header (name : List String)
  | nextHeader (name : List String)

/-- Reads the name of a header and the closing brackets. -/
def Toml.readHeaderName (closing : List Char) (s : List Char) :
    Option (List String × List Char) := do
  let (name, s) ← Toml.readKey (Toml.skipSpace s)
  let s := Toml.skipSpace s
  if closing.isPrefixOf s then some (name, s.drop closing.length) else none

/-- Reads what stands on a line before its end. -/
def Toml.readLine (s : List Char) : Option (Toml.Line × List Char) :=
  match s with
  | '[' :: '[' :: s =>
    (Toml.readHeaderName "]]".toList s).map fun (name, s) => (.nextHeader name, s)
  | '[' :: s => (Toml.readHeaderName "]".toList s).map fun (name, s) => (.header name, s)
  | s => do
    let (key, s) ← Toml.readKey s
    match Toml.skipSpace s with
    | '=' :: s => do
      let (value, s) ← Toml.readValue Toml.depthLimit (Toml.skipSpace s)
      return (.assign key value, s)
    | _ => none

/-- The lines of a text. -/
def Toml.readAllLines : Nat → List Char → Option (List Toml.Line)
  | 0, _ => none
  | fuel + 1, s => do
    match ← Toml.skipGaps false s with
    | [] => return []
    | s => do
      let (line, s) ← Toml.readLine s
      let lines ← Toml.readAllLines fuel (← Toml.endLine s)
      return line :: lines

/-! ## Texts -/

/-- What a line adds to the tables so far, of which the one with the given header is open. -/
def Toml.addLine (state : List String × Toml.Members) (line : Toml.Line) :
    Option (List String × Toml.Members) :=
  let (current, members) := state
  match line with
  | .assign key value =>
    (Toml.Members.changeAt false (Toml.Members.assign key value) current .header members).map
      (current, ·)
  | .header name => (members.openTable name).map (name, ·)
  | .nextHeader name => (members.openNext name).map (name, ·)

/-- The members of the outermost table of a text. A byte order mark at the front is left out. -/
def Toml.parse? (text : String) : Option (List (String × Toml)) := do
  let s := match text.toList with
    | '\uFEFF' :: s => s
    | s => s
  let lines ← Toml.readAllLines (s.length + 1) s
  let (_, members) ← lines.foldlM Toml.addLine ([], [])
  return Toml.Draft.finishMembers members

end Courier
