import Courier.Toml.Value

set_option autoImplicit false

/-! # TOML tables under construction

The members of a table come one after another, and not all in one place. While a text is read each
table therefore remembers how it came to be, since that decides what may be added to it:

* A table that has a header of its own gets no second one.
* A table that only lies on the way to another header may still get a header.
* A table that came from a key with points may be added to by such keys, but not by a header.

Values, among them arrays and inline tables, are closed for good. -/

namespace Courier

/-- How a table came to be. -/
inductive Toml.Origin
  /-- By a header of its own, or as the outermost table. -/
  | header
  /-- On the way to the table of a header. -/
  | way
  /-- By a key with points. -/
  | key
  deriving DecidableEq

/-- A value or a table under construction. -/
inductive Toml.Draft
  | closed (value : Toml)
  | table (origin : Toml.Origin) (members : List (String × Toml.Draft))
  /-- An array of tables, each with a header. The last one is under construction. -/
  | tables (earlier : List (List (String × Toml.Draft))) (last : List (String × Toml.Draft))

/-- The members of a table under construction. -/
abbrev Toml.Members := List (String × Toml.Draft)

/-- Members with another one in place of the one of its name, or at the end. -/
def Toml.Members.put (name : String) (draft : Toml.Draft) : Toml.Members → Toml.Members
  | [] => [(name, draft)]
  | (n, d) :: rest =>
    if n = name then (n, draft) :: rest else (n, d) :: Toml.Members.put name draft rest

/-- A change of a table that looks at how it came to be. -/
abbrev Toml.Change := Toml.Origin → Toml.Members → Option Toml.Members

/-- Makes a change in the table at the end of a way, whose tables are made if they are missing. The
    flag says whether the way is that of a key with points; such a way does not lead through a table
    with a header. -/
def Toml.Members.changeAt (byKey : Bool) (change : Toml.Change) :
    List String → Toml.Origin → Toml.Members → Option Toml.Members
  | [], origin, members => change origin members
  | name :: way, _, members =>
    match members.lookup name with
    | none =>
      let origin := if byKey then .key else .way
      (Toml.Members.changeAt byKey change way origin []).map fun inner =>
        members.put name (.table origin inner)
    | some (.closed _) => none
    | some (.table origin inner) =>
      if byKey ∧ origin = .header then none
      else
        (Toml.Members.changeAt byKey change way origin inner).map fun inner =>
          members.put name (.table origin inner)
    | some (.tables earlier last) =>
      (Toml.Members.changeAt byKey change way .header last).map fun last =>
        members.put name (.tables earlier last)

/-- Adds a value under a key. The table that a key with points leads to must have come from such a
    key. -/
def Toml.Members.assign (key : List String) (value : Toml) : Toml.Change := fun origin members =>
  match key.getLast? with
  | none => none
  | some name =>
    let add : Toml.Change := fun origin members =>
      if (1 < key.length) ≠ (origin = .key) ∨ (members.lookup name).isSome then none
      else some (members.put name (.closed value))
    Toml.Members.changeAt true add key.dropLast origin members

/-- Opens the table of a header. -/
def Toml.Members.openTable (header : List String) (members : Toml.Members) : Option Toml.Members :=
  match header.getLast? with
  | none => none
  | some name =>
    let add : Toml.Change := fun _ members =>
      match members.lookup name with
      | none => some (members.put name (.table .header []))
      | some (.table .way inner) => some (members.put name (.table .header inner))
      | some _ => none
    Toml.Members.changeAt false add header.dropLast .header members

/-- Opens one more table in the array of a header. -/
def Toml.Members.openNext (header : List String) (members : Toml.Members) : Option Toml.Members :=
  match header.getLast? with
  | none => none
  | some name =>
    let add : Toml.Change := fun _ members =>
      match members.lookup name with
      | none => some (members.put name (.tables [] []))
      | some (.tables earlier last) => some (members.put name (.tables (earlier ++ [last]) []))
      | some _ => none
    Toml.Members.changeAt false add header.dropLast .header members

/-! ## Finished tables -/

mutual
/-- The value that a draft has come to. -/
def Toml.Draft.finish : Toml.Draft → Toml
  | .closed value => value
  | .table _ members => .table (Toml.Draft.finishMembers members)
  | .tables earlier last =>
    .array (Toml.Draft.finishTables earlier ++ [.table (Toml.Draft.finishMembers last)])

/-- The members that drafts have come to. -/
def Toml.Draft.finishMembers : List (String × Toml.Draft) → List (String × Toml)
  | [] => []
  | (name, draft) :: rest => (name, draft.finish) :: Toml.Draft.finishMembers rest

/-- The tables that drafts have come to. -/
def Toml.Draft.finishTables : List (List (String × Toml.Draft)) → List Toml
  | [] => []
  | members :: rest => .table (Toml.Draft.finishMembers members) :: Toml.Draft.finishTables rest
end

/-- The table of some keys with their values, if they do not contradict each other. -/
def Toml.tableOf? (assignments : List (List String × Toml)) : Option Toml :=
  (assignments.foldlM (fun members (key, value) => Toml.Members.assign key value .header members)
    []).map fun members => .table (Toml.Draft.finishMembers members)

end Courier
