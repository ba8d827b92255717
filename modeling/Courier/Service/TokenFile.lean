import Courier.Failure
import Courier.Files.Tree
import Courier.Service.Token

set_option autoImplicit false

/-! # Token files

A token is kept in a file as a JSON text. It is not written there at once: it is written to a
temporary file beside it, which then takes the place of the token file. So the place of the token
file always holds a whole text.

A save goes through stages, and the tree of files may be seen, and changed by others, between any
two of them. `SaveStage.step` takes a save from one stage to the next; `Token.save` is a save that
nothing comes between. -/

namespace Courier

/-! ## Errors -/

/-- Why a token cannot be loaded or saved. -/
inductive TokenError
  | unreadable (path : String) (cause : FileError)
  | undecodable (path : String) (fault : Json.Fault)
  | noDirectory (path : String) (cause : FileError)
  | unwritable (path : String) (cause : FileError)
  | unmovable (source target : String) (cause : FileError)
  deriving DecidableEq

/-- The wording of an error. -/
def TokenError.message : TokenError → String
  | .unreadable path e =>
    "failed to open file (" ++ path ++ ") while loading token: " ++ e.message
  | .undecodable path fault =>
    "failed to decode contents of file (" ++ path ++ ") into a token: " ++ fault.message
  | .noDirectory path e =>
    "failed to create directory (" ++ path ++ ") to persist token: " ++ e.message
  | .unwritable path e => "failed to write token to temp file (" ++ path ++ "): " ++ e.message
  | .unmovable source target e =>
    "failed to move temporary token to desired output location. src=" ++ source ++
      " dst=" ++ target ++ ": " ++ e.message

/-- The chain that an error begins. -/
def TokenError.chain (e : TokenError) : FailureChain :=
  let cause := match e with
    | .unreadable _ cause => cause.message
    | .undecodable _ fault => fault.message
    | .noDirectory _ cause => cause.message
    | .unwritable _ cause => cause.message
    | .unmovable _ _ cause => cause.message
  [.plain e.message, .plain cause]

/-! ## Loading -/

/-- The token that the content of a file holds. -/
def Token.ofFile (path : String) (content : Bytes) : Except TokenError Token :=
  match Json.decode Token.readJson content with
  | .ok token => .ok token
  | .error fault => .error (.undecodable path fault)

/-- Loads a token from a file. -/
def Token.load (path : String) (t : FileTree) : Except TokenError Token :=
  match t.read path with
  | .ok content => Token.ofFile path content
  | .error e => .error (.unreadable path e)

/-! ## Saving -/

/-- The octets that a token is saved as. -/
def Token.fileContent (token : Token) : Bytes := Utf8.encode token.jsonText

/-- The temporary file for a path. -/
def temporaryPath (path : String) : String := path ++ ".tmp"

/-- How far a save has come, by what it does next. -/
inductive SaveStage
  /-- The directory of the file is made. -/
  | directory
  /-- The temporary file is made or emptied. -/
  | opening
  /-- These octets are written to the temporary file. -/
  | writing (rest : Bytes)
  /-- The temporary file is moved to its place. -/
  | moving
  /-- The temporary file is removed, since it cannot be moved. -/
  | discarding (cause : FileError)
  /-- Nothing. -/
  | ended (result : Except TokenError Unit)

/-- What the system does when a save takes a step. -/
inductive SaveStage.Turn
  /-- It does the step; if the step writes it takes no more octets than one and this many. -/
  | granted (more : Nat)
  /-- It refuses the step; if the step makes directories, it makes those above the one that is this
      many and one above the last. -/
  | refused (short : Nat) (cause : FileError)

/-- The directories that lead down to a file, the one that it stands in first. -/
def FilePath.wayTo (path : String) : List String :=
  match FilePath.parent? path with
  | none => []
  | some parent => if parent.isEmpty then [] else FilePath.upwards parent

/-- What an attempt that changes nothing when it fails comes to. -/
def FileTree.attempted (t : FileTree) :
    Except FileError FileTree → Except FileError Unit × FileTree
  | .ok t => (.ok (), t)
  | .error e => (.error e, t)

/-- What a step of a save does to the tree, and whether it succeeds. -/
def SaveStage.attempt (path : String) (turn : SaveStage.Turn) (stage : SaveStage) (t : FileTree) :
    Except FileError Unit × FileTree :=
  match stage, turn with
  | .directory, .granted _ => t.makeMissing (FilePath.wayTo path)
  | .directory, .refused short e =>
    match FilePath.wayTo path with
    | [] => (.ok (), t)
    | _ :: above =>
      match t.makeMissing (above.drop short) with
      | (.ok _, t) => (.error e, t)
      | failed => failed
  | .opening, .granted _ => t.attempted (t.truncate (temporaryPath path))
  | .writing [], _ => (.ok (), t)
  | .writing (b :: rest), .granted n =>
    t.attempted (t.append (temporaryPath path) (b :: rest.take n))
  | .moving, .granted _ => t.attempted (t.move (temporaryPath path) path)
  | .discarding _, .granted _ => t.attempted (t.remove (temporaryPath path))
  | .ended _, _ => (.ok (), t)
  | _, .refused _ e => (.error e, t)

/-- The octets that a step that writes takes, but for the first. -/
def SaveStage.Turn.more : SaveStage.Turn → Nat
  | .granted n => n
  | .refused .. => 0

/-- The error of a save that fails at a stage. -/
def SaveStage.error (path : String) (cause : FileError) : SaveStage → TokenError
  | .directory => .noDirectory ((FilePath.parent? path).getD "") cause
  | .opening | .writing _ => .unwritable (temporaryPath path) cause
  | .moving | .discarding _ | .ended _ => .unmovable (temporaryPath path) path cause

/-- The stage after a step and what it came to. -/
def SaveStage.next (path : String) (content : Bytes) (turn : SaveStage.Turn) :
    SaveStage → Except FileError Unit → SaveStage
  | .directory, .ok _ => .opening
  | .opening, .ok _ => .writing content
  | .writing [], .ok _ => .moving
  | .writing (_ :: rest), .ok _ => .writing (rest.drop turn.more)
  | .moving, .ok _ => .ended (.ok ())
  | .moving, .error e => .discarding e
  | .discarding e, _ => .ended (.error (SaveStage.moving.error path e))
  | .ended result, _ => .ended result
  | stage, .error e => .ended (.error (stage.error path e))

/-- One step of a save to a path. -/
def SaveStage.step (path : String) (content : Bytes) (turn : SaveStage.Turn) (stage : SaveStage)
    (t : FileTree) : SaveStage × FileTree :=
  match stage.attempt path turn t with
  | (result, t) => (stage.next path content turn result, t)

/-- A bound on the steps that a save still takes. -/
def SaveStage.stepsLeft (content : Bytes) : SaveStage → Nat
  | .directory => content.length + 5
  | .opening => content.length + 4
  | .writing rest => rest.length + 3
  | .moving => 2
  | .discarding _ => 1
  | .ended _ => 0

/-- Every step brings a save nearer to its end. -/
theorem SaveStage.stepsLeft_next (path : String) (content : Bytes) (turn : SaveStage.Turn)
    (stage : SaveStage) (result : Except FileError Unit) (h : stage.stepsLeft content ≠ 0) :
    (stage.next path content turn result).stepsLeft content < stage.stepsLeft content := by
  cases stage with
  | ended r => exact absurd rfl h
  | discarding e => exact Nat.zero_lt_one
  | writing rest =>
    cases rest with
    | nil => cases result <;> simp [SaveStage.next, SaveStage.stepsLeft]
    | cons b rest =>
      cases result with
      | ok _ =>
        simp only [SaveStage.next, SaveStage.stepsLeft, List.length_drop, List.length_cons]
        omega
      | error e => simp [SaveStage.next, SaveStage.stepsLeft]
  | directory | opening | moving => cases result <;> simp [SaveStage.next, SaveStage.stepsLeft]

theorem SaveStage.stepsLeft_step (path : String) (content : Bytes) (turn : SaveStage.Turn)
    (stage : SaveStage) (t : FileTree) (h : stage.stepsLeft content ≠ 0) :
    (stage.step path content turn t).1.stepsLeft content < stage.stepsLeft content :=
  stage.stepsLeft_next path content turn (stage.attempt path turn t).1 h

/-- The result of a save that is over. -/
def SaveStage.result? : SaveStage → Option (Except TokenError Unit)
  | .ended result => some result
  | _ => none

private theorem stepsLeft_of_result? (content : Bytes) (stage : SaveStage)
    (h : stage.result? = none) : stage.stepsLeft content ≠ 0 := by
  cases stage <;> simp_all [SaveStage.result?, SaveStage.stepsLeft]

/-- A save from some stage to its end, if nothing comes between its steps. -/
def SaveStage.finish (path : String) (content : Bytes) (stage : SaveStage) (t : FileTree) :
    Except TokenError Unit × FileTree :=
  match _h : stage.result? with
  | some result => (result, t)
  | none =>
    let next := stage.step path content (.granted content.length) t
    next.1.finish path content next.2
  termination_by stage.stepsLeft content
  decreasing_by exact SaveStage.stepsLeft_step _ _ _ _ _ (stepsLeft_of_result? content stage ‹_›)

/-- Saves a token to a file. -/
def Token.save (token : Token) (path : String) (t : FileTree) : Except TokenError Unit × FileTree :=
  SaveStage.directory.finish path token.fileContent t

end Courier
