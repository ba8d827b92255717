import Courier.Program
import Std.Time.DateTime

set_option autoImplicit false

/-! # The command

Reads the files that a call of the program looks at, calls `Invocation.run`, writes the file that it
makes, and prints what it comes to. The command carries no network: a request that could be sent
ends with the message that nobody was reached, and its waits pass at once. -/

namespace Courier

/-- The tree with what really stands at a path. What is there and cannot be read counts as a
    directory. -/
def lookAt (t : FileTree) (path : String) : IO FileTree := do
  try
    let content ← IO.FS.readBinFile path
    return t.plant path (some content.toList)
  catch e =>
    match e with
    | .noFileOrDirectory _ _ _ => return t
    | _ => return t.plant path none

/-- The paths that a call looks at before there are settings. -/
def Invocation.paths : Invocation → List String
  | .init path => (FilePath.parent? path).toList ++ [path]
  | .send options => options.config.toList

/-- The token file that settings name. -/
def Credentials.path? : Credentials → Option String
  | .tokenFile path => some path
  | _ => none

/-- The files that a call looks at. -/
def filesFor (i : Invocation) : IO FileTree := do
  let t ← i.paths.foldlM lookAt FileTree.empty
  match i with
  | .init _ => return t
  | .send options =>
    match Settings.load .standard options t with
    | .ok settings => settings.credentials.path?.toList.foldlM lookAt t
    | .error _ => return t

/-- The moment in which the program is called. -/
def present : IO Instant := do
  let seconds := (← Std.Time.Timestamp.now).toSecondsSinceUnixEpoch.val
  return (Instant.ofUnix? seconds 0).getD ⟨0, 0, Instant.zero_lt_nanos, by decide⟩

/-- Whether a call asks for all log messages. -/
def Invocation.isVerbose : Invocation → Bool
  | .send options => options.verbose
  | .init _ => false

/-- Prints the log of a call. -/
def printLog (verbose : Bool) (w : World) : IO Unit :=
  w.journal.forM fun entry =>
    match entry.event with
    | .logged .debug message => if verbose then IO.eprintln ("DEBUG " ++ message) else pure ()
    | .logged .info message => IO.eprintln ("INFO " ++ message)
    | .logged .warn message => IO.eprintln ("WARN " ++ message)
    | _ => pure ()

/-- Makes the template that a call has written into a real file. -/
def store (i : Invocation) (t : FileTree) : IO Unit :=
  match i with
  | .init path =>
    match t.read path with
    | .ok content => IO.FS.writeBinFile path ⟨content.toArray⟩
    | .error _ => pure ()
  | .send _ => pure ()

/-- Prints an outcome and gives its exit code. The outcome is another one if it cannot be
printed. -/
def finish (o : Outcome) (unprinted : IO.Error → Outcome) : IO UInt32 := do
  let o ← try
      IO.print o.output
      (← IO.getStdout).flush
      pure o
    catch e => pure (unprinted e)
  IO.eprint o.complaint
  return o.exitCode.toUInt32

/-- Surroundings in which nothing can be printed. -/
def Surroundings.mute (e : IO.Error) : Surroundings :=
  { Surroundings.usual with stdout := fun _ => some (.of .other (toString e)) }

end Courier

open Courier in
/-- The program. -/
def main (arguments : List String) : IO UInt32 := do
  match Invocation.read Argument.lossy (arguments.map .ofText) with
  | .error e => finish e.outcome fun _ => { e.outcome with output := "" }
  | .ok invocation =>
    let files ← filesFor invocation
    let now ← present
    let call (place : Surroundings) := invocation.run place files now disconnected World.quiet
    match call .usual with
    | none => return 2
    | some ((o, t), w) =>
      printLog invocation.isVerbose w
      if o.exitCode = 0 then store invocation t
      finish o fun e => ((call (.mute e)).map (·.1.1)).getD o
