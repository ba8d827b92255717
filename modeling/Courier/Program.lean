import Courier.Exchange.Reject
import Courier.Perform
import Courier.Settings.Merge
import Courier.Settings.Template

set_option autoImplicit false

/-! # The program

What a call of the program does to files, what it prints, and the code that it ends with: 0 for
success, 1 for settings that cannot be used, and 2 for a run that failed or whose text cannot be
printed. Arguments that cannot be read end with 2 as well, and requests for help or the version with
0. A crash ends with 101. -/

namespace Courier

/-- What of a call is not up to the program. What goes wrong while it complains is left out. -/
structure Surroundings where
  /-- How many headers find room in a map. -/
  room : HeaderRoom
  /-- Why there is no runtime to send anything in, if there is none. -/
  runtime : Option IoError
  /-- Why a text cannot be printed, if it cannot. -/
  stdout : String → Option IoError
  /-- The names by which files go whose paths are no text. -/
  nameOf : Argument → String

/-- Surroundings in which nothing goes wrong. -/
def Surroundings.usual : Surroundings := ⟨.standard, none, fun _ => none, Argument.lossy⟩

/-- What a call of the program comes to. A text that has been printed in part only is left out. -/
structure Outcome where
  exitCode : Nat
  output : String
  complaint : String
  deriving DecidableEq

/-- The name and version of the program. -/
def versionLine : String := "restwire 0.1.0\n"

/-- How the program is called. -/
def usageLines : String :=
  "Usage: restwire [OPTIONS] [URL]\n       restwire init [--output <OUTPUT>]\n"

/-- The wording of a mistake on the command line. -/
def UsageError.message : UsageError → String
  | .help => "help is asked for"
  | .version => "the version is asked for"
  | .unknownArgument => "an argument is not known"
  | .conflict => "an argument cannot be used with another one"
  | .badNumber => "a value is not a number in range"
  | .missingValue => "a value is missing"
  | .notText => "a value is not text"
  | .unneededValue => "a value is given where there is none"
  | .unknownCommand => "the command is not known"

/-- The outcome of a call whose arguments are not taken. -/
def UsageError.outcome : UsageError → Outcome
  | .help => ⟨0, usageLines, ""⟩
  | .version => ⟨0, versionLine, ""⟩
  | e => ⟨2, "", "error: " ++ e.message ++ "\n\n" ++ usageLines⟩

/-- The outcome of a call that ends in a crash. -/
def Crash.outcome (c : Crash) : Outcome := ⟨101, "", c.message ++ "\n"⟩

/-- The outcome of a call whose settings cannot be used. -/
def SettingsError.outcome (e : SettingsError) : Outcome :=
  match e with
  | .crash c => c.outcome
  | e =>
    let advice := match e.hint? with
      | some hint => "\n" ++ hint ++ "\n"
      | none => ""
    ⟨1, "", "restwire: " ++ e.message ++ "\n" ++ advice⟩

/-- The outcome of a run. -/
def RunResult.outcome : RunResult → Outcome
  | .ok body => ⟨0, body ++ "\n", ""⟩
  | .error e => ⟨2, "", e.message ++ "\n"⟩

/-- What a run comes to when its text is printed. -/
def Surroundings.print (place : Surroundings) : RunResult → RunResult
  | .error e => .error e
  | .ok body =>
    match place.stdout (body ++ "\n") with
    | none => .ok body
    | some e => .error (.output e)

/-- Sends what settings describe and prints what comes back. A request that is given more headers
than it has room for ends in a crash, before anything is sent. -/
def Settings.run (s : Settings) (place : Surroundings) (files : FileTree) (now : Instant)
    (sender : Sender) : Run Outcome :=
  match place.runtime with
  | some e => pure ⟨2, "", "cannot start the async runtime: " ++ e.message ++ "\n"⟩
  | none =>
    if s.crowds place.room files then do
      let _ ← liftM (s.credentials.authorizer files now)
      pure Crash.headersFull.outcome
    else do
      let result ← perform s files now sender
      pure (place.print result).outcome

/-- What is printed when a template has been written. -/
def templateMessage (path : String) : String :=
  "Configuration template written to: " ++ path ++ "\n"

/-- What a call of the program does to the files and comes to. -/
def Invocation.run (i : Invocation) (place : Surroundings) (files : FileTree) (now : Instant)
    (sender : Sender) : Run (Outcome × FileTree) :=
  match i with
  | .init path =>
    match writeTemplate path files with
    | .error e => pure (e.outcome, files)
    | .ok files =>
      match place.stdout (templateMessage path) with
      | none => pure (⟨0, templateMessage path, ""⟩, files)
      | some e => pure ((Crash.notPrinted e.message).outcome, files)
  | .send options =>
    match Settings.load place.room options files with
    | .error e => pure (e.outcome, files)
    | .ok settings => do
      let outcome ← settings.run place files now sender
      pure (outcome, files)

/-- What the program does when it is called with some arguments. -/
def runProgram (arguments : List Argument) (place : Surroundings) (files : FileTree) (now : Instant)
    (sender : Sender) : Run (Outcome × FileTree) :=
  match Invocation.read place.nameOf arguments with
  | .error e => pure (e.outcome, files)
  | .ok invocation => invocation.run place files now sender

end Courier
