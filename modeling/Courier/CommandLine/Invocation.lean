import Courier.CommandLine.Grammar
import Courier.Number.Integer

set_option autoImplicit false

/-! # The command line

The program is called to send a request, or, by the word `init`, to write a template of a settings
file. Of all that may be given only a path need not be text. -/

namespace Courier

/-- What is given on the command line for a request. -/
structure CommandLine where
  url : Option String
  method : Option String
  headers : List String
  data : Option String
  bearer : Option String
  tokenFile : Option String
  expect : List Nat
  retryMax : Option Nat
  retryDelay : Option Nat
  poll : Bool
  pollingDelay : Option Nat
  pollingDuration : Option Nat
  clientRequestId : Option String
  config : Option String
  verbose : Bool
  deriving DecidableEq

/-- A command line on which nothing is given. -/
def CommandLine.empty : CommandLine :=
  ⟨none, none, [], none, none, none, [], none, none, false, none, none, none, none, false⟩

/-- What the program is called for. -/
inductive Invocation
  /-- To send a request. -/
  | send (options : CommandLine)
  /-- To write a template of a settings file. -/
  | init (output : String)
  deriving DecidableEq

/-! ## Values -/

/-- Reads an argument that must be text. -/
def readString (a : Argument) : Except UsageError String :=
  match a.text? with
  | some text => .ok text
  | none => .error .notText

/-- Reads a number with a bound. A sign is allowed, also before zero. -/
def readBounded (bound : Nat) (a : Argument) : Except UsageError Nat := do
  match readSigned64? (← readString a) with
  | some n => if 0 ≤ n ∧ n < bound then .ok n.toNat else .error .badNumber
  | none => .error .badNumber

/-- Reads a number of 64 bits. -/
def readCount (a : Argument) : Except UsageError Nat := do
  match readUnsigned64? (← readString a) with
  | some n => .ok n
  | none => .error .badNumber

/-- Reads the path of a file, which may not be empty and need not be text. A path that is no text
goes by the name that it is given. -/
def readPath (nameOf : Argument → String) (a : Argument) : Except UsageError String :=
  if a.isEmpty then .error .missingValue else .ok (a.text?.getD (nameOf a))

/-! ## Grammars -/

/-- An option whose value is read. -/
def CommandOption.valued {α : Type} (long : String) (short : Option Char)
    (read : Argument → Except UsageError α) (set : α → CommandLine → CommandLine) :
    CommandOption CommandLine :=
  ⟨long, short, .single fun a c => (read a).map fun v => set v c⟩

/-- An option whose value is read and that may be given again. -/
def CommandOption.gathered {α : Type} (long : String) (short : Option Char)
    (read : Argument → Except UsageError α) (add : α → CommandLine → CommandLine) :
    CommandOption CommandLine :=
  ⟨long, short, .repeated fun a c => (read a).map fun v => add v c⟩

/-- The option that asks for help. -/
def helpOption (σ : Type) : CommandOption σ := ⟨"help", some 'h', .ending .help⟩

/-- What may be given for a request. What may be given again is gathered last first. -/
def CommandLine.grammar (nameOf : Argument → String) : Grammar CommandLine where
  options :=
    [.valued "method" (some 'X') readString fun v c => { c with method := some v },
      .gathered "header" (some 'H') readString fun v c => { c with headers := v :: c.headers },
      .valued "data" (some 'd') readString fun v c => { c with data := some v },
      .valued "bearer" none readString fun v c => { c with bearer := some v },
      .valued "token-file" none (readPath nameOf) fun v c => { c with tokenFile := some v },
      .gathered "expect" none (readBounded 0x10000) fun v c => { c with expect := v :: c.expect },
      .valued "retry-max" none (readBounded 0x100000000) fun v c => { c with retryMax := some v },
      .valued "retry-delay" none readCount fun v c => { c with retryDelay := some v },
      ⟨"poll", none, .flag fun c => { c with poll := true }⟩,
      .valued "polling-delay" none readCount fun v c => { c with pollingDelay := some v },
      .valued "polling-duration" none readCount fun v c => { c with pollingDuration := some v },
      .valued "client-request-id" none readString fun v c => { c with clientRequestId := some v },
      .valued "config" (some 'c') (readPath nameOf) fun v c => { c with config := some v },
      ⟨"verbose", some 'v', .flag fun c => { c with verbose := true }⟩,
      helpOption CommandLine,
      ⟨"version", some 'V', .ending .version⟩]
  plain := some fun a c => (readString a).map fun v => { c with url := some v }
  surplus := .conflict

/-- The file that a template is written to unless another one is given. -/
def defaultTemplatePath : String := "restwire.toml"

/-- What may be given for a template: the file to write. -/
def templateGrammar (nameOf : Argument → String) : Grammar String where
  options :=
    [⟨"output", some 'o', .single fun a _ => readPath nameOf a⟩, helpOption String]
  plain := none
  surplus := .unknownArgument

/-! ## Reading -/

/-- Reads what is given for a request. A bearer token and a token file exclude each other. -/
def CommandLine.read (nameOf : Argument → String) (arguments : List Argument) :
    Except UsageError CommandLine := do
  let c ← (CommandLine.grammar nameOf).read .empty arguments
  if c.bearer.isSome ∧ c.tokenFile.isSome then throw .conflict
  return { c with headers := c.headers.reverse, expect := c.expect.reverse }

/-- What the word `help` and the words after it ask for. -/
def readHelp : List Argument → UsageError
  | [] => .help
  | [command] =>
    if command = .ofText "init" ∨ command = .ofText "help" then .help else .unknownCommand
  | _ => .unknownCommand

/-- Reads the command line. A command is only recognised as the first argument. Paths that are no
text go by the names that they are given. -/
def Invocation.read (nameOf : Argument → String) (arguments : List Argument) :
    Except UsageError Invocation :=
  match arguments with
  | [] => (CommandLine.read nameOf []).map .send
  | first :: rest =>
    if first = .ofText "init" then
      ((templateGrammar nameOf).read defaultTemplatePath rest).map .init
    else if first = .ofText "help" then .error (readHelp rest)
    else (CommandLine.read nameOf arguments).map .send

end Courier
