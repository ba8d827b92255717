import Courier.Settings.Error
import Courier.Toml.Reader

set_option autoImplicit false

/-! # Settings files

A settings file is a TOML text with up to four sections. Nothing in it has to be set, and nothing
unknown may be. A section may also be written as an array of its values in their order. -/

namespace Courier

/-! ## Sections -/

/-- What a file says of the request. -/
structure RequestSection where
  url : Option String
  method : Option String
  headers : List (String × String)
  data : Option String
  expect : List Nat
  clientRequestId : Option String
  deriving DecidableEq

/-- What a file says of credentials. -/
structure AuthSection where
  bearer : Option String
  tokenFile : Option String
  deriving DecidableEq

/-- What a file says of repeated attempts; the delays are in seconds. -/
structure RetrySection where
  maxAttempts : Option Nat
  initialDelay : Option Nat
  maxDelay : Option Nat
  multiplier : Option Binary64
  deriving DecidableEq

/-- What a file says of polling; delay and duration are in seconds. -/
structure PollingSection where
  enabled : Bool
  delay : Option Nat
  duration : Option Nat
  codes : List Nat
  deriving DecidableEq

/-- What a settings file says. -/
structure SettingsFile where
  request : RequestSection
  auth : AuthSection
  retry : RetrySection
  polling : PollingSection
  deriving DecidableEq

/-- A settings file that says nothing. -/
def SettingsFile.empty : SettingsFile :=
  ⟨⟨none, none, [], none, [], none⟩, ⟨none, none⟩, ⟨none, none, none, none⟩,
    ⟨false, none, none, []⟩⟩

/-! ## Values -/

/-- The text that a value is. -/
def Toml.text? : Toml → Option String
  | .text s => some s
  | _ => none

/-- The truth value that a value is. -/
def Toml.flag? : Toml → Option Bool
  | .bool b => some b
  | _ => none

/-- The whole number below a bound that a value is. -/
def Toml.count? (bound : Nat) : Toml → Option Nat
  | .int n => if 0 ≤ n ∧ n < bound then some n.toNat else none
  | _ => none

/-- The whole number of 64 bits that a value is. -/
def Toml.longCount? : Toml → Option Nat := Toml.count? 0x10000000000000000

/-- The floating-point number that a value is. Whole numbers of 64 bits stand for the nearest
one. -/
def Toml.float? : Toml → Option Binary64
  | .float x => some x
  | .int n =>
    if -0x8000000000000000 ≤ n ∧ n < 0x10000000000000000 then
      some (Binary64.ofRatio (n < 0) n.natAbs 1)
    else none
  | _ => none

/-- The status codes that a value lists. -/
def Toml.codes? : Toml → Option (List Nat)
  | .array items => items.mapM (Toml.count? 0x10000)
  | _ => none

/-- The name under which a moment is found where a table is expected. -/
def Toml.momentName : String := "$__toml_private_datetime"

/-- The texts that a table holds. A moment counts as a table of its text. -/
def Toml.texts? : Toml → Option (List (String × String))
  | .table members => members.mapM fun (name, value) => value.text?.map (name, ·)
  | .moment m => some [(Toml.momentName, m)]
  | _ => none

/-! ## Reading -/

/-- A setting in a section. -/
structure SectionField (σ : Type) where
  name : String
  /-- Whether it may be left out at the end of an array. -/
  mayLack : Bool
  set : Toml → σ → Option σ

/-- A setting with one kind of value. -/
def SectionField.of {σ α : Type} (name : String) (mayLack : Bool) (value : Toml → Option α)
    (put : α → σ → σ) : SectionField σ :=
  ⟨name, mayLack, fun v s => (value v).map fun a => put a s⟩

/-- Sets the settings that an array gives in their order. Values that are left over do not
matter. -/
def readInOrder {σ : Type} : List (SectionField σ) → List Toml → σ → Option σ
  | [], _, s => some s
  | fields, [], s => if fields.all SectionField.mayLack then some s else none
  | field :: fields, v :: items, s => (field.set v s).bind (readInOrder fields items)

/-- Reads a section. -/
def readSection {σ : Type} (fields : List (SectionField σ)) (initial : σ) : Toml → Option σ
  | .table members => members.foldlM (fun s (name, v) =>
      (fields.find? fun f => f.name == name).bind fun f => f.set v s) initial
  | .array items => readInOrder fields items initial
  | _ => none

/-- Reads what is said of the request. -/
def RequestSection.read : Toml → Option RequestSection :=
  readSection
    [.of "url" false Toml.text? fun v s => { s with url := some v },
      .of "method" false Toml.text? fun v s => { s with method := some v },
      .of "headers" true Toml.texts? fun v s => { s with headers := v },
      .of "data" false Toml.text? fun v s => { s with data := some v },
      .of "expect" true Toml.codes? fun v s => { s with expect := v },
      .of "client_request_id" false Toml.text? fun v s => { s with clientRequestId := some v }]
    SettingsFile.empty.request

/-- Reads what is said of credentials. -/
def AuthSection.read : Toml → Option AuthSection :=
  readSection
    [.of "bearer" false Toml.text? fun v s => { s with bearer := some v },
      .of "token_file" false Toml.text? fun v s => { s with tokenFile := some v }]
    SettingsFile.empty.auth

/-- Reads what is said of repeated attempts. -/
def RetrySection.read : Toml → Option RetrySection :=
  readSection
    [.of "max_attempts" false (Toml.count? 0x100000000) fun v s => { s with maxAttempts := some v },
      .of "initial_delay" false Toml.longCount? fun v s => { s with initialDelay := some v },
      .of "max_delay" false Toml.longCount? fun v s => { s with maxDelay := some v },
      .of "multiplier" false Toml.float? fun v s => { s with multiplier := some v }]
    SettingsFile.empty.retry

/-- Reads what is said of polling. -/
def PollingSection.read : Toml → Option PollingSection :=
  readSection
    [.of "enabled" true Toml.flag? fun v s => { s with enabled := v },
      .of "delay" false Toml.longCount? fun v s => { s with delay := some v },
      .of "duration" false Toml.longCount? fun v s => { s with duration := some v },
      .of "codes" true Toml.codes? fun v s => { s with codes := v }]
    SettingsFile.empty.polling

/-- What the outermost table of a text says. -/
def SettingsFile.ofTable? (members : List (String × Toml)) : Option SettingsFile :=
  readSection
    [.of "request" true RequestSection.read fun v s => { s with request := v },
      .of "auth" true AuthSection.read fun v s => { s with auth := v },
      .of "retry" true RetrySection.read fun v s => { s with retry := v },
      .of "polling" true PollingSection.read fun v s => { s with polling := v }]
    SettingsFile.empty (.table members)

/-- Reads the text of a settings file. -/
def SettingsFile.parse (text : String) : Except SettingsError SettingsFile :=
  match (Toml.parse? text).bind SettingsFile.ofTable? with
  | some file => .ok file
  | none => .error .malformed

/-- Loads a settings file. -/
def SettingsFile.load (path : String) (t : FileTree) : Except SettingsError SettingsFile :=
  match t.read path with
  | .error e => .error (.file .read path e)
  | .ok content =>
    match Utf8.decode? content with
    | none => .error (.file .read path .notText)
    | some text => SettingsFile.parse text

end Courier
