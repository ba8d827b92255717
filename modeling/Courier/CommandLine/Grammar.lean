set_option autoImplicit false

/-! # Reading arguments

The arguments of a command are what the system passes to it, which need not be text. They are
options, each with a long name and perhaps a short one, and at most one plain argument. The value of
an option stands behind an equals sign, behind the short name, or as the next argument, if that does
not begin with a hyphen. After two hyphens every argument is plain.

An option whose value is the next argument is only settled when the next option, plain argument or
the end comes, so of two mistakes it is not always the first that is told. -/

namespace Courier

/-! ## Arguments of the system -/

/-- An argument as the system passes it: characters, and octets that are part of no character. -/
abbrev Argument := List (Char ⊕ UInt8)

/-- The argument that is a text. -/
def Argument.ofText (text : String) : Argument := text.toList.map .inl

/-- The text of an argument that is one. -/
def Argument.text? (a : Argument) : Option String := (a.mapM Sum.getLeft?).map String.ofList

/-- The text of an argument with a mark in place of each octet that is part of no character. -/
def Argument.lossy (a : Argument) : String :=
  String.ofList (a.map (Sum.elim id fun _ => '\uFFFD'))

/-! ## Grammars -/

/-- Why the arguments of a command are not taken. -/
inductive UsageError
  /-- No mistake: help is asked for. -/
  | help
  /-- No mistake: the version is asked for. -/
  | version
  | unknownArgument
  /-- Something may not be given together with something else, or not twice. -/
  | conflict
  /-- A value is not a number, or not one in range. -/
  | badNumber
  /-- A value is missing, or it is empty and may not be. -/
  | missingValue
  /-- A value is no text and may not be so. -/
  | notText
  /-- A value is given to an option that has none. -/
  | unneededValue
  | unknownCommand
  deriving DecidableEq

/-- What an option does to what has been read so far. -/
inductive OptionKind (σ : Type)
  /-- It has no value and may be given once. -/
  | flag (set : σ → σ)
  /-- It has a value and may be given once. -/
  | single (read : Argument → σ → Except UsageError σ)
  /-- It has a value and may be given again. -/
  | repeated (read : Argument → σ → Except UsageError σ)
  /-- It ends the reading. -/
  | ending (reason : UsageError)

/-- An option. -/
structure CommandOption (σ : Type) where
  long : String
  short : Option Char
  kind : OptionKind σ

/-- Whether an option has a value. -/
def CommandOption.hasValue {σ : Type} (o : CommandOption σ) : Bool :=
  match o.kind with
  | .single _ => true
  | .repeated _ => true
  | _ => false

/-- What may be given to a command. -/
structure Grammar (σ : Type) where
  options : List (CommandOption σ)
  /-- What the plain argument does, if there is one. -/
  plain : Option (Argument → σ → Except UsageError σ)
  /-- The mistake of a plain argument too many. -/
  surplus : UsageError

/-! ## State of the reading -/

/-- How far arguments have been read. -/
structure Reading (σ : Type) where
  value : σ
  /-- The options that have been given. -/
  given : List String
  /-- Whether the plain argument has been given. -/
  placed : Bool
  /-- An option that is not settled yet, and its value if that has come. -/
  waiting : Option (CommandOption σ × Option Argument)

/-- The reading before the first argument. -/
def Reading.start {σ : Type} (value : σ) : Reading σ := ⟨value, [], false, none⟩

/-- Takes an option with its value. -/
def Reading.take {σ : Type} (r : Reading σ) (o : CommandOption σ) (value : Option Argument) :
    Except UsageError (Reading σ) :=
  let once (next : Except UsageError σ) : Except UsageError (Reading σ) :=
    if r.given.contains o.long then .error .conflict
    else next.map fun v => { r with value := v, given := o.long :: r.given }
  match o.kind, value with
  | .flag set, _ => once (.ok (set r.value))
  | .ending reason, _ => .error reason
  | .single _, none => .error .missingValue
  | .single read, some argument => once (read argument r.value)
  | .repeated _, none => .error .missingValue
  | .repeated read, some argument => (read argument r.value).map fun v => { r with value := v }

/-- Settles the option that waits, if any. -/
def Reading.settle {σ : Type} (r : Reading σ) : Except UsageError (Reading σ) :=
  match r.waiting with
  | none => .ok r
  | some (o, value) => { r with waiting := none }.take o value

/-- Takes an option whose value, if it has one, comes next. -/
def Reading.begin {σ : Type} (r : Reading σ) (o : CommandOption σ) :
    Except UsageError (Reading σ) :=
  if o.hasValue then r.settle.map fun r => { r with waiting := some (o, none) }
  else r.settle.bind fun r => r.take o none

/-! ## Arguments -/

/-- Takes a long option; a value may follow after an equals sign. -/
def Reading.long {σ : Type} (g : Grammar σ) (r : Reading σ) (argument : Argument) :
    Except UsageError (Reading σ) :=
  let name? := Argument.text? (argument.takeWhile (· ≠ .inl '='))
  match g.options.find? fun o => some o.long == name? with
  | none => .error .unknownArgument
  | some o =>
    match argument.dropWhile (· ≠ .inl '=') with
    | [] => r.begin o
    | _ :: value =>
      if o.hasValue then r.settle.bind fun r => r.take o (some value)
      else .error .unneededValue

/-- Takes short options that are written together. What follows one with a value is the value, and
an equals sign before it is left out. -/
def Reading.shorts {σ : Type} (g : Grammar σ) (r : Reading σ) :
    Argument → Except UsageError (Reading σ)
  | [] => .ok r
  | .inr _ :: _ => .error .unknownArgument
  | .inl c :: rest =>
    match g.options.find? fun o => o.short == some c with
    | none => .error .unknownArgument
    | some o =>
      if o.hasValue then
        match rest with
        | [] => r.begin o
        | .inl '=' :: value => r.settle.bind fun r => r.take o (some value)
        | value => r.settle.bind fun r => r.take o (some value)
      else
        match r.begin o with
        | .error e => .error e
        | .ok r => Reading.shorts g r rest

/-- Takes a plain argument. -/
def Reading.place {σ : Type} (g : Grammar σ) (r : Reading σ) (argument : Argument) :
    Except UsageError (Reading σ) :=
  match g.plain with
  | none => .error g.surplus
  | some read =>
    if r.placed then .error g.surplus
    else r.settle.bind fun r =>
      (read argument r.value).map fun v => { r with value := v, placed := true }

/-- Takes an argument that is not two hyphens. -/
def Reading.argument {σ : Type} (g : Grammar σ) (r : Reading σ) (argument : Argument) :
    Except UsageError (Reading σ) :=
  match argument with
  | .inl '-' :: .inl '-' :: name => r.long g name
  | .inl '-' :: c :: rest => r.shorts g (c :: rest)
  | _ =>
    match r.waiting with
    | some (o, none) => .ok { r with waiting := some (o, some argument) }
    | _ => r.place g argument

/-- Reads arguments from some state on. The flag says whether all of them are plain. -/
def Reading.all {σ : Type} (g : Grammar σ) (onlyPlain : Bool) (r : Reading σ) :
    List Argument → Except UsageError (Reading σ)
  | [] => r.settle
  | a :: rest =>
    if onlyPlain then (r.place g a).bind fun r => Reading.all g true r rest
    else if a = .ofText "--" then Reading.all g true r rest
    else (r.argument g a).bind fun r => Reading.all g false r rest

/-- Reads the arguments of a command. -/
def Grammar.read {σ : Type} (g : Grammar σ) (value : σ) (arguments : List Argument) :
    Except UsageError σ :=
  (Reading.all g false (.start value) arguments).map Reading.value

end Courier
