import Courier.Url.Percent

set_option autoImplicit false

/-! # URLs

A URL in its parts. The parts are held as they are written, percent encoding included, so that the
text of a URL is its parts with the marks between them. -/

namespace Courier

/-- Who is addressed: credentials, host and port. A user name or a password that is empty is
absent. -/
structure Url.Authority where
  user : String
  password : String
  host : String
  port : Option Nat
  deriving DecidableEq

/-- The path of a URL: some text, or segments that each follow a slash. -/
inductive Url.Path
  | rootless (text : String)
  | rooted (segments : List String)
  deriving DecidableEq

/-- A URL. -/
structure Url where
  scheme : String
  authority : Option Url.Authority
  path : Url.Path
  /-- Whether the path follows the mark `/.`, which keeps an empty first segment from being read as
      the start of an authority. -/
  marked : Bool
  query : Option String
  fragment : Option String
  deriving DecidableEq

/-! ## Errors -/

/-- Why a text is not a URL. -/
inductive Url.Error
  | emptyHost
  | invalidDomain
  | invalidPort
  | invalidIpv4
  | invalidIpv6
  | invalidHostCharacter
  | noBase
  | rootlessBase
  deriving DecidableEq

/-- The wording of a URL error. -/
def Url.Error.message : Url.Error → String
  | .emptyHost => "empty host"
  | .invalidDomain => "invalid international domain name"
  | .invalidPort => "invalid port number"
  | .invalidIpv4 => "invalid IPv4 address"
  | .invalidIpv6 => "invalid IPv6 address"
  | .invalidHostCharacter => "invalid domain character"
  | .noBase => "relative URL without a base"
  | .rootlessBase => "relative URL with a cannot-be-a-base base"

/-! ## Schemes -/

/-- The default port of a scheme. -/
def Url.defaultPort? (scheme : String) : Option Nat :=
  match scheme with
  | "http" | "ws" => some 80
  | "https" | "wss" => some 443
  | "ftp" => some 21
  | _ => none

/-- The kinds of scheme: those of the web, the one for files, and all others. -/
inductive Url.Kind
  | web
  | file
  | other
  deriving DecidableEq

/-- The kind of a scheme. -/
def Url.kindOf (scheme : String) : Url.Kind :=
  if scheme = "file" then .file
  else if (Url.defaultPort? scheme).isSome then .web
  else .other

/-- Schemes of the web and the one for files read a backslash as a slash. -/
def Url.Kind.isSpecial : Url.Kind → Bool
  | .other => false
  | _ => true

/-! ## Text -/

/-- The text of an authority without its leading slashes. -/
def Url.Authority.text (a : Url.Authority) : String :=
  let password := if a.password.isEmpty then "" else ":" ++ a.password
  let login := a.user ++ password
  let port := match a.port with
    | some p => ":" ++ toString p
    | none => ""
  (if login.isEmpty then "" else login ++ "@") ++ a.host ++ port

/-- The text of a path. -/
def Url.Path.text : Url.Path → String
  | .rootless text => text
  | .rooted segments => String.join (segments.map ("/" ++ ·))

/-- The text of a URL. -/
def Url.text (u : Url) : String :=
  u.scheme ++ ":" ++
    (match u.authority with
      | some a => "//" ++ a.text
      | none => "") ++
    (if u.marked then "/." else "") ++ u.path.text ++
    (match u.query with
      | some q => "?" ++ q
      | none => "") ++
    (match u.fragment with
      | some f => "#" ++ f
      | none => "")

/-- The kind of a URL's scheme. -/
def Url.kind (u : Url) : Url.Kind := Url.kindOf u.scheme

end Courier
