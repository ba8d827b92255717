import Courier.Exchange.Send

set_option autoImplicit false

/-! # Requests that cannot be sent

A connection is only made for URLs of the web. Requests without a URL, and with one of another
scheme, are turned away before anything is sent. -/

namespace Courier

/-- Whether a URL names a host. -/
def Url.hasHost (u : Url) : Bool :=
  match u.authority with
  | some a => !a.host.isEmpty
  | none => false

/-- A URL without its user name and password, if it names a host and the user name is text. -/
def Url.withoutLogin (u : Url) : Url :=
  match u.authority with
  | some a =>
    if a.host.isEmpty ∨ (Utf8.decode? (Percent.decode (Utf8.encode a.user))).isNone then u
    else { u with authority := some { a with user := "", password := "" } }
  | none => u

/-- Why a request is turned away, if it is. -/
def Request.rejection? (r : Request) : Option TransportError :=
  match r.url with
  | none => some (.invalidUrl "request has no URL")
  | some u =>
    if u.hasHost ∧ (u.scheme = "http" ∨ u.scheme = "https") then none
    else some (.invalidUrl ("builder error for url (" ++ u.withoutLogin.text ++ ")"))

/-- A sender without a network: it turns away what cannot be sent, and reaches nobody with the
rest. -/
def disconnected : Sender := fun request =>
  match request.rejection? with
  | some e => pure (.error (.transport e))
  | none => pure (.error (.transport (.connection [.plain "no network"])))

end Courier
