import Courier.Failure
import Courier.Text.Utf8

set_option autoImplicit false

/-! # Bodies of responses

A body is a source of octets that is closed once. A body over a connection is backed by a numbered
reader, whose closing the connection sees; a body over held content is not. A detached body stays
readable after it has been closed. -/

namespace Courier

/-- What backs a body. -/
inductive BodyReader
  /-- A reader that can be read and closed. -/
  | tracked (number : Nat)
  /-- A reader that fails after its content. -/
  | broken (number : Nat)
  /-- A reader that cannot be closed properly. -/
  | closeFails (number : Nat)
  /-- A reader that fails after its content and cannot be closed properly. -/
  | faulty (number : Nat)
  /-- Content that is held. -/
  | buffered
  /-- Content that is held and does not go away when the body is closed. -/
  | detached
  deriving DecidableEq

/-- A body: what backs it, the octets that have not been read, and whether it is open. -/
structure Body where
  reader : BodyReader
  unread : Bytes
  isOpen : Bool
  deriving DecidableEq

/-- The number of a reader that a connection sees. -/
def BodyReader.number? : BodyReader → Option Nat
  | .tracked n => some n
  | .broken n => some n
  | .closeFails n => some n
  | .faulty n => some n
  | .buffered => none
  | .detached => none

/-- Whether a reader fails after its content. -/
def BodyReader.breaks : BodyReader → Bool
  | .broken _ => true
  | .faulty _ => true
  | _ => false

/-- Whether a reader fails to close. -/
def BodyReader.jams : BodyReader → Bool
  | .closeFails _ => true
  | .faulty _ => true
  | _ => false

/-- An open body over held content. -/
def Body.ofBytes (content : Bytes) : Body := ⟨.buffered, content, true⟩

/-- An open body that stays readable. -/
def Body.detached (content : Bytes) : Body := ⟨.detached, content, true⟩

/-! ## Reading -/

/-- Why a body that has been closed cannot be read. -/
def Body.readError? (b : Body) : Option IoError :=
  if b.isOpen then none
  else
    match b.reader with
    | .detached => none
    | .buffered => some (.of .other "read on closed body")
    | _ => some (.of .other "read on closed tracked body")

/-- The failure of a broken reader. -/
def Body.reset : IoError := .of .connectionReset "connection reset"

/-- Reads up to `n` octets at once. -/
def Body.read (n : Nat) (b : Body) : Except IoError Bytes × Body :=
  match b.readError? with
  | some e => (.error e, b)
  | none =>
    let taken := b.unread.take n
    if b.reader.breaks && taken.isEmpty then (.error Body.reset, b)
    else (.ok taken, { b with unread := b.unread.drop n })

/-- Reads all that is left. A failing reader is read up to its failure, and what was read is
lost. -/
def Body.readAll (b : Body) : Except IoError Bytes × Body :=
  match b.readError? with
  | some e => (.error e, b)
  | none =>
    let rest := { b with unread := [] }
    if b.reader.breaks then (.error Body.reset, rest) else (.ok b.unread, rest)

/-- Reads all that is left as text. -/
def Body.readText (b : Body) : Except IoError String × Body :=
  match b.readAll with
  | (.error e, b) => (.error e, b)
  | (.ok content, b) =>
    match Utf8.decode? content with
    | some text => (.ok text, b)
    | none => (.error (.of .invalidData "stream did not contain valid UTF-8"), b)

/-! ## Closing -/

/-- What closing a body comes to: the body afterwards, the reader whose closing the connection sees,
    and whether that fails. A body that is not open stays as it is. -/
structure Body.Closing where
  body : Body
  closed : Option Nat
  error : Option IoError

/-- Closes a body. -/
def Body.close (b : Body) : Body.Closing :=
  if b.isOpen then
    ⟨{ b with isOpen := false }, b.reader.number?,
      if b.reader.jams then some (.of .other "close failed") else none⟩
  else ⟨b, none, none⟩

/-- Closing a second time does nothing. -/
theorem Body.close_close (b : Body) : b.close.body.close = ⟨b.close.body, none, none⟩ := by
  unfold Body.close
  by_cases h : b.isOpen <;> simp [h]

/-- A closed body is not open. -/
theorem Body.isOpen_close (b : Body) : b.close.body.isOpen = false := by
  unfold Body.close
  by_cases h : b.isOpen <;> simp [h]

end Courier
