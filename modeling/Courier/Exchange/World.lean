import Courier.Exchange.Error
import Courier.Time.Timer

set_option autoImplicit false

/-! # The world of an exchange

What an exchange depends on and what can be seen of it: a clock that moves only when something
waits, a caller who may cancel at some moment, a service that answers by a script, and a journal of
what happened when.

An action that always ends is an `Act`. A loop that may go on for ever is a `Run`, whose outcome is
`none` in that case. -/

namespace Courier

/-! ## Events -/

/-- The levels of log messages. -/
inductive LogLevel
  | debug
  | info
  | warn
  deriving DecidableEq

/-- Something that happened. -/
inductive Event
  /-- The transport took a request; the flag says whether it was cancelled by then. -/
  | sent (number : Nat) (request : Request) (isCancelled : Bool)
  /-- The reader of a body was closed. -/
  | closed (body : Nat)
  /-- A request passed a probe while it was prepared. -/
  | prepared (probe : PrepareProbe)
  /-- A request entered the part of a chain that a probe stands before. -/
  | entered (name : String)
  /-- The result of that part came back. -/
  | left (name : String) (result : Except SendError.Kind Status)
  /-- A response entered the part of a chain that a probe stands before. -/
  | handling (name : String) (isOpen : Bool)
  /-- That part was done with it. -/
  | handled (name : String) (isOpen succeeded : Bool)
  /-- A body was read into memory. -/
  | buffered (content : Bytes)
  /-- A message was logged. -/
  | logged (level : LogLevel) (message : String)

/-- An event and the millisecond in which it happened. -/
structure Entry where
  time : Nat
  event : Event

/-! ## Service -/

/-- The kinds of body that a service can answer with. -/
inductive BodyKind
  | tracked
  | broken
  | closeFails
  | faulty
  | buffered
  | detached
  deriving DecidableEq

/-- What a service answers. -/
inductive Answer
  | response (status : Status) (headers : Headers) (body : Option (BodyKind × Bytes))
  | timeout
  | connection (reason : String)
  | invalidUrl (reason : String)

/-- An answer, and how long it takes. -/
structure Reply where
  latencyMillis : Nat
  answer : Answer

/-! ## State -/

/-- The world. -/
structure World where
  /-- Milliseconds since the beginning. -/
  clock : Nat
  /-- The millisecond in which the caller cancels. -/
  cancelAt : Option Nat
  /-- The request during which the caller cancels. -/
  cancelDuring : Option Nat
  journal : List Entry
  /-- The replies that are still to come. -/
  script : List Reply
  /-- The reply after those. -/
  fallback : Reply
  /-- The number of requests so far. -/
  sent : Nat
  /-- The number of readers so far. -/
  readers : Nat
  timer : Timer

/-- A world in which nothing has happened yet, on a platform that has been up for an hour. -/
def World.start (script : List Reply) (fallback : Reply) : World :=
  ⟨0, none, none, [], script, fallback, 0, 0, .after 3600⟩

/-- A world without a service. -/
def World.quiet : World := World.start [] ⟨0, .timeout⟩

/-- Whether the caller has cancelled. -/
def World.isCancelled (w : World) : Bool :=
  match w.cancelAt with
  | some t => t ≤ w.clock
  | none => false

/-- How often entries of a journal tell that the reader of a body was closed. -/
def closesIn (entries : List Entry) (body : Nat) : Nat :=
  entries.countP fun entry => match entry.event with
    | .closed n => n == body
    | _ => false

/-- How often the reader of a body has been closed. -/
def World.closes (w : World) (body : Nat) : Nat := closesIn w.journal body

/-- The closes of all readers so far. -/
def World.allCloses (w : World) : List Nat := (List.range w.readers).map w.closes

/-- An action that ends. -/
abbrev Act := StateM World

/-- An action that may go on for ever. -/
abbrev Run := StateT World Option

instance : MonadLift Act Run := ⟨fun act w => some (act w)⟩

/-- Takes turns, each from the state and the world that the one before it left, until one brings a
    result. Nothing comes of turns that never end. -/
def World.takeTurns {σ α : Type} (turn : σ → Run (σ ⊕ α)) (w : World) (s : σ) :
    Option (α × World) :=
  match turn s w with
  | none => none
  | some (.inl s, w) => w |>.takeTurns turn s
  | some (.inr a, w) => some (a, w)
partial_fixpoint

/-- The loop of some turns from a state on. -/
def Run.iterate {σ α : Type} (turn : σ → Run (σ ⊕ α)) (s : σ) (w : World) : Option (α × World) :=
  w.takeTurns turn s

/-! ## Journal -/

/-- Writes an event into the journal. -/
def record (event : Event) : Act Unit :=
  modify fun w => { w with journal := w.journal ++ [⟨w.clock, event⟩] }

/-- Writes a message into the log. -/
def log (level : LogLevel) (message : String) : Act Unit := record (.logged level message)

/-! ## Bodies -/

/-- What backs a body of the given kind; the number is for one that a connection sees. -/
def BodyKind.reader (n : Nat) : BodyKind → BodyReader
  | .tracked => .tracked n
  | .broken => .broken n
  | .closeFails => .closeFails n
  | .faulty => .faulty n
  | .buffered => .buffered
  | .detached => .detached

/-- A body of the given kind; one that a connection sees gets the next number. -/
def Body.make (kind : BodyKind) (content : Bytes) : Act Body := do
  let n := (← get).readers
  let reader := kind.reader n
  if reader.number?.isSome then modify fun w => { w with readers := n + 1 }
  pure ⟨reader, content, true⟩

/-- Closes a body and says whether that failed. -/
def Body.shut (b : Body) : Act (Body × Option IoError) := do
  let closing := b.close
  match closing.closed with
  | some n => record (.closed n)
  | none => pure ()
  pure (closing.body, closing.error)

/-- Closes a body; a failure only leaves a message. -/
def Body.shutLogging (complaint : String) (b : Body) : Act Body := do
  let (b, error) ← b.shut
  match error with
  | some e => log .warn (complaint ++ ": " ++ e.message)
  | none => pure ()
  pure b

/-- Lets go of a body, which closes it if it is open. -/
def Body.drop (b : Body) : Act Unit := do
  let _ ← b.shutLogging "Failed to close dropped response body"

/-! ## Responses -/

/-- Closes the body of a response, if it has one. -/
def Response.closeBody (r : Response) : Act Response :=
  match r.body with
  | none => pure r
  | some b => do
    let b ← b.shutLogging "Failed to close response body"
    pure { r with body := some b }

/-- Reads the whole body of a response and closes it. A copy that stays readable takes its place. -/
def Response.bufferBody (r : Response) : Act (Except IoError Bytes × Response) :=
  match r.body with
  | none => pure (.ok [], r)
  | some b =>
    match b.readAll with
    | (.error e, b) => pure (.error e, { r with body := some b })
    | (.ok content, b) => do
      let _ ← b.shutLogging "Failed to close buffered response body"
      pure (.ok content, { r with body := some (Body.detached content) })

/-- Lets go of a response. -/
def Response.drop (r : Response) : Act Unit :=
  match r.body with
  | none => pure ()
  | some b => b.drop

/-- Closes the body of the response that travels with an error. -/
def SendError.closeResponse (e : SendError) : Act SendError :=
  match e with
  | .unexpectedStatus method url status response => do
    let response ← response.closeBody
    pure (.unexpectedStatus method url status response)
  | e => pure e

/-- Lets go of an error. -/
def SendError.drop (e : SendError) : Act Unit :=
  match e.response? with
  | some r => r.drop
  | none => pure ()

/-- Lets go of a result. -/
def SendResult.drop : SendResult → Act Unit
  | .ok r => r.drop
  | .error e => e.drop

/-! ## Waiting -/

/-- The milliseconds that a wait takes if it begins now. -/
def World.waitMillis (w : World) (d : Duration) : Nat := w.timer.millis w.clock d

/-- What a wait comes to. -/
inductive Pause
  | finished
  | cancelled
  deriving DecidableEq

/-- The wording for a wait that did not finish. -/
def Pause.interrupted : String := "Sleep interrupted by cancellation"

/-- Moves the clock to a moment. -/
def advanceTo (time : Nat) : Act Unit := modify fun w => { w with clock := time }

/-- Waits for a span. If the wait is cancellable it ends when the caller cancels, and does not begin
    after that, even if the span is zero. -/
def pause (d : Duration) (cancellable : Bool) : Act Pause := do
  let w ← get
  let finish := w.clock + w.waitMillis d
  if cancellable && w.isCancelled then pure .cancelled
  else
    match w.cancelAt with
    | some t =>
      if cancellable && t < finish then do
        advanceTo t
        pure .cancelled
      else do
        advanceTo finish
        pure .finished
    | none => do
      advanceTo finish
      pure .finished

end Courier
