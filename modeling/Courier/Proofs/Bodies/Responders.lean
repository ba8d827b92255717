import Courier.Perform
import Courier.Proofs.Bodies.Ledger

set_option autoImplicit false

/-! # Readers while a response is handled

Whatever handles a response, the reader that is held is the one of the response that comes back.
Reading does not close it; reading into memory does, and leaves a body without a reader in its
place. This holds for the ledger and for anything else that is kept like it, by `respond_keeps`. -/

namespace Courier

variable {start : World}

/-! ## Reading -/

/-- Reading a body does not close it. -/
theorem Body.openReader?_readAll (b : Body) : b.readAll.2.openReader? = b.openReader? := by
  unfold Body.readAll
  cases b.readError? with
  | some e => rfl
  | none => obtain ⟨reader, unread, isOpen⟩ := b; cases reader <;> cases isOpen <;> rfl

theorem Response.openReader?_readBody (r : Response) :
    r.readBody.2.openReader? = r.openReader? := by
  unfold Response.readBody Response.openReader?
  cases hb : r.body with
  | none => simp [hb]
  | some b => exact b.openReader?_readAll

/-! ## Books -/

/-- Whether something that is said of a world and of the reader that is held can be kept up while a
    response is handled: quiet events do not change it, and closing the reader leaves nothing
    held. -/
structure KeepsBooks (Books : World → Option Nat → Prop) : Prop where
  quiet : ∀ {w held} (event : Event), Books w held → event.isQuiet = true →
    Books (w.write [event]) held
  closing : ∀ {w held events}, Books w held → ClosesJust held events → Books (w.write events) none

theorem Ledger.keepsBooks (start : World) : KeepsBooks (Ledger start) where
  quiet event h := h.write_quiet_one event
  closing h := h.write_closing

theorem World.closes_write (w : World) (events : List Event) (n : Nat) :
    (w.write events).closes n =
      w.closes n + closesIn (events.map fun event => ⟨w.clock, event⟩) n :=
  closesIn_append ..

/-- The closes of a reader become no fewer, and with the one that is due as long as the reader is
    held they make up a number that stays the same. -/
theorem keepsBooks_closes (n past total : Nat) :
    KeepsBooks fun w held =>
      past ≤ w.closes n ∧ w.closes n + (if held = some n then 1 else 0) = total where
  quiet event hw hq := by
    rw [World.closes_write, List.map_singleton, closesIn_quiet hq]
    exact hw
  closing hw hc := by
    rw [World.closes_write, hc.closesIn_map]
    exact ⟨Nat.le_add_right_of_le hw.1, hw.2⟩

/-- Whether a responder hands back the books with the reader of its response held. -/
def Responder.Keeps (Books : World → Option Nat → Prop) (next : Responder) : Prop :=
  ∀ h w, Books w h.response.openReader? → Books (next h w).2 (next h w).1.2.response.openReader?

/-- A step that acts and then hands on, unless it fails. -/
def RespondStep.actsFirst (step : RespondStep) (next : Responder) : Responder := fun h => do
  let (result, h) ← step.act h
  match result with
  | .ok _ => next h
  | .error e => pure (.error e, h)

section Keeps

variable {Books : World → Option Nat → Prop} (books : KeepsBooks Books)

include books

/-- Reading a body into memory closes it, unless reading fails. -/
theorem KeepsBooks.bufferBody {w : World} {r : Response} (h : Books w r.openReader?) :
    Books (r.bufferBody w).2 (r.bufferBody w).1.2.openReader? := by
  unfold Response.bufferBody
  cases hb : r.body with
  | none => exact h
  | some b =>
    have hreader : b.readAll.2.openReader? = r.openReader? := by
      rw [b.openReader?_readAll, Response.openReader?, hb, Option.bind_some]
    dsimp only
    generalize b.readAll = read at hreader ⊢
    obtain ⟨result, b'⟩ := read
    rw [← hreader] at h
    cases result with
    | error e => exact h
    | ok content =>
      simp only [Act.bind_apply, Body.shutLogging_apply]
      exact books.closing h
        (b'.closesJust_closingEvents "Failed to close buffered response body")

/-- What a step does before it hands on keeps the books in order. -/
theorem RespondStep.act_keeps (step : RespondStep) : Responder.Keeps Books fun h => step.act h := by
  intro h w hw
  have hread := h.response.openReader?_readBody
  have hbuffer := books.bufferBody hw
  cases step with
  | decodeInto i =>
    dsimp only [RespondStep.act]
    generalize h.response.readBody = read at hread ⊢
    obtain ⟨result, r⟩ := read
    rw [← hread] at hw
    cases result with
    | error e => exact hw
    | ok content =>
      cases h.targets[i]? with
      | none => exact hw
      | some target =>
        dsimp only
        cases target.decode content <;> exact hw
  | statusCheck codes =>
    dsimp only [RespondStep.act]
    split <;> exact hw
  | buffer =>
    dsimp only [RespondStep.act, Act.bind_apply]
    generalize h.response.bufferBody w = buffered at hbuffer ⊢
    obtain ⟨⟨result, r⟩, v⟩ := buffered
    cases result with
    | error e => exact hbuffer
    | ok content => exact books.quiet _ hbuffer rfl
  | keep i =>
    dsimp only [RespondStep.act, Act.bind_apply]
    generalize h.response.bufferBody w = buffered at hbuffer ⊢
    obtain ⟨⟨result, r⟩, v⟩ := buffered
    cases result <;> exact hbuffer
  | ignoring => exact hw
  | closing => exact hw
  | serviceErrorUnless codes => exact hw
  | reject status => exact hw
  | probe name => exact hw

/-- Looking for the description of a failure reads the body into memory. -/
theorem describeFailure_keeps : Responder.Keeps Books describeFailure := by
  intro h w hw
  have hbuffer := books.bufferBody hw
  dsimp only [describeFailure, Act.bind_apply]
  generalize h.response.bufferBody w = buffered at hbuffer ⊢
  obtain ⟨⟨result, r⟩, v⟩ := buffered
  cases result with
  | error e => exact hbuffer
  | ok content =>
    dsimp only
    cases ServiceError.ofBody? content with
    | some service => exact hbuffer
    | none => exact books.quiet _ hbuffer rfl

theorem Responder.Keeps.actsFirst {next : Responder} (hnext : Responder.Keeps Books next)
    (step : RespondStep) : Responder.Keeps Books (step.actsFirst next) := by
  intro h w hw
  have hact := RespondStep.act_keeps books step h w hw
  dsimp only [RespondStep.actsFirst, Act.bind_apply] at hact ⊢
  generalize step.act h w = acted at hact ⊢
  obtain ⟨⟨result, h'⟩, v⟩ := acted
  cases result with
  | error e => exact hact
  | ok _ => exact hnext h' v hact

/-- Every step keeps the books that the steps inside it keep. -/
theorem Responder.Keeps.decorate {next : Responder} (hnext : Responder.Keeps Books next)
    (step : RespondStep) : Responder.Keeps Books (step.decorate next) := by
  cases step with
  | ignoring => exact hnext
  | closing =>
    intro h w hw
    have hv := hnext h w hw
    dsimp only [RespondStep.decorate, Act.bind_apply]
    generalize next h w = handled at hv ⊢
    obtain ⟨⟨result, h'⟩, v⟩ := handled
    simp only [Response.closeBody_apply, Act.pure_apply, Response.openReader?_closed]
    exact books.closing hv (h'.response.closesJust_closingEvents _)
  | serviceErrorUnless codes =>
    intro h w hw
    dsimp only [RespondStep.decorate]
    split
    · exact hnext h w hw
    · exact describeFailure_keeps books h w hw
  | probe name =>
    intro h w hw
    have hv := hnext h _ (books.quiet (.handling name h.response.bodyIsOpen) hw rfl)
    dsimp only [RespondStep.decorate, Act.bind_apply, record_apply]
    generalize next h _ = handled at hv ⊢
    obtain ⟨⟨result, h'⟩, v⟩ := handled
    exact books.quiet _ hv rfl
  | decodeInto i => exact hnext.actsFirst books (.decodeInto i)
  | statusCheck codes => exact hnext.actsFirst books (.statusCheck codes)
  | reject status => exact hnext.actsFirst books (.reject status)
  | buffer => exact hnext.actsFirst books .buffer
  | keep i => exact hnext.actsFirst books (.keep i)

/-- Every stack of steps keeps the books. -/
theorem respond_keeps (steps : List RespondStep) : Responder.Keeps Books (respond steps) := by
  induction steps with
  | nil => exact fun h w hw => hw
  | cons step rest ih => exact ih.decorate books step

end Keeps

/-! ## Judgement -/

/-- A responder that hands back the books with the reader of its response held. -/
def Responder.Careful (next : Responder) : Prop :=
  ∀ start h w, Ledger start w h.response.openReader? →
    Ledger start (next h w).2 (next h w).1.2.response.openReader?

/-- Every stack of steps is careful. -/
theorem respond_careful (steps : List RespondStep) : Responder.Careful (respond steps) :=
  fun start => respond_keeps (Ledger.keepsBooks start) steps

/-- Judging a response hands it back with its reader held, if it is still open. -/
theorem Ledger.judge {w : World} {r : Response} (h : Ledger start w r.openReader?)
    (expect : List Status) :
    Ledger start (Courier.judge expect r w).2 (Courier.judge expect r w).1.2.openReader? := by
  have hv := respond_careful [.closing, .serviceErrorUnless expect, .keep 0] start
    ⟨r, [.content ""]⟩ w h
  dsimp only [Courier.judge, Act.bind_apply]
  generalize respond _ _ w = handled at hv ⊢
  obtain ⟨⟨result, h'⟩, v⟩ := handled
  cases result with
  | error e => exact hv
  | ok _ =>
    dsimp only
    split
    · exact hv
    · have hbuffer := (Ledger.keepsBooks start).bufferBody hv
      dsimp only [Act.bind_apply] at hbuffer ⊢
      generalize h'.response.bufferBody v = buffered at hbuffer ⊢
      obtain ⟨⟨content, r'⟩, u⟩ := buffered
      cases content <;> exact hbuffer

end Courier
