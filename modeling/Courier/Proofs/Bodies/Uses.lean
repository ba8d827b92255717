import Courier.Proofs.Bodies.Responders
import Courier.Proofs.Text.Utf8

set_option autoImplicit false

/-! # What can be done with the body of a response

The holder of a response can read its body, close it, and have it read into memory, in any order and
as often as it likes. One relation, `ResponseUse.Step`, says all that a single use can do; what
holds of all uses one after another follows from it by induction on the uses. Two things stay the
same: the closings of the reader that the body had at first and the one that is still due make up
one, and the octets that have been handed out and those that are unread make up the content. A copy
in memory takes over what is unread, so that the content goes on where it was, while its reader is
another one.

The main statement is `body_content_conserved`. -/

namespace Courier

/-! ## Uses -/

/-- Something that the holder of a response may do with its body. -/
inductive ResponseUse
  /-- Reads up to some number of octets. -/
  | read (n : Nat)
  /-- Reads all that is left. -/
  | readAll
  /-- Reads all that is left as text. -/
  | readText
  /-- Closes the body and asks whether that has failed. -/
  | close
  /-- Closes the body of the response, come what may. -/
  | closeBody
  /-- Reads the body into memory. -/
  | buffer
  deriving DecidableEq

/-- What the holder of a response is told by a use. -/
inductive UseOutcome
  | octets (result : Except IoError Bytes)
  | text (result : Except IoError String)
  | closed (error : Option IoError)
  | done
  | buffered (result : Except IoError Bytes)

/-- Whether a read has failed, or what was read is not a text. -/
def UseOutcome.failed : UseOutcome → Bool
  | .octets (.error _) => true
  | .text (.error _) => true
  | .buffered (.error _) => true
  | _ => false

/-- Whether a copy in memory has taken the place of the body. -/
def UseOutcome.replaces : UseOutcome → Bool
  | .buffered (.ok _) => true
  | _ => false

/-- The octets that a read has handed out for good. -/
def UseOutcome.handedOut : UseOutcome → Bytes
  | .octets (.ok content) => content
  | .text (.ok characters) => Utf8.encode characters
  | _ => []

/-- Does something with the body of a response, if there is one. -/
def Response.useBody (r : Response) (act : Body → Act (UseOutcome × Body)) :
    Act (UseOutcome × Response) :=
  match r.body with
  | none => pure (.done, r)
  | some b => do
    let (outcome, b) ← act b
    pure (outcome, { r with body := some b })

/-- What a use does. -/
def ResponseUse.perform (r : Response) : ResponseUse → Act (UseOutcome × Response)
  | .read n => r.useBody fun b => pure (.octets (b.read n).1, (b.read n).2)
  | .readAll => r.useBody fun b => pure (.octets b.readAll.1, b.readAll.2)
  | .readText => r.useBody fun b => pure (.text b.readText.1, b.readText.2)
  | .close => r.useBody fun b => do
    let (b, error) ← b.shut
    pure (.closed error, b)
  | .closeBody => do
    let r ← r.closeBody
    pure (.done, r)
  | .buffer => do
    let (result, r) ← r.bufferBody
    pure (.buffered result, r)

/-! ## One use -/

/-- What a use of a body comes to, and the body afterwards. -/
inductive ResponseUse.Step (b : Body) : ResponseUse → UseOutcome → Body → Prop
  | read (n : Nat) :
      Step b (.read n) (.octets (.ok (b.unread.take n))) { b with unread := b.unread.drop n }
  | readAll : Step b .readAll (.octets (.ok b.unread)) { b with unread := [] }
  | readText {text : String} (decodes : Utf8.decode? b.unread = some text) :
      Step b .readText (.text (.ok text)) { b with unread := [] }
  | close : Step b .close (.closed b.close.error) { b with isOpen := false }
  | closeBody : Step b .closeBody .done { b with isOpen := false }
  | buffer : Step b .buffer (.buffered (.ok b.unread)) (Body.detached b.unread)
  /-- A read that fails may lose what is unread. -/
  | failed {use : ResponseUse} {outcome : UseOutcome} {rest : Bytes}
      (fails : outcome.failed = true) : Step b use outcome { b with unread := rest }

section Reading

variable (b : Body)

theorem Body.read_step (n : Nat) :
    ResponseUse.Step b (.read n) (.octets (b.read n).1) (b.read n).2 := by
  unfold Body.read
  cases b.readError? with
  | some e => exact .failed rfl
  | none =>
    dsimp only
    generalize (_ && List.isEmpty _) = fails
    cases fails with
    | true => exact .failed rfl
    | false => exact .read n

/-- Reading to the end hands out what is unread, or fails. -/
theorem Body.readAll_cases :
    b.readAll = (.ok b.unread, { b with unread := [] }) ∨
      ∃ e rest, b.readAll = (.error e, { b with unread := rest }) := by
  unfold Body.readAll
  cases b.readError? with
  | some e => exact .inr ⟨e, b.unread, rfl⟩
  | none =>
    dsimp only
    split
    · exact .inr ⟨_, [], rfl⟩
    · exact .inl rfl

theorem Body.readText_step : ResponseUse.Step b .readText (.text b.readText.1) b.readText.2 := by
  unfold Body.readText
  rcases b.readAll_cases with h | ⟨e, rest, h⟩
  · rw [h]
    dsimp only
    cases hdecode : Utf8.decode? b.unread with
    | some text => exact .readText hdecode
    | none => exact .failed rfl
  · rw [h]
    dsimp only
    exact .failed rfl

theorem Body.close_body : b.close.body = { b with isOpen := false } := by
  obtain ⟨reader, unread, isOpen⟩ := b
  cases isOpen <;> rfl

/-- Closing a body is told by what its closing comes to. -/
theorem Body.shut_apply (w : World) :
    b.shut w = ((b.close.body, b.close.error), w.write (b.close.closed.toList.map .closed)) := by
  unfold Body.shut
  cases b.close.closed <;> simp

end Reading

/-- **One use** of the body of a response. -/
theorem ResponseUse.perform_step (use : ResponseUse) {r : Response} {b : Body}
    (body : r.body = some b) (w : World) :
    ∃ b', (use.perform r w).1.2 = { r with body := some b' } ∧
      use.Step b (use.perform r w).1.1 b' := by
  obtain ⟨status, headers, body'⟩ := r
  obtain rfl : body' = some b := body
  cases use with
  | read n => exact ⟨_, rfl, b.read_step n⟩
  | readAll =>
    refine ⟨b.readAll.2, rfl, ?_⟩
    show Step b .readAll (.octets b.readAll.1) b.readAll.2
    rcases b.readAll_cases with h | ⟨e, rest, h⟩
    · rw [h]
      exact .readAll
    · rw [h]
      exact .failed rfl
  | readText => exact ⟨_, rfl, b.readText_step⟩
  | close =>
    refine ⟨{ b with isOpen := false }, ?_, ?_⟩ <;>
      simp only [perform, Response.useBody, Act.bind_apply, Body.shut_apply, Act.pure_apply,
        Body.close_body]
    exact .close
  | closeBody =>
    refine ⟨{ b with isOpen := false }, ?_, .closeBody⟩
    simp only [perform, Act.bind_apply, Response.closeBody_apply, Act.pure_apply, Response.closed,
      Option.map_some, Body.close_body]
  | buffer =>
    simp only [perform, Response.bufferBody, Act.bind_apply]
    rcases b.readAll_cases with h | ⟨e, rest, h⟩
    · rw [h]
      exact ⟨_, rfl, .buffer⟩
    · rw [h]
      exact ⟨_, rfl, .failed rfl⟩

/-- A body over a reader holds it open as long as it is open. -/
theorem Body.due_eq {b : Body} {n : Nat} (number : b.reader.number? = some n) :
    (if b.openReader? = some n then 1 else 0) = b.isOpen.toNat := by
  rw [Body.openReader?, number]
  cases b.isOpen <;> simp

theorem Body.openReader?_read (b : Body) (n : Nat) : (b.read n).2.openReader? = b.openReader? := by
  have hstep := b.read_step n
  generalize (b.read n).1 = result at hstep
  generalize (b.read n).2 = b' at hstep ⊢
  cases hstep <;> rfl

theorem Body.openReader?_readText (b : Body) : b.readText.2.openReader? = b.openReader? := by
  have hstep := b.readText_step
  generalize b.readText.1 = result at hstep
  generalize b.readText.2 = b' at hstep ⊢
  cases hstep <;> rfl

/-- A use keeps the books with the reader of the body held. -/
theorem ResponseUse.perform_keeps {Books : World → Option Nat → Prop} (books : KeepsBooks Books)
    (use : ResponseUse) {r : Response} {b : Body} (body : r.body = some b) {w : World}
    (h : Books w r.openReader?) : Books (use.perform r w).2 (use.perform r w).1.2.openReader? := by
  have hreader : r.openReader? = b.openReader? := by
    rw [Response.openReader?, body, Option.bind_some]
  -- Reading changes neither the world nor the reader.
  have hreads : ∀ (f : Body → UseOutcome × Body), (f b).2.openReader? = b.openReader? →
      Books (r.useBody (fun b => pure (f b)) w).2
        (r.useBody (fun b => pure (f b)) w).1.2.openReader? := by
    intro f hf
    simp only [Response.useBody, body, Act.bind_apply, Act.pure_apply]
    rw [hreader, ← hf] at h
    exact h
  cases use with
  | read n => exact hreads (fun b => (.octets (b.read n).1, (b.read n).2)) (b.openReader?_read n)
  | readAll => exact hreads (fun b => (.octets b.readAll.1, b.readAll.2)) b.openReader?_readAll
  | readText => exact hreads (fun b => (.text b.readText.1, b.readText.2)) b.openReader?_readText
  | close =>
    simp only [perform, Response.useBody, body, Act.bind_apply, Body.shut_apply, Act.pure_apply]
    rw [hreader] at h
    rw [Response.openReader?, Option.bind_some, Body.openReader?_close]
    rw [Body.closed_close]
    exact books.closing h ⟨[], (List.append_nil _).symm, by simp⟩
  | closeBody =>
    simp only [perform, Act.bind_apply, Response.closeBody_apply, Act.pure_apply,
      Response.openReader?_closed]
    exact books.closing h (r.closesJust_closingEvents _)
  | buffer => exact books.bufferBody h

/-! ## Uses one after another -/

/-- A response in use. -/
structure Custody where
  response : Response
  /-- Whether the body is still over the reader that it had at first. -/
  isFirst : Bool
  /-- How often that reader has been closed. -/
  closings : Nat

/-- The custody after a use. The reader of an open body is closed when the body is not open any
    longer, or when a copy takes its place. -/
def Custody.after (c : Custody) (outcome : UseOutcome) (r : Response) : Custody where
  response := r
  isFirst := c.isFirst && !outcome.replaces
  closings := c.closings +
    (c.isFirst && c.response.bodyIsOpen && (outcome.replaces || !r.bodyIsOpen)).toNat

/-- Uses a response in some ways, one after another. -/
def Custody.perform (c : Custody) : List ResponseUse → Act (List UseOutcome × Custody)
  | [] => pure ([], c)
  | use :: uses => do
    let (outcome, r) ← use.perform c.response
    let (outcomes, c) ← (c.after outcome r).perform uses
    pure (outcome :: outcomes, c)

/-- Lets go of the response. What comes of it is how often the reader that the body had at first has
    been closed by then. -/
def Custody.drop (c : Custody) : Act Nat := do
  c.response.drop
  pure (c.closings + (c.isFirst && c.response.bodyIsOpen).toNat)

/-! ## The reader that the body had at first -/

section Closings

variable {use : ResponseUse} {b b' : Body} {outcome : UseOutcome}

theorem UseOutcome.replaces_of_failed (h : outcome.failed = true) : outcome.replaces = false := by
  cases outcome with
  | buffered result =>
    cases result with
    | error e => rfl
    | ok content => exact absurd h (by simp [UseOutcome.failed])
  | _ => rfl

/-- A copy in memory has a reader of its own; otherwise the reader stays. -/
theorem ResponseUse.Step.reader (h : use.Step b outcome b') :
    b'.reader = if outcome.replaces then .detached else b.reader := by
  cases h with
  | failed fails => rw [outcome.replaces_of_failed fails]; rfl
  | _ => rfl

/-- Nothing but a copy opens a body that has been closed. -/
theorem ResponseUse.Step.not_open (h : use.Step b outcome b') (closed : b.isOpen = false)
    (kept : outcome.replaces = false) : b'.isOpen = false := by
  cases h with
  | close => rfl
  | closeBody => rfl
  | buffer => exact absurd kept (by simp [UseOutcome.replaces])
  | _ => exact closed

end Closings

/-- What is known of a response in use that had the body `b` when the world was `w`. -/
structure Custody.Sound (r : Response) (b : Body) (w : World) (c : Custody) (w' : World) :
    Prop where
  body : ∃ b', c.response = { r with body := some b' } ∧
    b'.reader = if c.isFirst then b.reader else .detached
  /-- The closings of the reader and the one that is due make up one, or none if the body has been
      closed before. -/
  closings : c.closings + (c.isFirst && c.response.bodyIsOpen).toNat = b.isOpen.toNat
  closes : ∀ n, w'.closes n + (if c.response.openReader? = some n then 1 else 0) =
    w.closes n + if b.openReader? = some n then 1 else 0

namespace Custody.Sound

variable {r : Response} {b : Body} {w w' : World} {c : Custody}

theorem refl (body : r.body = some b) (w : World) : Custody.Sound r b w ⟨r, true, 0⟩ w where
  body := ⟨b, by rw [← body], rfl⟩
  closings := by simp [Response.bodyIsOpen, body]
  closes n := by rw [Response.openReader?, body, Option.bind_some]

/-- A use keeps what is known. -/
theorem use (h : Custody.Sound r b w c w') (use : ResponseUse) :
    Custody.Sound r b w (c.after (use.perform c.response w').1.1 (use.perform c.response w').1.2)
      (use.perform c.response w').2 := by
  obtain ⟨b₁, hresponse, hreader⟩ := h.body
  have hbody : c.response.body = some b₁ := by rw [hresponse]
  obtain ⟨b₂, hr', hstep⟩ := use.perform_step hbody w'
  refine ⟨⟨b₂, ?_, ?_⟩, ?_, fun n => ?_⟩
  · rw [Custody.after, hr', hresponse]
  · rw [hstep.reader, hreader, Custody.after]
    cases c.isFirst <;> cases (use.perform c.response w').1.1.replaces <;> rfl
  · have hclosings := h.closings
    have hnot := hstep.not_open
    have hopen : c.response.bodyIsOpen = b₁.isOpen := by rw [Response.bodyIsOpen, hbody]; rfl
    have hopen' : (use.perform c.response w').1.2.bodyIsOpen = b₂.isOpen := by rw [hr']; rfl
    simp only [Custody.after, hopen, hopen'] at hclosings ⊢
    generalize (use.perform c.response w').1.1 = outcome at hnot ⊢
    rw [← hclosings, Nat.add_assoc]
    congr 1
    cases c.isFirst <;> cases hb : b₁.isOpen <;> cases hr : outcome.replaces <;>
      cases hb' : b₂.isOpen <;> simp_all
  · obtain ⟨-, hcloses⟩ := use.perform_keeps (keepsBooks_closes n 0 _) hbody
      ⟨Nat.zero_le _, h.closes n⟩
    exact hcloses

/-- Uses keep what is known. -/
theorem perform (h : Custody.Sound r b w c w') (uses : List ResponseUse) :
    Custody.Sound r b w (c.perform uses w').1.2 (c.perform uses w').2 := by
  induction uses generalizing c w' with
  | nil => exact h
  | cons use uses ih => exact ih (h.use use)

/-- The closings of the reader that the journal tells of are those that have been counted. -/
theorem closes_eq (h : Custody.Sound r b w c w') {n : Nat} (number : b.reader.number? = some n) :
    w'.closes n = w.closes n + c.closings := by
  obtain ⟨b', hresponse, hreader⟩ := h.body
  have hdue : (if c.response.openReader? = some n then 1 else 0) =
      (c.isFirst && c.response.bodyIsOpen).toNat := by
    rw [hresponse]
    show (if b'.openReader? = some n then 1 else 0) = (c.isFirst && b'.isOpen).toNat
    have hdetached : BodyReader.detached.number? = none := rfl
    rw [Body.openReader?, hreader]
    cases c.isFirst <;> cases b'.isOpen <;> simp [number, hdetached]
  have hcloses := h.closes n
  have hclosings := h.closings
  rw [hdue, Body.due_eq number] at hcloses
  omega

end Custody.Sound

/-- How often the reader has been closed when the response has been let go. -/
theorem Custody.Sound.drop {r : Response} {b : Body} {w w' : World} {c : Custody}
    (h : Custody.Sound r b w c w') :
    (c.drop w').1 = b.isOpen.toNat ∧
      ∀ n, b.reader.number? = some n → (c.drop w').2.closes n = w.closes n + b.isOpen.toNat := by
  refine ⟨h.closings, fun n number => ?_⟩
  simp only [Custody.drop, Act.bind_apply, Response.drop_apply, Act.pure_apply]
  rw [World.closes_write, (c.response.closesJust_closingEvents _).closesIn_map, h.closes n,
    Body.due_eq number]

/-! ## The content -/

/-- Whether reads of some unread octets are told what they are to be told, and what is unread in the
    end. Reading into memory takes nothing away from what is unread. -/
inductive Tells : Bytes → List ResponseUse → List UseOutcome → Bytes → Prop
  | nil (unread : Bytes) : Tells unread [] [] unread
  | read {unread rest : Bytes} {uses : List ResponseUse} {outcomes : List UseOutcome} (n : Nat)
      (h : Tells (unread.drop n) uses outcomes rest) :
      Tells unread (.read n :: uses) (.octets (.ok (unread.take n)) :: outcomes) rest
  | readAll {unread rest : Bytes} {uses : List ResponseUse} {outcomes : List UseOutcome}
      (h : Tells [] uses outcomes rest) :
      Tells unread (.readAll :: uses) (.octets (.ok unread) :: outcomes) rest
  | readText {unread rest : Bytes} {uses : List ResponseUse} {outcomes : List UseOutcome}
      {text : String} (encodes : Utf8.encode text = unread) (h : Tells [] uses outcomes rest) :
      Tells unread (.readText :: uses) (.text (.ok text) :: outcomes) rest
  | buffer {unread rest : Bytes} {uses : List ResponseUse} {outcomes : List UseOutcome}
      (h : Tells unread uses outcomes rest) :
      Tells unread (.buffer :: uses) (.buffered (.ok unread) :: outcomes) rest
  | close {unread rest : Bytes} {uses : List ResponseUse} {outcomes : List UseOutcome}
      (error : Option IoError) (h : Tells unread uses outcomes rest) :
      Tells unread (.close :: uses) (.closed error :: outcomes) rest
  | closeBody {unread rest : Bytes} {uses : List ResponseUse} {outcomes : List UseOutcome}
      (h : Tells unread uses outcomes rest) :
      Tells unread (.closeBody :: uses) (.done :: outcomes) rest

/-- What reads have handed out and what is unread in the end make up what was unread. -/
theorem Tells.handedOut_append {unread rest : Bytes} {uses : List ResponseUse}
    {outcomes : List UseOutcome} (h : Tells unread uses outcomes rest) :
    outcomes.flatMap UseOutcome.handedOut ++ rest = unread := by
  induction h with
  | nil unread => rfl
  | @read unread rest uses outcomes n _ ih =>
    rw [List.flatMap_cons, List.append_assoc, ih]
    exact List.take_append_drop n unread
  | @readAll unread rest uses outcomes _ ih =>
    rw [List.flatMap_cons, List.append_assoc, ih]
    exact List.append_nil unread
  | readText encodes _ ih =>
    rw [List.flatMap_cons, List.append_assoc, ih]
    exact (List.append_nil _).trans encodes
  | buffer _ ih => exact ih
  | close _ _ ih => exact ih
  | closeBody _ ih => exact ih

/-- Whether a body is open after a use that has not failed. -/
def ResponseUse.leavesOpen (isOpen : Bool) : ResponseUse → Bool
  | .close => false
  | .closeBody => false
  | .buffer => true
  | _ => isOpen

/-- What has become of a body that has been used without a failure. -/
structure Body.Conserved (b : Body) (uses : List ResponseUse) (outcomes : List UseOutcome)
    (b' : Body) : Prop where
  tells : Tells b.unread uses outcomes b'.unread
  /-- The body is closed from a closing on, until it is read into memory. -/
  isOpen : b'.isOpen = uses.foldl ResponseUse.leavesOpen b.isOpen
  /-- A copy in memory is detached. -/
  reader : b'.reader = if .buffer ∈ uses then .detached else b.reader

/-- A use that has not failed comes before others. -/
theorem Body.Conserved.cons {b b₁ b' : Body} {use : ResponseUse} {outcome : UseOutcome}
    {uses : List ResponseUse} {outcomes : List UseOutcome} (step : use.Step b outcome b₁)
    (succeeds : outcome.failed = false) (h : b₁.Conserved uses outcomes b') :
    b.Conserved (use :: uses) (outcome :: outcomes) b' := by
  obtain ⟨tells, isOpen, reader⟩ := h
  cases step with
  | read n => exact ⟨.read n tells, isOpen, by simpa using reader⟩
  | readAll => exact ⟨.readAll tells, isOpen, by simpa using reader⟩
  | readText decodes =>
    exact ⟨.readText (Utf8.encode_of_decode? decodes) tells, isOpen, by simpa using reader⟩
  | close => exact ⟨.close _ tells, isOpen, by simpa using reader⟩
  | closeBody => exact ⟨.closeBody tells, isOpen, by simpa using reader⟩
  | buffer =>
    refine ⟨.buffer tells, isOpen, ?_⟩
    rw [reader, if_pos List.mem_cons_self]
    exact ite_self _
  | failed fails => exact absurd (fails.symm.trans succeeds) (by simp)

/-- **Uses without a failure** conserve the content. -/
theorem Custody.perform_conserves (uses : List ResponseUse) {b : Body} {c : Custody}
    (body : c.response.body = some b) (w : World)
    (succeeds : ∀ outcome ∈ (c.perform uses w).1.1, outcome.failed = false) :
    ∃ b', (c.perform uses w).1.2.response = { c.response with body := some b' } ∧
      b.Conserved uses (c.perform uses w).1.1 b' := by
  induction uses generalizing c b w with
  | nil => exact ⟨b, by rw [← body]; rfl, .nil _, rfl, rfl⟩
  | cons use uses ih =>
    obtain ⟨b₁, hr', hstep⟩ := use.perform_step body w
    obtain ⟨b', hb', hconserved⟩ := ih (b := b₁)
      (c := c.after (use.perform c.response w).1.1 (use.perform c.response w).1.2)
      (congrArg Response.body hr') (use.perform c.response w).2
      fun outcome he => succeeds outcome (List.mem_cons_of_mem _ he)
    refine ⟨b', hb'.trans ?_, .cons hstep (succeeds _ List.mem_cons_self) hconserved⟩
    rw [Custody.after, hr']

/-! ## Reads that succeed and reads that fail -/

/-- Whether a use reads the body. -/
def ResponseUse.reads : ResponseUse → Bool
  | .close => false
  | .closeBody => false
  | _ => true

/-- Whether every read of a response hands out some content, or as much of it as it asks for. -/
structure Response.HandsOut (r : Response) (content : Bytes) (w : World) : Prop where
  read : ∀ n, ((ResponseUse.read n).perform r w).1.1 = .octets (.ok (content.take n))
  readAll : (ResponseUse.readAll.perform r w).1.1 = .octets (.ok content)
  readText : ∀ text, Utf8.encode text = content →
    (ResponseUse.readText.perform r w).1.1 = .text (.ok text)
  buffer : (ResponseUse.buffer.perform r w).1.1 = .buffered (.ok content)

section Reads

variable {r : Response} {b : Body}

theorem Body.readError?_eq_none (readable : b.isOpen = true ∨ b.reader = .detached) :
    b.readError? = none := by
  obtain ⟨reader, unread, isOpen⟩ := b
  rcases readable with h | h
  · exact if_pos h
  · obtain rfl : reader = .detached := h
    cases isOpen <;> rfl

/-- A body that has been closed cannot be read unless it is detached. -/
theorem ResponseUse.perform_fails (body : r.body = some b) (closed : b.isOpen = false)
    (attached : b.reader ≠ .detached) {use : ResponseUse} (reads : use.reads = true) (w : World) :
    (use.perform r w).1.1.failed = true := by
  have herror : ∃ e, b.readError? = some e := by
    obtain ⟨reader, unread, isOpen⟩ := b
    obtain rfl : isOpen = false := closed
    cases reader with
    | detached => exact absurd rfl attached
    | _ => exact ⟨_, rfl⟩
  obtain ⟨e, he⟩ := herror
  have hall : b.readAll = (.error e, b) := by rw [Body.readAll, he]
  cases use with
  | read n =>
    simp only [perform, Response.useBody, body, Act.bind_apply, Act.pure_apply, Body.read, he]
    rfl
  | readAll =>
    simp only [perform, Response.useBody, body, Act.bind_apply, Act.pure_apply, hall]
    rfl
  | readText =>
    simp only [perform, Response.useBody, body, Act.bind_apply, Act.pure_apply, Body.readText, hall]
    rfl
  | buffer =>
    simp only [perform, Response.bufferBody, body, Act.bind_apply, Act.pure_apply, hall]
    rfl
  | close => exact absurd reads (by simp [ResponseUse.reads])
  | closeBody => exact absurd reads (by simp [ResponseUse.reads])

/-- A body that can be read hands out octets as long as there are any. -/
theorem ResponseUse.perform_read (body : r.body = some b)
    (readable : b.isOpen = true ∨ b.reader = .detached) {n : Nat} (left : b.unread.take n ≠ [])
    (w : World) :
    ((ResponseUse.read n).perform r w).1.1 = .octets (.ok (b.unread.take n)) := by
  have hleft : (b.unread.take n).isEmpty = false := by simpa using left
  simp only [perform, Response.useBody, body, Act.bind_apply, Act.pure_apply, Body.read,
    Body.readError?_eq_none readable, hleft, Bool.and_false]
  rfl

theorem Body.read_of_sound (readable : b.isOpen = true ∨ b.reader = .detached)
    (sound : b.reader.breaks = false) :
    (∀ n, (b.read n).1 = .ok (b.unread.take n)) ∧
      b.readAll = (.ok b.unread, { b with unread := [] }) := by
  have hnone := Body.readError?_eq_none readable
  constructor
  · intro n
    rw [Body.read, hnone]
    dsimp only
    rw [sound, Bool.false_and, if_neg (by simp)]
  · rw [Body.readAll, hnone]
    dsimp only
    rw [sound, if_neg (by simp)]

/-- A body that can be read hands out its content, if its reader does not fail. -/
theorem Response.handsOut (body : r.body = some b)
    (readable : b.isOpen = true ∨ b.reader = .detached) (sound : b.reader.breaks = false)
    (w : World) : r.HandsOut b.unread w := by
  obtain ⟨hread, hall⟩ := Body.read_of_sound readable sound
  constructor
  · intro n
    simp only [ResponseUse.perform, Response.useBody, body, Act.bind_apply, Act.pure_apply, hread]
  · simp only [ResponseUse.perform, Response.useBody, body, Act.bind_apply, Act.pure_apply, hall]
  · intro text encodes
    have hdecode : Utf8.decode? b.unread = some text := encodes ▸ Utf8.decode?_encode text
    simp only [ResponseUse.perform, Response.useBody, body, Act.bind_apply, Act.pure_apply,
      Body.readText, hall, hdecode]
  · simp only [ResponseUse.perform, Response.bufferBody, body, Act.bind_apply, hall]
    rfl

end Reads

/-- **The content of a body is conserved**, whatever is done with it. The reader that the body has
    at first is closed once at most before the response is let go, and by then it has been closed
    once; a body that was closed from the beginning is not closed again. If a connection can see
    the reader being closed, this is what the journal tells.

    As long as no read has failed, reads are told the unread octets in their order, and what they
    have handed out and what is unread make up the content that the body had. Reading into memory
    is told all that is unread and leaves it unread. The body is closed exactly from a closing until
    it is read into memory. Reads of a body that has been closed fail if it is not detached. Other
    reads hand out what is unread; a reader that fails does so only when nothing is left. -/
theorem body_content_conserved {r : Response} {b : Body} (body : r.body = some b)
    (uses : List ResponseUse) (w : World) :
    let run := Custody.perform ⟨r, true, 0⟩ uses w
    let held := run.1.2
    let dropped := held.drop run.2
    (held.closings ≤ 1 ∧ dropped.1 = b.isOpen.toNat ∧
      ∀ n, b.reader.number? = some n → run.2.closes n = w.closes n + held.closings ∧
        dropped.2.closes n = w.closes n + dropped.1) ∧
    ((∀ outcome ∈ run.1.1, outcome.failed = false) →
      ∃ b', held.response = { r with body := some b' } ∧ b.Conserved uses run.1.1 b' ∧
        run.1.1.flatMap UseOutcome.handedOut ++ b'.unread = b.unread ∧
        (b'.isOpen = false → b'.reader ≠ .detached → ∀ use : ResponseUse, use.reads = true →
          (use.perform held.response run.2).1.1.failed = true) ∧
        (b'.isOpen = true ∨ b'.reader = .detached →
          (∀ n, b'.unread.take n ≠ [] → ((ResponseUse.read n).perform held.response run.2).1.1 =
            .octets (.ok (b'.unread.take n))) ∧
          (b'.reader.breaks = false → held.response.HandsOut b'.unread run.2))) := by
  intro run held dropped
  have hsound : Custody.Sound r b w held run.2 := (Custody.Sound.refl body w).perform uses
  obtain ⟨hdrop, hdropped⟩ := hsound.drop
  refine ⟨⟨?_, hdrop, fun n number => ⟨hsound.closes_eq number, ?_⟩⟩, fun succeeds => ?_⟩
  · have hle := b.isOpen.toNat_le
    have hclosings := hsound.closings
    omega
  · rw [hdropped n number, hdrop]
  · obtain ⟨b', hresponse, hconserved⟩ := Custody.perform_conserves uses body w succeeds
    have hbody : held.response.body = some b' := congrArg Response.body hresponse
    exact ⟨b', hresponse, hconserved, hconserved.tells.handedOut_append,
      fun closed attached use reads => ResponseUse.perform_fails hbody closed attached reads _,
      fun readable => ⟨fun n left => ResponseUse.perform_read hbody readable left _,
        fun sound => Response.handsOut hbody readable sound _⟩⟩

/-- A body that is read in part, into memory, closed, read on, and read into memory and closed once
    more: what is left can still be read, and its reader is closed once although closing it
    fails. -/
theorem body_content_conserved_copied :
    let b : Body := ⟨.closeFails 0, Utf8.encode "ab-c", true⟩
    let r : Response := ⟨⟨200⟩, [], some b⟩
    let uses : List ResponseUse := [.read 1, .buffer, .close, .read 2, .buffer, .closeBody]
    let run := Custody.perform ⟨r, true, 0⟩ uses World.quiet
    r.body = some b ∧ (∀ outcome ∈ run.1.1, outcome.failed = false) ∧
    run.1.2.response.bodyIsOpen = false ∧
    (ResponseUse.readText.perform run.1.2.response run.2).1.1 = .text (.ok "c") ∧
    run.2.closes 0 ≤ 1 ∧ (run.1.2.drop run.2).2.closes 0 = 1 := by
  intro b r uses run
  have succeeds : ∀ outcome ∈ run.1.1, outcome.failed = false := by decide +kernel
  have hhanded : run.1.1.flatMap UseOutcome.handedOut = Utf8.encode "ab-" := by decide +kernel
  obtain ⟨⟨hle, hdrop, hcloses⟩, hconserves⟩ :=
    body_content_conserved (r := r) (b := b) rfl uses World.quiet
  obtain ⟨hrun, hdropped⟩ := hcloses 0 rfl
  obtain ⟨b', hresponse, hconserved, hcontent, -, hreadable⟩ := hconserves succeeds
  have hunread : Utf8.encode "c" = b'.unread := by
    refine List.append_cancel_left (hhanded ▸ ?_ : Utf8.encode "ab-" ++ _ = Utf8.encode "ab-" ++ _)
    exact hcontent.symm
  have hdetached : b'.reader = .detached := hconserved.reader
  obtain ⟨-, hhandsOut⟩ := hreadable (.inr hdetached)
  refine ⟨rfl, succeeds, ?_, ?_, ?_, ?_⟩
  · rw [hresponse]
    exact hconserved.isOpen
  · have hsound : b'.reader.breaks = false := by rw [hdetached]; rfl
    exact (hhandsOut hsound).readText "c" hunread
  · rw [hrun]
    exact hle
  · rw [hdropped, hdrop]
    rfl

end Courier
