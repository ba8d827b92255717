import Courier.Proofs.Bodies.Responders
import Courier.Proofs.Judgement.Verdict

set_option autoImplicit false

/-! # Closing the body while a response is handled

A step that closes the body acts when all the steps inside it are done. Nothing reads the body after
that but steps further out that close it as well, and so steps that close can be put into a chain at
any places, however deep, without any effect on what the chain comes to. What carries the proof is
that a step does all that it has to do before it hands on: with and without the steps that close,
the steps inside it begin with the same response and the same world.

The main statement is `closings_change_nothing`. -/

namespace Courier

/-! ## Chains with more steps that close -/

/-- Whether the second chain is the first one with steps that close the body put in at some
    places. -/
inductive WithClosings : List RespondStep → List RespondStep → Prop
  | nil : WithClosings [] []
  | step {steps full : List RespondStep} (step : RespondStep) (h : WithClosings steps full) :
      WithClosings (step :: steps) (step :: full)
  | closing {steps full : List RespondStep} (h : WithClosings steps full) :
      WithClosings steps (.closing :: full)

/-! ## What a handling comes to -/

/-- What a handling comes to: a result, the response and the targets as they are then, and the world
    afterwards. -/
abbrev Handled := (Except RespondError Unit × Handling) × World

/-- The content that an event tells to have been read into memory. -/
def Event.content? : Event → Option Bytes
  | .buffered content => some content
  | _ => none

/-- The contents that have been read into memory by steps for it, in their order. -/
def World.contents (w : World) : List Bytes := w.journal.filterMap fun entry => entry.event.content?

theorem World.contents_write (w : World) (events : List Event) :
    (w.write events).contents = w.contents ++ events.filterMap Event.content? := by
  simp only [World.contents, World.write, List.filterMap_append, List.filterMap_map]
  rfl

/-- Closing a body reads nothing into memory. -/
theorem World.contents_write_closingEvents (w : World) (complaint : String) (r : Response) :
    (w.write (r.closingEvents complaint)).contents = w.contents := by
  rw [World.contents_write]
  unfold Response.closingEvents
  cases r.body with
  | none => simp
  | some b =>
    simp only [Option.map_some, Option.getD_some, Body.closingEvents]
    cases b.close.closed <;> cases b.close.error <;> simp [Event.content?]

/-- Whether the second of two handlings comes to the same as the first, except that it may have
    closed the body. -/
structure SameUpToClosing (bare full : Handled) : Prop where
  result : full.1.1 = bare.1.1
  targets : full.1.2.targets = bare.1.2.targets
  response : full.1.2.response = bare.1.2.response ∨
    full.1.2.response = bare.1.2.response.closed
  contents : full.2.contents = bare.2.contents

theorem SameUpToClosing.refl (handled : Handled) : SameUpToClosing handled handled :=
  ⟨rfl, rfl, .inl rfl, rfl⟩

theorem Response.bodyIsOpen_closed (r : Response) : r.closed.bodyIsOpen = false := by
  obtain ⟨status, headers, body⟩ := r
  cases body with
  | none => rfl
  | some b => exact b.isOpen_close

/-! ## Steps -/

section Steps

variable {bare full : Responder} {h : Handling} {w : World}

/-- Closing both bodies leaves no difference. -/
theorem SameUpToClosing.response_closed {first second : Handled}
    (same : SameUpToClosing first second) :
    second.1.2.response.closed = first.1.2.response.closed := by
  rcases same.response with hr | hr
  · exact congrArg Response.closed hr
  · exact (congrArg Response.closed hr).trans (Response.closed_closed _)

/-- Closing the body in the second handling alone. -/
theorem SameUpToClosing.closing (same : SameUpToClosing (bare h w) (full h w)) :
    SameUpToClosing (bare h w) (RespondStep.closing.decorate full h w) := by
  rw [RespondStep.decorate_closing_apply]
  exact ⟨same.result, same.targets, .inr same.response_closed,
    (World.contents_write_closingEvents ..).trans same.contents⟩

/-- Closing the body in both handlings. -/
theorem SameUpToClosing.both_closing (same : SameUpToClosing (bare h w) (full h w)) :
    SameUpToClosing (RespondStep.closing.decorate bare h w)
      (RespondStep.closing.decorate full h w) := by
  rw [RespondStep.decorate_closing_apply, RespondStep.decorate_closing_apply]
  refine ⟨same.result, same.targets, .inl same.response_closed, ?_⟩
  dsimp only
  rw [World.contents_write_closingEvents, World.contents_write_closingEvents, same.contents]

/-- A step that acts first hands the same on to both. -/
theorem SameUpToClosing.actsFirst (same : ∀ h w, SameUpToClosing (bare h w) (full h w))
    (step : RespondStep) (h : Handling) (w : World) :
    SameUpToClosing (step.actsFirst bare h w) (step.actsFirst full h w) := by
  dsimp only [RespondStep.actsFirst, Act.bind_apply]
  generalize step.act h w = acted
  obtain ⟨⟨result, h'⟩, v⟩ := acted
  cases result with
  | error e => exact .refl _
  | ok _ => exact same h' v

/-- A step around both handlings leaves them the same up to closing. -/
theorem SameUpToClosing.decorate (same : ∀ h w, SameUpToClosing (bare h w) (full h w))
    (step : RespondStep) (h : Handling) (w : World) :
    SameUpToClosing (step.decorate bare h w) (step.decorate full h w) := by
  cases step with
  | ignoring => exact same h w
  | closing => exact (same h w).both_closing
  | serviceErrorUnless codes =>
    dsimp only [RespondStep.decorate]
    split
    · exact same h w
    · exact .refl _
  | probe name =>
    have hsame := same h (w.write [.handling name h.response.bodyIsOpen])
    dsimp only [RespondStep.decorate, Act.bind_apply, record_apply]
    refine ⟨hsame.result, hsame.targets, hsame.response, ?_⟩
    -- The two records of what was handled may differ in whether the body is open.
    simp only [Act.pure_apply, World.contents_write, List.filterMap_cons, Event.content?,
      List.filterMap_nil, List.append_nil]
    exact hsame.contents
  | decodeInto i => exact .actsFirst same (.decodeInto i) h w
  | statusCheck codes => exact .actsFirst same (.statusCheck codes) h w
  | reject status => exact .actsFirst same (.reject status) h w
  | buffer => exact .actsFirst same .buffer h w
  | keep i => exact .actsFirst same (.keep i) h w

end Steps

/-- A chain comes to the same with and without more steps that close, up to closing. -/
theorem WithClosings.same {steps full : List RespondStep} (inserted : WithClosings steps full)
    (h : Handling) (w : World) : SameUpToClosing (respond steps h w) (respond full h w) := by
  induction inserted generalizing h w with
  | nil => exact .refl _
  | step step _ ih => exact .decorate ih step h w
  | closing _ ih => exact (ih h w).closing

/-- A chain that begins with closing leaves a body that is not open. -/
theorem respond_closing (steps : List RespondStep) (h : Handling) (w : World) :
    (respond (.closing :: steps) h w).1.2.response.bodyIsOpen = false := by
  show (RespondStep.closing.decorate (respond steps) h w).1.2.response.bodyIsOpen = false
  rw [RespondStep.decorate_closing_apply]
  exact Response.bodyIsOpen_closed _

/-! ## Closes of a reader -/

/-- The world once the response of a handling has been let go. -/
def Handled.dropped (handled : Handled) : World :=
  (handled.1.2.response.drop handled.2).2

/-- While a response is handled no reader is closed but the one that its body holds open, and that
    one is closed once at most. -/
theorem respond_closes (steps : List RespondStep) (h : Handling) (w : World) (n : Nat) :
    (respond steps h w).2.closes n ≤ w.closes n + 1 ∧
    (h.response.openReader? ≠ some n → (respond steps h w).2.closes n = w.closes n) := by
  obtain ⟨hgrows, hcloses⟩ :=
    respond_keeps (keepsBooks_closes n _ _) steps h w ⟨Nat.le_refl _, rfl⟩
  refine ⟨?_, fun hother => ?_⟩
  · have hdue : (if h.response.openReader? = some n then 1 else 0) ≤ 1 := by split <;> omega
    omega
  · rw [if_neg hother, Nat.add_zero] at hcloses
    omega

/-- A reader that is not closed while a response is handled is closed when the response is let go,
    and not otherwise. -/
theorem respond_dropped_closes (steps : List RespondStep) (h : Handling) (w : World) (n : Nat) :
    (Handled.dropped (respond steps h w)).closes n =
      w.closes n + if h.response.openReader? = some n then 1 else 0 := by
  have books := keepsBooks_closes n (w.closes n)
    (w.closes n + if h.response.openReader? = some n then 1 else 0)
  have hkept := respond_keeps books steps h w ⟨Nat.le_refl _, rfl⟩
  obtain ⟨-, hcloses⟩ := books.closing hkept
    (Response.closesJust_closingEvents "Failed to close dropped response body" _)
  -- Nothing is held after the response is gone, so that nothing is due any more.
  simpa [Handled.dropped, Response.drop_apply] using hcloses

/-! ## Targets -/

/-- What is handed on after an action, unless it has failed. -/
def handedOn (acted : Handled) : Option (Handling × World) :=
  match acted.1.1 with
  | .ok _ => some (acted.1.2, acted.2)
  | .error _ => none

/-- What a step hands on to the steps inside it, unless it keeps them from acting. -/
def RespondStep.handsOn (step : RespondStep) (h : Handling) (w : World) :
    Option (Handling × World) :=
  match step with
  | .serviceErrorUnless codes => if codes.contains h.response.status then some (h, w) else none
  | .probe name => some (h, w.write [.handling name h.response.bodyIsOpen])
  | step => handedOn (step.act h w)

/-- Whether a step of a chain is reached while a response is handled, and what it is given. -/
inductive Reached : List RespondStep → Handling → World → RespondStep → Handling → Prop
  | first (step : RespondStep) (rest : List RespondStep) (h : Handling) (w : World) :
      Reached (step :: rest) h w step h
  | inside {outer step : RespondStep} {rest : List RespondStep} {h h' given : Handling}
      {w w' : World} (handsOn : outer.handsOn h w = some (h', w'))
      (inner : Reached rest h' w' step given) : Reached (outer :: rest) h w step given

/-- Whether a step succeeds in reading a value for a target from what it is given. -/
inductive RespondStep.Fills (given : Handling) (i : Nat) : RespondStep → Target → Prop
  | decoded {content : Bytes} {target value : Target} (read : given.response.content = .ok content)
      (present : given.targets[i]? = some target) (decodes : target.decode content = .ok value) :
      Fills given i (.decodeInto i) value
  | kept {content : Bytes} (read : given.response.content = .ok content) :
      Fills given i (.keep i) (.content (Utf8.lossy content))

/-- Whether a target is what it was before a step, or what the step has read for it. -/
def RespondStep.Accounts (step : RespondStep) (given : Handling) (i : Nat) (targets : List Target) :
    Prop :=
  targets[i]? = given.targets[i]? ∨ ∃ value, step.Fills given i value ∧ targets[i]? = some value

/-- A step that fills a target accounts for all of them. -/
theorem RespondStep.accounts_set {step : RespondStep} {given : Handling} {j : Nat} {value : Target}
    (fills : step.Fills given j value) (i : Nat) :
    step.Accounts given i (given.targets.set j value) := by
  unfold RespondStep.Accounts
  rw [List.getElem?_set]
  by_cases hij : j = i
  · subst hij
    by_cases hlt : j < given.targets.length
    · exact .inr ⟨value, fills, by rw [if_pos rfl, if_pos hlt]⟩
    · refine .inl ?_
      rw [if_pos rfl, if_neg hlt, List.getElem?_eq_none (Nat.le_of_not_lt hlt)]
  · exact .inl (if_neg hij)

/-- What a step does before it hands on. -/
theorem RespondStep.act_accounts (step : RespondStep) (given : Handling) (w : World) (i : Nat) :
    step.Accounts given i (step.act given w).1.2.targets := by
  cases step with
  | decodeInto j =>
    have hread : given.response.readBody.1 = given.response.content := rfl
    dsimp only [RespondStep.act]
    generalize given.response.readBody = read at hread ⊢
    obtain ⟨result, r⟩ := read
    cases result with
    | error e => exact .inl rfl
    | ok content =>
      cases present : given.targets[j]? with
      | none => exact .inl rfl
      | some target =>
        dsimp only
        cases decodes : target.decode content with
        | error fault => exact .inl rfl
        | ok value => exact accounts_set (.decoded hread.symm present decodes) i
  | keep j =>
    cases read : given.response.content with
    | error e =>
      obtain ⟨r, hbuffer⟩ := Response.bufferBody_error read w
      dsimp only [RespondStep.act, Act.bind_apply]
      rw [hbuffer]
      exact .inl rfl
    | ok content =>
      rw [RespondStep.act_keep_of_ok read]
      exact accounts_set (.kept read) i
  | buffer =>
    dsimp only [RespondStep.act, Act.bind_apply]
    generalize given.response.bufferBody w = buffered
    obtain ⟨⟨result, r⟩, v⟩ := buffered
    cases result <;> exact .inl rfl
  | statusCheck codes =>
    dsimp only [RespondStep.act]
    split <;> exact .inl rfl
  | ignoring => exact .inl rfl
  | closing => exact .inl rfl
  | serviceErrorUnless codes => exact .inl rfl
  | reject status => exact .inl rfl
  | probe name => exact .inl rfl

theorem describeFailure_targets (h : Handling) (w : World) :
    (describeFailure h w).1.2.targets = h.targets := by
  dsimp only [describeFailure, Act.bind_apply]
  generalize h.response.bufferBody w = buffered
  obtain ⟨⟨result, r⟩, v⟩ := buffered
  cases result with
  | error e => rfl
  | ok content =>
    dsimp only
    cases ServiceError.ofBody? content <;> rfl

section Passing

variable (step : RespondStep) (h : Handling) (w : World) (i : Nat)

/-- Whether a step passes on what it has read, with whatever is inside it deciding the result. -/
def RespondStep.PassesOn : Prop :=
  ∃ h' w', step.handsOn h w = some (h', w') ∧ step.Accounts h i h'.targets ∧
    ∀ next, (step.decorate next h w).1.1 = (next h' w').1.1 ∧
      (step.decorate next h w).1.2.targets = (next h' w').1.2.targets

/-- Whether a step ends the handling, with whatever is inside it. -/
def RespondStep.Ends : Prop :=
  step.handsOn h w = none ∧ ∃ handled : Handled,
    step.Accounts h i handled.1.2.targets ∧ ∀ next, step.decorate next h w = handled

theorem RespondStep.passesOn_or_ends_of_actsFirst (decorates : step.decorate = step.actsFirst)
    (handsOn : step.handsOn h w = handedOn (step.act h w)) :
    step.PassesOn h w i ∨ step.Ends h w i := by
  have haccounts := step.act_accounts h w i
  unfold RespondStep.PassesOn RespondStep.Ends
  simp only [decorates, handsOn, RespondStep.actsFirst, Act.bind_apply]
  generalize step.act h w = acted at haccounts ⊢
  obtain ⟨⟨result, h'⟩, v⟩ := acted
  cases result with
  | ok _ => exact .inl ⟨h', v, rfl, haccounts, fun _ => ⟨rfl, rfl⟩⟩
  | error e => exact .inr ⟨rfl, _, haccounts, fun _ => rfl⟩

/-- A step passes on or ends the handling. -/
theorem RespondStep.passesOn_or_ends : step.PassesOn h w i ∨ step.Ends h w i := by
  cases step with
  | ignoring => exact .inl ⟨h, w, rfl, .inl rfl, fun _ => ⟨rfl, rfl⟩⟩
  | closing =>
    refine .inl ⟨h, w, rfl, .inl rfl, fun next => ?_⟩
    rw [RespondStep.decorate_closing_apply]
    exact ⟨rfl, rfl⟩
  | serviceErrorUnless codes =>
    unfold RespondStep.PassesOn RespondStep.Ends
    dsimp only [RespondStep.decorate, RespondStep.handsOn]
    split
    · exact .inl ⟨h, w, rfl, .inl rfl, fun _ => ⟨rfl, rfl⟩⟩
    · exact .inr ⟨rfl, _, .inl (congrArg (·[i]?) (describeFailure_targets h w)), fun _ => rfl⟩
  | probe name => exact .inl ⟨h, _, rfl, .inl rfl, fun _ => ⟨rfl, rfl⟩⟩
  | decodeInto j => exact passesOn_or_ends_of_actsFirst _ h w i rfl rfl
  | statusCheck codes => exact passesOn_or_ends_of_actsFirst _ h w i rfl rfl
  | reject status => exact passesOn_or_ends_of_actsFirst _ h w i rfl rfl
  | buffer => exact passesOn_or_ends_of_actsFirst _ h w i rfl rfl
  | keep j => exact passesOn_or_ends_of_actsFirst _ h w i rfl rfl

end Passing

/-- A target that is not what it was has been filled by a step that was reached. -/
theorem respond_targets (steps : List RespondStep) (h : Handling) (w : World) (i : Nat) :
    (respond steps h w).1.2.targets[i]? = h.targets[i]? ∨
      ∃ step given value, Reached steps h w step given ∧ step.Fills given i value ∧
        (respond steps h w).1.2.targets[i]? = some value := by
  induction steps generalizing h w with
  | nil => exact .inl rfl
  | cons step rest ih =>
    have hrespond : respond (step :: rest) h w = step.decorate (respond rest) h w := rfl
    rw [hrespond]
    rcases step.passesOn_or_ends h w i with ⟨h', w', hon, haccounts, hpass⟩ |
      ⟨-, handled, haccounts, hend⟩
    · rw [(hpass _).2]
      rcases ih h' w' with hsame | ⟨inner, given, value, hreached, hfills, hvalue⟩
      · rw [hsame]
        rcases haccounts with hkept | ⟨value, hfills, hvalue⟩
        · exact .inl hkept
        · exact .inr ⟨step, h, value, .first .., hfills, hvalue⟩
      · exact .inr ⟨inner, given, value, .inside hon hreached, hfills, hvalue⟩
    · rw [hend]
      rcases haccounts with hkept | ⟨value, hfills, hvalue⟩
      · exact .inl hkept
      · exact .inr ⟨step, h, value, .first .., hfills, hvalue⟩

/-! ## Closings at any places -/

/-- **Steps that close the body change nothing of what a chain comes to**, wherever and however
    often they are put in. The result is the same, and so are the targets and what has been read
    into memory; the response is the same, but for its body being closed. If closing is the first
    step, the body is not open in the end, whatever the result is. No reader is closed but the one
    that the body of the response held open, and that one is closed once at most; when the response
    is let go, it has been closed once, by either chain. A target that is not what it was has the
    value that a step read for it which was reached and did not fail. -/
theorem closings_change_nothing {steps full : List RespondStep} (inserted : WithClosings steps full)
    (h : Handling) (w : World) :
    let bare : Handled := respond steps h w
    let closed : Handled := respond full h w
    closed.1.1 = bare.1.1 ∧ closed.1.2.targets = bare.1.2.targets ∧
    closed.2.contents = bare.2.contents ∧
    (closed.1.2.response = bare.1.2.response ∨
      closed.1.2.response = bare.1.2.response.closed) ∧
    (full.head? = some .closing → closed.1.2.response.bodyIsOpen = false) ∧
    (∀ n, closed.2.closes n ≤ w.closes n + 1 ∧
      (h.response.openReader? ≠ some n → closed.2.closes n = w.closes n)) ∧
    (∀ n, bare.dropped.closes n = closed.dropped.closes n ∧
      closed.dropped.closes n =
        w.closes n + if h.response.openReader? = some n then 1 else 0) ∧
    ∀ i, closed.1.2.targets[i]? = h.targets[i]? ∨
      ∃ step given value, Reached steps h w step given ∧ step.Fills given i value ∧
        closed.1.2.targets[i]? = some value := by
  intro bare closed
  have same : SameUpToClosing bare closed := inserted.same h w
  refine ⟨same.result, same.targets, same.contents, same.response, fun hfirst => ?_,
    respond_closes full h w, fun n => ?_, fun i => ?_⟩
  · obtain ⟨rest, rfl⟩ := List.head?_eq_some_iff.1 hfirst
    exact respond_closing rest h w
  · have hfull : closed.dropped.closes n = _ := respond_dropped_closes full h w n
    exact ⟨(respond_dropped_closes steps h w n).trans hfull.symm, hfull⟩
  · rw [same.targets]
    exact respond_targets steps h w i

/-- The texts that a target has read from an object. -/
def Target.texts? : Target → Option (List (String × String))
  | .texts members => some members
  | _ => none

/-- Three closings around a step that decodes and a step that fails, with a reader whose closing
    fails: the body is closed once, and its texts have been read before. -/
theorem closings_change_nothing_refused :
    let steps : List RespondStep := [.decodeInto 0, .statusCheck [⟨204⟩]]
    let full : List RespondStep :=
      [.closing, .decodeInto 0, .closing, .statusCheck [⟨204⟩], .closing]
    let body := Utf8.encode "\x7b\"state\": \"done\"\x7d"
    let h : Handling := ⟨⟨⟨200⟩, [], some ⟨.closeFails 0, body, true⟩⟩, [.texts []]⟩
    let closed : Handled := respond full h World.quiet
    WithClosings steps full ∧ closed.1.1 = (respond steps h World.quiet).1.1 ∧
    closed.1.2.response.bodyIsOpen = false ∧ closed.2.closes 0 ≤ 1 ∧
    closed.dropped.closes 0 = 1 ∧
    (closed.1.2.targets[0]?.bind Target.texts?) = some [("state", "done")] ∧
    ∃ step given value, Reached steps h World.quiet step given ∧ step.Fills given 0 value := by
  intro steps full body h
  have inserted : WithClosings steps full :=
    .closing (.step _ (.closing (.step _ (.closing .nil))))
  obtain ⟨hresult, -, -, -, hclosed, hcloses, hdropped, htargets⟩ :=
    closings_change_nothing inserted h World.quiet
  have htexts : ((respond full h World.quiet).1.2.targets[0]?.bind Target.texts?) =
      some [("state", "done")] := by
    decide +kernel
  refine ⟨inserted, hresult, hclosed rfl, (hcloses 0).1, (hdropped 0).2, htexts, ?_⟩
  rcases htargets 0 with hkept | ⟨step, given, value, hreached, hfills, -⟩
  · rw [hkept] at htexts
    exact absurd htexts (by decide)
  · exact ⟨step, given, value, hreached, hfills⟩

end Courier
