import Courier.Proofs.Preparing.Steps

set_option autoImplicit false

/-! # The order of steps

Steps are put together from the last one to the first, each around what comes after it, and a step
may be made of two others. They act in the order in which they are listed all the same: on the
request that the one before them made, and up to the first that fails, whose error is the outcome.
So a list can be cut in two anywhere, and of several steps that write the same part of a request the
last one decides.

The main statement is `preparing_goes_in_order`. -/

namespace Courier

/-! ## Outcomes one after another -/

/-- What a preparation comes to: a request or an error, and what probes have seen by then. -/
abbrev PrepareOutcome := Except PrepareError Request × List PrepareProbe

/-- Goes on with the request of an outcome. After an error nothing more is done or seen. -/
def PrepareOutcome.andThen (outcome : PrepareOutcome) (next : Request → PrepareOutcome) :
    PrepareOutcome :=
  match outcome with
  | (.ok r, seen) => ((next r).1, seen ++ (next r).2)
  | (.error e, seen) => (.error e, seen)

theorem PrepareOutcome.andThen_assoc (outcome : PrepareOutcome)
    (first second : Request → PrepareOutcome) :
    (outcome.andThen first).andThen second = outcome.andThen fun r => (first r).andThen second := by
  obtain ⟨result, seen⟩ := outcome
  cases result with
  | error e => rfl
  | ok r =>
    show PrepareOutcome.andThen ((first r).1, seen ++ (first r).2) second =
      ((PrepareOutcome.andThen (first r) second).1,
        seen ++ (PrepareOutcome.andThen (first r) second).2)
    obtain ⟨result, more⟩ := first r
    cases result with
    | error e => rfl
    | ok r => exact Prod.ext rfl (List.append_assoc ..)

/-! ## Preparations that only add to what was seen -/

/-- A preparation that comes to the same whatever probes have seen before, and adds to that. -/
def Preparing.Adds (p : Preparing Request) : Prop :=
  ∀ seen, StateT.run (m := Id) (ExceptT.run p) seen = (p.outcome.1, seen ++ p.outcome.2)

theorem Preparing.Adds.pure (r : Request) : Preparing.Adds (pure r) :=
  fun seen => congrArg (Prod.mk _) (List.append_nil seen).symm

theorem Preparing.Adds.throw (e : PrepareError) : Preparing.Adds (throw e) :=
  fun seen => congrArg (Prod.mk _) (List.append_nil seen).symm

section Bind

variable {p : Preparing Request} {next : Preparer}

theorem Preparing.run_bind (h : ∀ r, (next r).Adds) (seen : List PrepareProbe) :
    StateT.run (m := Id) (ExceptT.run (p >>= next)) seen =
      PrepareOutcome.andThen (StateT.run (m := Id) (ExceptT.run p) seen)
        fun r => (next r).outcome := by
  show ExceptT.bindCont next (StateT.run (m := Id) (ExceptT.run p) seen).1
    (StateT.run (m := Id) (ExceptT.run p) seen).2 = _
  generalize StateT.run (m := Id) (ExceptT.run p) seen = first
  obtain ⟨result, later⟩ := first
  cases result with
  | error e => rfl
  | ok r => exact h r later

theorem Preparing.outcome_bind (h : ∀ r, (next r).Adds) :
    (p >>= next).outcome = PrepareOutcome.andThen p.outcome fun r => (next r).outcome :=
  Preparing.run_bind h []

theorem Preparing.Adds.bind (hp : p.Adds) (h : ∀ r, (next r).Adds) : (p >>= next).Adds := by
  intro seen
  rw [Preparing.run_bind h, hp seen, Preparing.outcome_bind h]
  obtain ⟨result, more⟩ := p.outcome
  cases result with
  | error e => rfl
  | ok r => exact Prod.ext rfl (List.append_assoc ..)

end Bind

/-! ## Parts of a step -/

theorem PrepareStep.not_both_of_mem_parts {step part : PrepareStep} (h : part ∈ step.parts) :
    ∀ first second, part ≠ .both first second := by
  induction step with
  | both first second ihf ihs =>
    rcases List.mem_append.1 h with h | h
    · exact ihf h
    · exact ihs h
  | _ => simp [List.mem_singleton.1 h]

/-- To wrap a preparation in a step is to wrap it in the parts of the step. -/
theorem PrepareStep.decorate_eq_parts (step : PrepareStep) (next : Preparer) :
    step.decorate next = decoratePreparer step.parts next := by
  induction step generalizing next with
  | both first second ihf ihs =>
    show first.decorate (second.decorate next) = decoratePreparer (first.parts ++ second.parts) next
    rw [ihs, ihf]
    exact (List.foldr_append ..).symm
  | _ => rfl

theorem prepare_parts (steps : List PrepareStep) :
    prepare (steps.flatMap PrepareStep.parts) = prepare steps := by
  funext base
  unfold prepare
  suffices h : decoratePreparer (steps.flatMap PrepareStep.parts) pure =
      decoratePreparer steps pure from congrFun h base
  induction steps with
  | nil => rfl
  | cons step rest ih =>
    have happend : ∀ next, decoratePreparer (step.parts ++ rest.flatMap PrepareStep.parts) next =
        decoratePreparer step.parts (decoratePreparer (rest.flatMap PrepareStep.parts) next) :=
      fun next => List.foldr_append ..
    rw [List.flatMap_cons, happend, ih, ← PrepareStep.decorate_eq_parts]
    rfl

/-- A step that is not made of others acts, and then comes what follows it. -/
theorem prepare_cons_of_not_both {step : PrepareStep}
    (h : ∀ first second, step ≠ .both first second) (rest : List PrepareStep) (r : Request) :
    prepare (step :: rest) r = step.act r >>= prepare rest := by
  cases step with
  | both first second => exact absurd rfl (h first second)
  | asIs => exact (pure_bind r (prepare rest)).symm
  | _ => rfl

/-! ## Steps in turn -/

theorem PrepareStep.act_adds (step : PrepareStep) (r : Request) : Preparing.Adds (step.act r) := by
  rcases step.act_cases r with ⟨r', h⟩ | ⟨e, h⟩ | ⟨name, rfl⟩
  · rw [h]
    exact .pure r'
  · rw [h]
    exact .throw e
  · exact fun seen => rfl

/-- Performs steps from the first to the last, each on the request that those before it made, up to
the first that fails. -/
def inTurn : List PrepareStep → Request → PrepareOutcome
  | [], r => (.ok r, [])
  | step :: rest, r => PrepareOutcome.andThen (step.act r).outcome (inTurn rest)

theorem inTurn_append (first rest : List PrepareStep) (r : Request) :
    inTurn (first ++ rest) r = PrepareOutcome.andThen (inTurn first r) (inTurn rest) := by
  induction first generalizing r with
  | nil => rfl
  | cons step first ih =>
    rw [List.cons_append, inTurn, inTurn, PrepareOutcome.andThen_assoc]
    exact congrArg _ (funext ih)

section InTurn

variable {steps : List PrepareStep}

theorem prepare_inTurn (h : ∀ step ∈ steps, ∀ first second, step ≠ .both first second)
    (r : Request) : (prepare steps r).Adds ∧ (prepare steps r).outcome = inTurn steps r := by
  induction steps generalizing r with
  | nil => exact ⟨.pure r, rfl⟩
  | cons step rest ih =>
    obtain ⟨hstep, hrest⟩ := List.forall_mem_cons.1 h
    have hadds : ∀ r, (prepare rest r).Adds := fun r => (ih hrest r).1
    rw [prepare_cons_of_not_both hstep]
    refine ⟨(step.act_adds r).bind hadds, ?_⟩
    rw [Preparing.outcome_bind hadds, inTurn]
    exact congrArg _ (funext fun r => (ih hrest r).2)

end InTurn

/-- All parts of some steps, in their order. -/
abbrev partsOf (steps : List PrepareStep) : List PrepareStep := steps.flatMap PrepareStep.parts

theorem not_both_of_mem_partsOf (steps : List PrepareStep) :
    ∀ part ∈ partsOf steps, ∀ first second, part ≠ .both first second := by
  intro part hpart
  obtain ⟨step, -, hpart⟩ := List.mem_flatMap.1 hpart
  exact PrepareStep.not_both_of_mem_parts hpart

/-- Preparing is to perform the parts of the steps in turn. -/
theorem prepare_outcome (steps : List PrepareStep) (base : Request) :
    (prepare steps base).outcome = inTurn (partsOf steps) base := by
  rw [← prepare_parts]
  exact (prepare_inTurn (not_both_of_mem_partsOf steps) base).2

theorem prepare_append_outcome (steps rest : List PrepareStep) (base : Request) :
    (prepare (steps ++ rest) base).outcome =
      PrepareOutcome.andThen (prepare steps base).outcome fun r => (prepare rest r).outcome := by
  rw [prepare_outcome, partsOf, List.flatMap_append, inTurn_append, prepare_outcome]
  exact congrArg _ (funext fun r => (prepare_outcome rest r).symm)

/-! ## Room for headers -/

/-- A header finds no room where a request stands that the steps before it have made. -/
theorem crowds_iff {room : HeaderRoom} {steps : List PrepareStep} {r : Request}
    (h : ∀ step ∈ steps, ∀ first second, step ≠ .both first second) :
    crowds room steps r = true ↔ ∃ front step back r' next, steps = front ++ step :: back ∧
      prepared front r = .ok r' ∧ step.makes r' = .ok next ∧ step.setsHeader = true ∧
      room r'.headers.toArray = false := by
  induction steps generalizing r with
  | nil => simp [crowds]
  | cons step rest ih =>
    obtain ⟨hstep, hrest⟩ := List.forall_mem_cons.1 h
    have hmakes : (step.act r).outcome.1 = step.makes r :=
      (PrepareStep.makes_eq_act hstep r).symm
    unfold crowds
    rw [hmakes]
    constructor
    · intro hcrowds
      cases hnext : step.makes r with
      | error e => simp [hnext] at hcrowds
      | ok next =>
        rw [hnext] at hcrowds
        rcases Bool.or_eq_true_iff.1 hcrowds with hfull | hlater
        · obtain ⟨hsets, hroom⟩ := Bool.and_eq_true_iff.1 hfull
          exact ⟨[], step, rest, r, next, rfl, rfl, hnext, hsets, by simpa using hroom⟩
        · obtain ⟨front, later, back, r', next', rfl, hfront, hfacts⟩ := (ih hrest).1 hlater
          refine ⟨step :: front, later, back, r', next', rfl, ?_, hfacts⟩
          rw [prepared_cons, hnext]
          exact hfront
    · rintro ⟨front, later, back, r', next', hsplit, hfront, hlater, hsets, hroom⟩
      cases front with
      | nil =>
        obtain ⟨rfl, rfl⟩ := List.cons.inj hsplit
        obtain rfl := Except.ok.inj hfront
        rw [hlater]
        simp [hsets, hroom]
      | cons first front =>
        obtain ⟨rfl, rfl⟩ := List.cons.inj hsplit
        rw [prepared_cons] at hfront
        cases hnext : step.makes r with
        | error e => simp [hnext, Except.bind] at hfront
        | ok next =>
          rw [hnext] at hfront
          exact Bool.or_eq_true_iff.2 (.inr ((ih hrest).2
            ⟨front, later, back, r', next', rfl, hfront, hlater, hsets, hroom⟩))

/-! ## The last one decides -/

/-- What the last of the parts writes that write something. -/
def lastOf {α : Type} (writes : PrepareStep → Option α) (steps : List PrepareStep) : Option α :=
  (partsOf steps).reverse.findSome? writes

/-- The method that a step writes. -/
def PrepareStep.method? : PrepareStep → Option Method
  | .method m => some m
  | _ => none

/-- The body that a step writes. -/
def PrepareStep.body? : PrepareStep → Option Bytes
  | .body content => some content
  | .json (.ok text) => some (Utf8.encode text)
  | .form fields => some (Utf8.encode (Form.text fields))
  | _ => none

/-- The value that a step writes into a header. -/
def PrepareStep.value? (name : HeaderName) : PrepareStep → Option HeaderValue
  | .header n value => if HeaderName.parse? n = some name then HeaderValue.parse? value else none
  | .json (.ok _) => if HeaderName.contentType = name then some ⟨Utf8.encode mediaTypeJson⟩ else none
  | .form _ => if HeaderName.contentType = name then some ⟨Utf8.encode mediaTypeForm⟩ else none
  | _ => none

/-- Whether a part of requests is what the steps that write it make of it, and all other steps leave
it alone. -/
def WrittenBy {α β : Type} (part : Request → β) (put : α → β) (writes : PrepareStep → Option α) :
    Prop :=
  ∀ (step : PrepareStep) (r r' : Request), Preparing.result (step.act r) = .ok r' →
    part r' = (writes step).elim (part r) put

theorem WrittenBy.last {α β : Type} {part : Request → β} {put : α → β}
    {writes : PrepareStep → Option α} (h : WrittenBy part put writes) {steps : List PrepareStep}
    {r r' : Request} (hprepared : prepared steps r = .ok r') :
    part r' = (lastOf writes steps).elim (part r) put := by
  replace hprepared : prepared (partsOf steps) r = .ok r' := by
    rw [prepared, partsOf, prepare_parts]
    exact hprepared
  have hboth := not_both_of_mem_partsOf steps
  unfold lastOf
  generalize partsOf steps = parts at hprepared hboth ⊢
  induction parts generalizing r with
  | nil => exact congrArg part (Except.ok.inj hprepared).symm
  | cons step rest ih =>
    obtain ⟨hstep, hrest⟩ := List.forall_mem_cons.1 hboth
    have hmakes : (step.makes r).bind (prepared rest) = .ok r' :=
      (prepared_cons step rest r).symm.trans hprepared
    cases hfirst : step.makes r with
    | error e => exact absurd hmakes (by simp [hfirst, Except.bind])
    | ok m =>
      rw [hfirst] at hmakes
      rw [PrepareStep.makes_eq_act hstep] at hfirst
      rw [ih hmakes hrest, h step r m hfirst, List.reverse_cons, List.findSome?_append]
      cases rest.reverse.findSome? writes with
      | some a => rfl
      | none => cases hwrites : writes step <;> simp [hwrites]

section Written

variable {step : PrepareStep} {r r' : Request}

/-- A header that is set holds the value alone; all others stay as they are. -/
theorem Headers.values_set (headers : Headers) (name other : HeaderName) (value : HeaderValue) :
    (headers.set name value).values other =
      if name = other then [value] else headers.values other := by
  split
  · next h => rw [← h, Headers.values_set_self]
  · next h => exact Headers.values_set_ne _ _ (Ne.symm h)

/-- A request that a step has acted on is known by its method, its body and its headers. -/
theorem PrepareStep.act_written (h : Preparing.result (step.act r) = .ok r') :
    r'.method = step.method?.elim r.method id ∧ r'.body = step.body?.elim r.body some ∧
    ∀ name, r'.headers.values name = (step.value? name).elim (r.headers.values name) ([·]) := by
  cases step with
  | baseUrl text =>
    dsimp only [PrepareStep.act] at h
    cases hparse : Url.parse text with
    | error e => rw [hparse] at h; cases h
    | ok url => rw [hparse] at h; cases h; exact ⟨rfl, rfl, fun _ => rfl⟩
  | path text =>
    dsimp only [PrepareStep.act] at h
    cases hurl : r.url with
    | none => rw [hurl] at h; cases h
    | some url => rw [hurl] at h; cases h; exact ⟨rfl, rfl, fun _ => rfl⟩
  | query fields =>
    dsimp only [PrepareStep.act] at h
    cases hurl : r.url with
    | none => rw [hurl] at h; cases h
    | some url => rw [hurl] at h; cases h; exact ⟨rfl, rfl, fun _ => rfl⟩
  | header n value =>
    dsimp only [PrepareStep.act] at h
    cases hname : HeaderName.parse? n with
    | none => rw [hname] at h; cases h
    | some field =>
      cases hvalue : HeaderValue.parse? value with
      | none => rw [hname, hvalue] at h; cases h
      | some v =>
        rw [hname, hvalue] at h
        cases h
        refine ⟨rfl, rfl, fun name => ?_⟩
        rw [Headers.values_set, PrepareStep.value?, hname, hvalue]
        simp only [Option.some_inj]
        split <;> rfl
  | json encoded =>
    cases encoded with
    | error reason => cases h
    | ok text =>
      cases h
      refine ⟨rfl, rfl, fun name => ?_⟩
      rw [Headers.values_set, PrepareStep.value?]
      split <;> rfl
  | form fields =>
    cases h
    refine ⟨rfl, rfl, fun name => ?_⟩
    rw [Headers.values_set, PrepareStep.value?]
    split <;> rfl
  | refuse reason => cases h
  | _ => cases h; exact ⟨rfl, rfl, fun _ => rfl⟩

end Written

/-- **Preparing goes in order.** What steps come to, with what probes see, is what their parts come
to in turn. A list that is cut in two comes to what its first half does and then its second half,
so after a step that fails no later one acts, and its error is the outcome. A step that does nothing
can stand anywhere. If the preparation succeeds, the method, the body and each header are what the
last step made of them that writes them, or what they were before. -/
theorem preparing_goes_in_order (steps rest : List PrepareStep) (base : Request) :
    (prepare steps base).outcome = inTurn (partsOf steps) base ∧
    (prepare (steps ++ rest) base).outcome =
      PrepareOutcome.andThen (prepare steps base).outcome (fun r => (prepare rest r).outcome) ∧
    (∀ e seen, (prepare steps base).outcome = (.error e, seen) →
      (prepare (steps ++ rest) base).outcome = (.error e, seen)) ∧
    prepare (steps ++ .asIs :: rest) base = prepare (steps ++ rest) base ∧
    ∀ r, prepared steps base = .ok r →
      r.method = (lastOf PrepareStep.method? steps).getD base.method ∧
      r.body = (lastOf PrepareStep.body? steps).or base.body ∧
      ∀ name, r.headers.values name =
        (lastOf (PrepareStep.value? name) steps).elim (base.headers.values name) ([·]) := by
  refine ⟨prepare_outcome steps base, prepare_append_outcome steps rest base, fun e seen h => ?_,
    ?_, fun r h => ⟨?_, ?_, fun name => ?_⟩⟩
  · rw [prepare_append_outcome, h]
    rfl
  · unfold prepare decoratePreparer
    rw [List.foldr_append, List.foldr_append]
    rfl
  · rw [WrittenBy.last (fun _ _ _ h => (PrepareStep.act_written h).1) h]
    cases lastOf PrepareStep.method? steps <;> rfl
  · rw [WrittenBy.last (fun _ _ _ h => (PrepareStep.act_written h).2.1) h]
    cases lastOf PrepareStep.body? steps <;> rfl
  · have hwritten : WrittenBy (fun r => r.headers.values name) _ _ :=
      fun _ _ _ h => (PrepareStep.act_written h).2.2 name
    exact hwritten.last h

/-- A header, a body and a method that are written twice, and a step that fails before others. -/
theorem preparing_goes_in_order_twice :
    let steps : List PrepareStep := [.header "X-A" "1", .json (.ok "1"), .returningClientId "i",
      .method ⟨"PUT"⟩, .form [("a", "é")], .header "x-a" "2", .method ⟨"POST"⟩]
    let failing : List PrepareStep := [.probe "p", .path "a"]
    (∃ r, prepared steps Request.empty = .ok r ∧ r.method = ⟨"POST"⟩ ∧
      r.body = some (Utf8.encode "a=%C3%A9") ∧
      r.headers.values ⟨"x-a"⟩ = [⟨Utf8.encode "2"⟩] ∧
      r.headers.values .contentType = [⟨Utf8.encode mediaTypeForm⟩] ∧
      r.headers.values ⟨HeaderName.returnClientId⟩ = [⟨Utf8.encode "true"⟩]) ∧
    (prepare failing Request.empty).outcome = (.error .missingUrl, [⟨"p", .get, "<no url>", 0⟩]) ∧
    (prepare (failing ++ [.probe "q", .refuse ""]) Request.empty).outcome =
      (.error .missingUrl, [⟨"p", .get, "<no url>", 0⟩]) := by
  intro steps failing
  have hfails : (prepare failing Request.empty).outcome =
      (.error .missingUrl, [⟨"p", .get, "<no url>", 0⟩]) := rfl
  have hsteps : (prepared steps Request.empty).toOption.isSome = true := by decide +kernel
  obtain ⟨r, hr⟩ := Option.isSome_iff_exists.1 hsteps
  have hprepared := eq_ok_of_toOption hr
  obtain ⟨-, -, hstops, -⟩ :=
    preparing_goes_in_order failing [.probe "q", .refuse ""] Request.empty
  obtain ⟨-, -, -, -, hlast⟩ := preparing_goes_in_order steps [] Request.empty
  obtain ⟨hmethod, hbody, hvalues⟩ := hlast r hprepared
  refine ⟨⟨r, hprepared, hmethod, hbody.trans ?_, (hvalues _).trans ?_, (hvalues _).trans ?_,
    (hvalues _).trans ?_⟩, hfails, hstops _ _ hfails⟩
  all_goals decide +kernel

end Courier
