import Courier.Prepare

set_option autoImplicit false

/-! # What steps make of a request

A step of a preparation wraps what comes after it, and writes down what its probe sees. As to the
request, it makes another one of it or refuses, and what it does depends on nothing else: so the
steps of a list act one after another, on what the one before them has made. -/

namespace Courier

/-- A result is known by its success. -/
theorem eq_ok_of_toOption {ε α : Type} {result : Except ε α} {a : α}
    (h : result.toOption = some a) : result = .ok a := by
  cases result with
  | error e => exact absurd h (by simp [Except.toOption])
  | ok b => exact congrArg Except.ok (Option.some.inj h)

/-! ## Preparations that do not look back -/

/-- What a preparation makes of its request. -/
def Preparing.result (p : Preparing Request) : Except PrepareError Request := p.outcome.1

/-- A preparation whose result does not depend on what probes have seen before. -/
def Preparing.Plain (p : Preparing Request) : Prop :=
  ∀ seen, (StateT.run (m := Id) (ExceptT.run p) seen).1 = p.result

theorem Preparing.Plain.pure (r : Request) : Preparing.Plain (pure r) := fun _ => rfl

theorem Preparing.Plain.throw (e : PrepareError) : Preparing.Plain (throw e) := fun _ => rfl

section Bind

variable {p : Preparing Request} {next : Preparer}

/-- One preparation after another. -/
theorem Preparing.run_bind_fst (h : ∀ r, (next r).Plain) (seen : List PrepareProbe) :
    (StateT.run (m := Id) (ExceptT.run (p >>= next)) seen).1 =
      (StateT.run (m := Id) (ExceptT.run p) seen).1.bind fun r => (next r).result := by
  show (ExceptT.bindCont next (StateT.run (m := Id) (ExceptT.run p) seen).1
    (StateT.run (m := Id) (ExceptT.run p) seen).2).1 = _
  generalize StateT.run (m := Id) (ExceptT.run p) seen = first
  obtain ⟨outcome, later⟩ := first
  cases outcome with
  | error e => rfl
  | ok r => exact h r later

theorem Preparing.Plain.bind (hp : p.Plain) (h : ∀ r, (next r).Plain) : (p >>= next).Plain := by
  intro seen
  rw [Preparing.run_bind_fst h, hp seen]
  exact (Preparing.run_bind_fst h []).symm

theorem Preparing.result_bind (h : ∀ r, (next r).Plain) :
    (p >>= next).result = p.result.bind fun r => (next r).result :=
  Preparing.run_bind_fst h []

end Bind

/-! ## Steps -/

/-- What a step makes of a request. -/
def PrepareStep.makes (step : PrepareStep) (r : Request) : Except PrepareError Request :=
  (step.decorate pure r).result

/-- What a step does itself is to bring a request or an error, or to look at what passes. -/
theorem PrepareStep.act_cases (step : PrepareStep) (r : Request) :
    (∃ r', step.act r = pure r') ∨ (∃ e, step.act r = throw e) ∨ ∃ name, step = .probe name := by
  cases step with
  | baseUrl text =>
    dsimp only [PrepareStep.act]
    cases Url.parse text with
    | ok url => exact .inl ⟨_, rfl⟩
    | error e => exact .inr (.inl ⟨_, rfl⟩)
  | path text =>
    dsimp only [PrepareStep.act]
    cases r.url with
    | some url => exact .inl ⟨_, rfl⟩
    | none => exact .inr (.inl ⟨_, rfl⟩)
  | query fields =>
    dsimp only [PrepareStep.act]
    cases r.url with
    | some url => exact .inl ⟨_, rfl⟩
    | none => exact .inr (.inl ⟨_, rfl⟩)
  | header name value =>
    dsimp only [PrepareStep.act]
    cases HeaderName.parse? name with
    | none => exact .inr (.inl ⟨_, rfl⟩)
    | some n =>
      cases HeaderValue.parse? value with
      | none => exact .inr (.inl ⟨_, rfl⟩)
      | some v => exact .inl ⟨_, rfl⟩
  | json encoded =>
    cases encoded with
    | ok text => exact .inl ⟨_, rfl⟩
    | error reason => exact .inr (.inl ⟨_, rfl⟩)
  | refuse reason => exact .inr (.inl ⟨_, rfl⟩)
  | probe name => exact .inr (.inr ⟨name, rfl⟩)
  | _ => exact .inl ⟨_, rfl⟩

theorem PrepareStep.act_plain (step : PrepareStep) (r : Request) :
    Preparing.Plain (step.act r) := by
  rcases step.act_cases r with ⟨r', h⟩ | ⟨e, h⟩ | ⟨name, rfl⟩
  · rw [h]
    exact .pure r'
  · rw [h]
    exact .throw e
  · exact fun _ => rfl

/-- A step is what it does itself, and then what comes after it. -/
theorem PrepareStep.decorate_eq_bind (step : PrepareStep) (next : Preparer) (r : Request) :
    step.decorate next r = step.decorate pure r >>= next := by
  induction step generalizing next r with
  | both first second ihf ihs =>
    have hsecond : second.decorate next = fun r => second.decorate pure r >>= next :=
      funext fun r => ihs next r
    show first.decorate (second.decorate next) r = first.decorate (second.decorate pure) r >>= next
    rw [ihf (second.decorate next), ihf (second.decorate pure), bind_assoc, hsecond]
  | asIs => exact (pure_bind r next).symm
  | _ =>
    show PrepareStep.act _ _ >>= next = (PrepareStep.act _ _ >>= pure) >>= next
    rw [bind_pure]

theorem PrepareStep.decorate_plain (step : PrepareStep) {next : Preparer}
    (h : ∀ r, Preparing.Plain (next r)) (r : Request) : Preparing.Plain (step.decorate next r) := by
  induction step generalizing next r with
  | both first second ihf ihs => exact ihf (fun r => ihs h r) r
  | asIs => exact h r
  | _ => exact (PrepareStep.act_plain _ r).bind h

/-! ## Lists of steps -/

/-- What steps make of a request, one after another. -/
def prepared (steps : List PrepareStep) (r : Request) : Except PrepareError Request :=
  (prepare steps r).outcome.1

theorem prepare_plain (steps : List PrepareStep) (r : Request) :
    Preparing.Plain (prepare steps r) := by
  induction steps generalizing r with
  | nil => exact .pure r
  | cons step rest ih => exact step.decorate_plain ih r

@[simp] theorem prepared_nil (r : Request) : prepared [] r = .ok r := rfl

theorem prepared_cons (step : PrepareStep) (rest : List PrepareStep) (r : Request) :
    prepared (step :: rest) r = (step.makes r).bind (prepared rest) := by
  show Preparing.result (step.decorate (prepare rest) r) = _
  rw [step.decorate_eq_bind, Preparing.result_bind (prepare_plain rest)]
  rfl

theorem prepared_append (first rest : List PrepareStep) (r : Request) :
    prepared (first ++ rest) r = (prepared first r).bind (prepared rest) := by
  induction first generalizing r with
  | nil => rfl
  | cons step first ih =>
    rw [List.cons_append, prepared_cons, prepared_cons]
    cases step.makes r with
    | error e => rfl
    | ok r' => exact ih r'

theorem PrepareStep.makes_both (first second : PrepareStep) (r : Request) :
    (PrepareStep.both first second).makes r = (first.makes r).bind second.makes := by
  show Preparing.result (first.decorate (second.decorate pure) r) = _
  rw [first.decorate_eq_bind, Preparing.result_bind (second.decorate_plain .pure)]
  rfl

/-- A step that is not two steps makes of a request what it does to it. -/
theorem PrepareStep.makes_eq_act {step : PrepareStep}
    (h : ∀ first second, step ≠ .both first second) (r : Request) :
    step.makes r = Preparing.result (step.act r) := by
  unfold PrepareStep.makes
  cases step with
  | both first second => exact absurd rfl (h first second)
  | asIs => rfl
  | _ =>
    show Preparing.result (PrepareStep.act _ _ >>= pure) = _
    rw [bind_pure]

/-! ## What steps leave alone -/

/-- A request with its waits cancellable or not. -/
def Request.setCancellable (r : Request) (cancellable : Bool) : Request :=
  { r with cancellable := cancellable }

/-- Whether waits can be cancelled makes no difference to what a step does itself. -/
theorem PrepareStep.act_setCancellable (step : PrepareStep) (r : Request) (cancellable : Bool) :
    Preparing.result (step.act (r.setCancellable cancellable)) =
      (Preparing.result (step.act r)).map (·.setCancellable cancellable) := by
  cases step with
  | baseUrl text =>
    dsimp only [PrepareStep.act]
    cases Url.parse text <;> rfl
  | path text =>
    dsimp only [PrepareStep.act, Request.setCancellable]
    cases r.url <;> rfl
  | query fields =>
    dsimp only [PrepareStep.act, Request.setCancellable]
    cases r.url <;> rfl
  | header name value =>
    dsimp only [PrepareStep.act]
    cases HeaderName.parse? name <;> cases HeaderValue.parse? value <;> rfl
  | json encoded => cases encoded <;> rfl
  | _ => rfl

/-- Whether waits can be cancelled makes no difference to a step. -/
theorem PrepareStep.makes_setCancellable (step : PrepareStep) (r : Request) (cancellable : Bool) :
    step.makes (r.setCancellable cancellable) =
      (step.makes r).map (·.setCancellable cancellable) := by
  induction step generalizing r with
  | both first second ihf ihs =>
    rw [PrepareStep.makes_both, PrepareStep.makes_both, ihf]
    cases first.makes r with
    | error e => rfl
    | ok m => exact ihs m
  | _ =>
    rw [PrepareStep.makes_eq_act (by simp), PrepareStep.makes_eq_act (by simp)]
    exact PrepareStep.act_setCancellable _ r cancellable

theorem prepared_setCancellable (steps : List PrepareStep) (r : Request) (cancellable : Bool) :
    prepared steps (r.setCancellable cancellable) =
      (prepared steps r).map (·.setCancellable cancellable) := by
  induction steps generalizing r with
  | nil => rfl
  | cons step rest ih =>
    rw [prepared_cons, prepared_cons, PrepareStep.makes_setCancellable]
    cases step.makes r with
    | error e => rfl
    | ok m => exact ih m

/-- Steps leave it as it is whether waits can be cancelled. -/
theorem prepared_cancellable {steps : List PrepareStep} {r r' : Request}
    (h : prepared steps r = .ok r') : r'.cancellable = r.cancellable := by
  have hset : prepared steps (r.setCancellable r.cancellable) = _ :=
    prepared_setCancellable steps r r.cancellable
  rw [show r.setCancellable r.cancellable = r from rfl, h] at hset
  rw [Except.ok.inj hset]
  rfl

/-! ## What steps do to a URL -/

/-- What a step does to the URL of a request that has one. -/
def PrepareStep.onUrl : PrepareStep → Url → Url
  | .baseUrl text, u => ((Url.parse text).toOption).getD u
  | .path text, u => u.appendPath text
  | .query fields, u => u.addQuery fields
  | .both first second, u => second.onUrl (first.onUrl u)
  | _, u => u

/-- What a step does itself to a request depends on its having a URL, but not on which. -/
theorem PrepareStep.act_at {step : PrepareStep} (hone : ∀ first second, step ≠ .both first second)
    {r r' : Request} {u : Url} (hu : r.url = some u)
    (h : Preparing.result (step.act r) = .ok r') :
    r'.url = some (step.onUrl u) ∧ ∀ v,
      Preparing.result (step.act { r with url := some v }) =
        .ok { r' with url := some (step.onUrl v) } := by
  cases step with
  | both first second => exact absurd rfl (hone first second)
  | baseUrl text =>
    dsimp only [PrepareStep.act, PrepareStep.onUrl] at h ⊢
    cases hp : Url.parse text with
    | error e =>
      rw [hp] at h
      cases h
    | ok url =>
      rw [hp] at h
      cases h
      exact ⟨rfl, fun v => rfl⟩
  | path text =>
    dsimp only [PrepareStep.act, PrepareStep.onUrl] at h ⊢
    rw [hu] at h
    cases h
    exact ⟨rfl, fun v => rfl⟩
  | query fields =>
    dsimp only [PrepareStep.act, PrepareStep.onUrl] at h ⊢
    rw [hu] at h
    cases h
    exact ⟨rfl, fun v => rfl⟩
  | header name value =>
    dsimp only [PrepareStep.act, PrepareStep.onUrl] at h ⊢
    cases hn : HeaderName.parse? name with
    | none =>
      rw [hn] at h
      cases h
    | some n =>
      cases hv : HeaderValue.parse? value with
      | none =>
        rw [hn, hv] at h
        cases h
      | some x =>
        rw [hn, hv] at h
        cases h
        exact ⟨hu, fun v => rfl⟩
  | json encoded =>
    cases encoded with
    | error reason => cases h
    | ok text =>
      cases h
      exact ⟨hu, fun v => rfl⟩
  | refuse reason => cases h
  | _ =>
    cases h
    exact ⟨hu, fun v => rfl⟩

/-- A step that succeeds at one URL succeeds at every URL, and but for the URL it comes to the
    same. -/
theorem PrepareStep.makes_at {step : PrepareStep} {r r' : Request} {u : Url} (hu : r.url = some u)
    (h : step.makes r = .ok r') :
    r'.url = some (step.onUrl u) ∧
      ∀ v, step.makes { r with url := some v } = .ok { r' with url := some (step.onUrl v) } := by
  induction step generalizing r r' u with
  | both first second ihf ihs =>
    rw [PrepareStep.makes_both] at h
    cases hf : first.makes r with
    | error e => simp [hf, Except.bind] at h
    | ok m =>
      rw [hf] at h
      obtain ⟨hm, hfirst⟩ := ihf hu hf
      obtain ⟨hr', hsecond⟩ := ihs hm h
      refine ⟨hr', fun v => ?_⟩
      rw [PrepareStep.makes_both, hfirst v]
      exact hsecond (first.onUrl v)
  | _ =>
    rw [PrepareStep.makes_eq_act (by simp)] at h
    obtain ⟨hr', hact⟩ := PrepareStep.act_at (by simp) hu h
    refine ⟨hr', fun v => ?_⟩
    rw [PrepareStep.makes_eq_act (by simp)]
    exact hact v

/-- What steps do to a URL, one after another. -/
def onUrl (steps : List PrepareStep) (u : Url) : Url := steps.foldl (fun u step => step.onUrl u) u

/-- Steps that succeed at one URL succeed at every URL, and but for the URL they come to the
    same. -/
theorem prepared_at {steps : List PrepareStep} {r r' : Request} {u : Url} (hu : r.url = some u)
    (h : prepared steps r = .ok r') :
    r'.url = some (onUrl steps u) ∧
      ∀ v, prepared steps { r with url := some v } =
        .ok { r' with url := some (onUrl steps v) } := by
  induction steps generalizing r u with
  | nil =>
    obtain rfl := Except.ok.inj h
    exact ⟨hu, fun v => rfl⟩
  | cons step rest ih =>
    rw [prepared_cons] at h
    cases hs : step.makes r with
    | error e => simp [hs, Except.bind] at h
    | ok m =>
      rw [hs] at h
      obtain ⟨hm, hmakes⟩ := PrepareStep.makes_at hu hs
      obtain ⟨hr', hrest⟩ := ih hm h
      refine ⟨hr', fun v => ?_⟩
      rw [prepared_cons, hmakes v]
      exact hrest (step.onUrl v)

end Courier
