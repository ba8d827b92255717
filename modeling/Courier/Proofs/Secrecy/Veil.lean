import Courier.Perform
import Courier.Proofs.Bodies.Polling
import Courier.Proofs.Exchange.Gate
import Courier.Proofs.Exchange.Iterate
import Courier.Proofs.Preparing.Steps

set_option autoImplicit false

/-! # What a veil over credentials leaves to see

A veil is put over the values of the header that carries credentials, in requests and in the
journal. Two worlds that look the same through it differ in nothing else. Two actions agree if they
take worlds that look the same to worlds that look the same, with results that are related; what is
built from actions that agree agrees. -/

namespace Courier

/-! ## The veil -/

/-- The header that carries credentials. -/
def HeaderName.authorization : HeaderName := ⟨"authorization"⟩

/-- The value of a header as it is seen through the veil. -/
def veiledValue (name : HeaderName) (value : HeaderValue) : HeaderValue :=
  if name = .authorization then ⟨[]⟩ else value

/-- Headers as they are seen through the veil. -/
def Headers.veiled (h : Headers) : Headers := h.map fun f => (f.1, veiledValue f.1 f.2)

/-- A request as it is seen through the veil. -/
def Request.veiled (r : Request) : Request := { r with headers := r.headers.veiled }

/-- An event as it is seen through the veil. -/
def Event.veiled : Event → Event
  | .sent number request isCancelled => .sent number request.veiled isCancelled
  | event => event

/-- A world as it is seen through the veil. -/
def World.veiled (w : World) : World :=
  { w with journal := w.journal.map fun entry => { entry with event := entry.event.veiled } }

theorem Headers.veiled_set (h : Headers) (name : HeaderName) (value : HeaderValue) :
    (h.set name value).veiled = h.veiled.set name (veiledValue name value) := by
  unfold Headers.veiled Headers.set
  rw [List.map_append, List.filter_map]
  rfl

theorem World.veiled_write (w : World) (events : List Event) :
    (w.write events).veiled = w.veiled.write (events.map Event.veiled) := by
  simp [World.veiled, World.write]

theorem World.clock_eq_of_veiled {w w' : World} (h : w.veiled = w'.veiled) :
    w.clock = w'.clock := by
  show w.veiled.clock = w'.veiled.clock
  rw [h]

section Requests

variable {r r' : Request} (h : r.veiled = r'.veiled)

include h

theorem Request.method_eq_of_veiled : r.method = r'.method := by
  show r.veiled.method = r'.veiled.method
  rw [h]

theorem Request.url_eq_of_veiled : r.url = r'.url := by
  show r.veiled.url = r'.veiled.url
  rw [h]

theorem Request.urlText_eq_of_veiled : r.urlText = r'.urlText := by
  show r.veiled.urlText = r'.veiled.urlText
  rw [h]

theorem Request.cancellable_eq_of_veiled : r.cancellable = r'.cancellable := by
  show r.veiled.cancellable = r'.veiled.cancellable
  rw [h]

/-- Setting the same, or credentials of which none are seen, comes to the same. -/
theorem Request.veiled_set {name : HeaderName} {value value' : HeaderValue}
    (hvalue : veiledValue name value = veiledValue name value') :
    ({ r with headers := r.headers.set name value } : Request).veiled =
      ({ r' with headers := r'.headers.set name value' } : Request).veiled := by
  have hset : ∀ (q : Request) (v : HeaderValue),
      ({ q with headers := q.headers.set name v } : Request).veiled =
        { q.veiled with headers := q.veiled.headers.set name (veiledValue name v) } := by
    intro q v
    unfold Request.veiled
    rw [Headers.veiled_set]
  rw [hset, hset, h, hvalue]

end Requests

/-! ## Actions that agree -/

/-- Whether two actions agree. -/
def Act.Agree {α β : Type} (R : α → β → Prop) (act : Act α) (act' : Act β) : Prop :=
  ∀ w w' : World, w.veiled = w'.veiled →
    R (act w).1 (act' w').1 ∧ (act w).2.veiled = (act' w').2.veiled

/-- Whether what two calls come to is related, and the worlds look the same. -/
def AgreeEnds {α β : Type} (R : α → β → Prop) (p : α × World) (q : β × World) : Prop :=
  R p.1 q.1 ∧ p.2.veiled = q.2.veiled

/-- Whether two actions that may go on for ever agree: both do, or neither. -/
def Run.Agree {α β : Type} (R : α → β → Prop) (run : Run α) (run' : Run β) : Prop :=
  ∀ w w' : World, w.veiled = w'.veiled → Option.Rel (AgreeEnds R) (run w) (run' w')

section Composition

variable {α β γ δ : Type} {R : α → β → Prop} {S : γ → δ → Prop}

theorem Act.Agree.pure {a : α} {b : β} (h : R a b) :
    Act.Agree R (pure a : Act α) (pure b : Act β) :=
  fun _ _ hw => ⟨h, hw⟩

theorem Act.Agree.bind {act : Act α} {act' : Act β} {f : α → Act γ} {f' : β → Act δ}
    (h : act.Agree R act') (hf : ∀ a b, R a b → (f a).Agree S (f' b)) :
    (act >>= f).Agree S (act' >>= f') := by
  intro w w' hw
  obtain ⟨hresult, hworld⟩ := h w w' hw
  exact hf _ _ hresult _ _ hworld

theorem Act.Agree.bind_eq {act act' : Act α} {f : α → Act γ} {f' : α → Act δ}
    (h : act.Agree Eq act') (hf : ∀ a, (f a).Agree S (f' a)) :
    (act >>= f).Agree S (act' >>= f') :=
  h.bind fun a _ hab => hab ▸ hf a

/-- An action that sees no more than what is left to see. -/
theorem Act.Agree.of_veiled {act : Act α}
    (h : ∀ w, act w.veiled = ((act w).1, (act w).2.veiled)) : act.Agree Eq act := by
  intro w w' hw
  have hsame : ((act w).1, (act w).2.veiled) = ((act w').1, (act w').2.veiled) := by
    rw [← h, ← h, hw]
  exact Prod.mk.inj hsame

theorem Act.Agree.record {event event' : Event} (h : event.veiled = event'.veiled) :
    (record event).Agree Eq (record event') := by
  intro w w' hw
  refine ⟨rfl, ?_⟩
  rw [record_apply, record_apply, World.veiled_write, World.veiled_write, hw, List.map_singleton,
    List.map_singleton, h]

theorem Act.Agree.log (level : LogLevel) (message : String) :
    (log level message).Agree Eq (log level message) := .record rfl

theorem Act.Agree.pause (d : Duration) (cancellable : Bool) :
    (pause d cancellable).Agree Eq (pause d cancellable) := by
  refine .of_veiled fun w => ?_
  have hcancelled : w.veiled.isCancelled = w.isCancelled := rfl
  have hcancelAt : w.veiled.cancelAt = w.cancelAt := rfl
  have hclock : w.veiled.clock = w.clock := rfl
  have hmillis : w.veiled.waitMillis d = w.waitMillis d := rfl
  rw [pause_apply, pause_apply, hcancelled, hcancelAt, hclock, hmillis]
  split
  · rfl
  · split
    · rfl
    · split <;> rfl

theorem Run.Agree.pure {a : α} {b : β} (h : R a b) :
    Run.Agree R (pure a : Run α) (pure b : Run β) :=
  fun _ _ hw => .some ⟨h, hw⟩

theorem Run.Agree.lift {act : Act α} {act' : Act β} (h : act.Agree R act') :
    Run.Agree R (liftM act : Run α) (liftM act' : Run β) :=
  fun w w' hw => .some (h w w' hw)

theorem Run.Agree.bind {run : Run α} {run' : Run β} {f : α → Run γ} {f' : β → Run δ}
    (h : run.Agree R run') (hf : ∀ a b, R a b → (f a).Agree S (f' b)) :
    (run >>= f).Agree S (run' >>= f') :=
  fun w w' hw => rel_bind (h w w' hw) fun _ _ hend => hf _ _ hend.1 _ _ hend.2

theorem Run.Agree.bind_eq {run run' : Run α} {f : α → Run γ} {f' : α → Run δ}
    (h : run.Agree Eq run') (hf : ∀ a, (f a).Agree S (f' a)) :
    (run >>= f).Agree S (run' >>= f') :=
  h.bind fun a _ hab => hab ▸ hf a

/-- Reading the clock. -/
theorem Run.Agree.clock {f : World → Run γ} {f' : World → Run δ}
    (hf : ∀ w w', w.clock = w'.clock → (f w).Agree S (f' w')) :
    (get >>= f).Agree S (get >>= f') :=
  fun w w' hw => hf w w' (World.clock_eq_of_veiled hw) w w' hw

theorem Act.Agree.clock {f : World → Act γ} {f' : World → Act δ}
    (hf : ∀ w w', w.clock = w'.clock → (f w).Agree S (f' w')) :
    (get >>= f).Agree S (get >>= f') :=
  fun w w' hw => hf w w' (World.clock_eq_of_veiled hw) w w' hw

end Composition

/-- Loops agree if their turns do. -/
theorem Run.Agree.iterate {σ τ α β : Type} {P : σ → τ → Prop} {R : α → β → Prop}
    {turn : σ → Run (σ ⊕ α)} {turn' : τ → Run (τ ⊕ β)}
    (h : ∀ s t, P s t → (turn s).Agree (Sum.LiftRel P R) (turn' t)) {s : σ} {t : τ} (hs : P s t) :
    Run.Agree R (Run.iterate turn s) (Run.iterate turn' t) := by
  intro w w' hw
  refine Run.iterate_turnRel (G := AgreeEnds P) ?_ ⟨hs, hw⟩
  intro s w t w' hstart
  have hturns := h s t hstart.1 w w' hstart.2
  generalize turn s w = outcome at hturns ⊢
  generalize turn' t w' = outcome' at hturns ⊢
  cases hturns with
  | none => exact .none
  | @some p q hend =>
    obtain ⟨a, v⟩ := p
    obtain ⟨b, v'⟩ := q
    obtain ⟨hresult, hv⟩ := hend
    cases hresult with
    | inl hnext => exact .some (.goes ⟨hnext, hv⟩)
    | inr hlast => exact .some (.ends ⟨hlast, hv⟩)

/-! ## Bodies and judgement -/

/-- An action that only writes, and always the same. -/
theorem Act.Agree.of_write {α : Type} {act : Act α} {a : α} {events : List Event}
    (h : ∀ w, act w = (a, w.write events)) : act.Agree Eq act := by
  intro w w' hw
  rw [h, h]
  exact ⟨rfl, by rw [World.veiled_write, World.veiled_write, hw]⟩

theorem Response.closeBody_agree (r : Response) : r.closeBody.Agree Eq r.closeBody :=
  .of_write r.closeBody_apply

theorem Response.drop_agree (r : Response) : r.drop.Agree Eq r.drop := .of_write r.drop_apply

theorem SendError.closeResponse_agree (e : SendError) :
    e.closeResponse.Agree Eq e.closeResponse :=
  .of_write e.closeResponse_apply

theorem Response.bufferBody_agree (r : Response) : r.bufferBody.Agree Eq r.bufferBody := by
  unfold Response.bufferBody
  cases r.body with
  | none => exact .pure rfl
  | some b =>
    dsimp only
    split
    · exact .pure rfl
    · exact .bind_eq (.of_write (Body.shutLogging_apply _ _)) fun _ => .pure rfl

theorem logIdentity_agree (r : Response) : (logIdentity r).Agree Eq (logIdentity r) := by
  unfold logIdentity
  generalize (r.header? "date").bind _ = date
  cases date <;> cases r.requestId? <;> cases r.clientId? <;>
    repeat first
      | exact .pure rfl
      | exact .log _ _
      | refine .bind_eq (.log _ _) fun _ => ?_

theorem describeFailure_agree (h : Handling) :
    (describeFailure h).Agree Eq (describeFailure h) := by
  refine .bind_eq h.response.bufferBody_agree fun ⟨result, r⟩ => ?_
  cases result with
  | error e => exact .pure rfl
  | ok content =>
    dsimp only
    cases ServiceError.ofBody? content with
    | some service => exact .pure rfl
    | none => exact .bind_eq (.log _ _) fun _ => .pure rfl

theorem judge_agree (expect : List Status) (r : Response) :
    (judge expect r).Agree Eq (judge expect r) := by
  have hkeep : ∀ h, (RespondStep.act h (.keep 0)).Agree Eq (RespondStep.act h (.keep 0)) := by
    intro h
    refine .bind_eq h.response.bufferBody_agree fun ⟨result, r⟩ => ?_
    cases result <;> exact .pure rfl
  have hrespond : ∀ h, (respond [.closing, .serviceErrorUnless expect, .keep 0] h).Agree Eq
      (respond [.closing, .serviceErrorUnless expect, .keep 0] h) := by
    intro h
    refine .bind_eq ?_ fun p => .bind_eq p.2.response.closeBody_agree fun _ => .pure rfl
    show Act.Agree Eq (if expect.contains h.response.status then _ else describeFailure h)
      (if expect.contains h.response.status then _ else describeFailure h)
    split
    · refine .bind_eq (hkeep h) fun ⟨result, h⟩ => ?_
      cases result <;> exact .pure rfl
    · exact describeFailure_agree h
  refine .bind_eq (hrespond _) fun ⟨result, h⟩ => ?_
  cases result with
  | error e => exact .pure rfl
  | ok _ =>
    dsimp only
    split
    · exact .pure rfl
    · refine .bind_eq h.response.bufferBody_agree fun ⟨content, r⟩ => ?_
      cases content <;> exact .pure rfl

end Courier
