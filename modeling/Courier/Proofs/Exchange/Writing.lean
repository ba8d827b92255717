import Courier.Perform
import Courier.Proofs.Bodies.Polling

set_option autoImplicit false

/-! # Actions that only write

Apart from the exchanges and the waits, nothing that happens in a call takes time or sends a
request: a request is prepared, a body is read and closed, a response is judged, and all that the
world shows of it is what has been written into the journal. -/

namespace Courier

/-! ## Composition -/

/-- Whether nothing has happened to a world but that events were written into its journal, and none
    of them is a request. -/
def World.Writes (w w' : World) : Prop :=
  ∃ events, w' = w.write events ∧ ∀ event ∈ events, event.isSent = false

theorem World.Writes.refl (w : World) : w.Writes w := ⟨[], (World.write_nil w).symm, by simp⟩

theorem World.Writes.trans {w v u : World} (h : w.Writes v) (h' : v.Writes u) : w.Writes u := by
  obtain ⟨first, rfl, hfirst⟩ := h
  obtain ⟨rest, rfl, hrest⟩ := h'
  refine ⟨first ++ rest, World.write_write .., fun event he => ?_⟩
  rcases List.mem_append.1 he with he | he
  · exact hfirst event he
  · exact hrest event he

theorem World.Writes.one {event : Event} (h : event.isSent = false) (w : World) :
    w.Writes (w.write [event]) :=
  ⟨[event], rfl, by simpa using h⟩

/-- Nothing but the journal changes. -/
theorem World.Writes.eq {w w' : World} (h : w.Writes w') :
    w' = { w with journal := w'.journal } := by
  obtain ⟨events, rfl, -⟩ := h
  rfl

/-- Whether an action does nothing but write into the journal, and writes of no request. -/
def Act.OnlyWrites {α : Type} (act : Act α) : Prop :=
  ∀ w : World, w.Writes (act w).2

section Composition

variable {α β : Type}

theorem Act.OnlyWrites.pure (a : α) : Act.OnlyWrites (pure a) := fun w => .refl w

theorem Act.OnlyWrites.bind {act : Act α} {f : α → Act β} (h : act.OnlyWrites)
    (hf : ∀ a, (f a).OnlyWrites) : (act >>= f).OnlyWrites :=
  fun w => (h w).trans (hf (act w).1 (act w).2)

theorem Act.OnlyWrites.log (level : LogLevel) (message : String) :
    Act.OnlyWrites (log level message) :=
  fun w => .one rfl w

end Composition

/-! ## Bodies -/

/-- Closing a reader is no request. -/
theorem ClosesJust.writes {reader : Option Nat} {events : List Event} (h : ClosesJust reader events)
    (w : World) : w.Writes (w.write events) := by
  obtain ⟨quiet, rfl, hq⟩ := h
  refine ⟨_, rfl, fun event he => ?_⟩
  rcases List.mem_append.1 he with he | he
  · obtain ⟨_, -, rfl⟩ := List.mem_map.1 he
    rfl
  · exact isSent_of_isQuiet (hq event he)

theorem Body.shutLogging_onlyWrites (complaint : String) (b : Body) :
    (b.shutLogging complaint).OnlyWrites := by
  intro w
  rw [Body.shutLogging_apply]
  exact (b.closesJust_closingEvents complaint).writes w

theorem Response.closeBody_onlyWrites (r : Response) : r.closeBody.OnlyWrites := by
  unfold Response.closeBody
  cases r.body with
  | none => exact .pure r
  | some b => exact .bind (b.shutLogging_onlyWrites _) fun _ => .pure _

theorem Response.drop_onlyWrites (r : Response) : r.drop.OnlyWrites := by
  unfold Response.drop
  cases r.body with
  | none => exact .pure _
  | some b => exact .bind (b.shutLogging_onlyWrites _) fun _ => .pure _

theorem Response.bufferBody_onlyWrites (r : Response) : r.bufferBody.OnlyWrites := by
  unfold Response.bufferBody
  cases r.body with
  | none => exact .pure _
  | some b =>
    dsimp only
    split
    · exact .pure _
    · exact .bind (Body.shutLogging_onlyWrites _ _) fun _ => .pure _

theorem SendError.closeResponse_onlyWrites (e : SendError) : e.closeResponse.OnlyWrites := by
  intro w
  rw [SendError.closeResponse_apply]
  exact e.closesJust_closingEvents.writes w

/-! ## Requests -/

theorem prepareIn_onlyWrites (steps : List PrepareStep) (base : Request) :
    (prepareIn steps base).OnlyWrites := by
  intro w
  rw [prepareIn_apply]
  refine ⟨_, rfl, fun event he => ?_⟩
  obtain ⟨_, -, rfl⟩ := List.mem_map.1 he
  rfl

theorem pollingRequest_onlyWrites (authorizer : PrepareStep) (cancellable : Bool) (r : Response) :
    (pollingRequest authorizer cancellable r).OnlyWrites := by
  refine .bind r.closeBody_onlyWrites fun r' => ?_
  cases r.pollingLocation? with
  | none => exact .pure _
  | some url =>
    refine .bind (prepareIn_onlyWrites _ _) fun prepared => ?_
    cases prepared <;> exact .pure _

theorem Session.prepareRequest_onlyWrites (s : Session) (request : Request) :
    (s.prepareRequest request).OnlyWrites := by
  refine .bind (prepareIn_onlyWrites _ _) fun authorized => ?_
  cases authorized with
  | error e => exact .pure _
  | ok request => exact prepareIn_onlyWrites _ _

theorem Settings.request_onlyWrites (s : Settings) : s.request.OnlyWrites := by
  unfold Settings.request
  exact prepareIn_onlyWrites _ _

theorem Credentials.authorizer_onlyWrites (c : Credentials) (files : FileTree) (now : Instant) :
    (c.authorizer files now).OnlyWrites := by
  unfold Credentials.authorizer
  cases c with
  | absent => exact .pure _
  | bearer token => exact .pure _
  | tokenFile path =>
    dsimp only
    cases Token.load path files with
    | error e => exact .pure _
    | ok token =>
      dsimp only
      split
      · exact .bind (.log _ _) fun _ => .pure _
      · exact .pure _

/-! ## Between two requests -/

/-- Putting a failed attempt away. -/
theorem World.writes_putsAway (w : World) (policy : RetryPolicy) (request : Request)
    (attempts : Nat) (e : SendError) : w.Writes (w.putsAway policy request attempts e) :=
  (e.closesJust_closingEvents.append_quiet rfl).writes w

/-- Recording a response closes the one before it. -/
theorem Polling.writes_recording (p : Polling) (w : World) :
    w.Writes (w.write p.recordingEvents) := by
  unfold Polling.recordingEvents
  cases p.progress with
  | none => exact (World.write_nil w).symm ▸ .refl w
  | some s => exact (s.last.closesJust_closingEvents _).writes w

/-- What follows from a poll. -/
theorem PollAfter.writes {plan : PollingPlan} {start : Nat} {p : Polling} {w w' : World}
    {result : SendResult} {outcome : Polling ⊕ SendResult}
    (h : PollAfter plan start p w result outcome w') : w.Writes w' := by
  have hrecorded := p.writes_recording w
  cases h with
  | failed => exact .refl w
  | @again e =>
    rw [← List.singleton_append, ← World.write_write]
    exact (World.Writes.one rfl w).trans (e.closesJust_closingEvents.writes _)
  | finished =>
    rw [Polling.endEvents, ← World.write_write]
    exact hrecorded.trans (.one rfl _)
  | exhausted => exact hrecorded
  | @astray r =>
    rw [Polling.strayEvents, ← World.write_write]
    exact hrecorded.trans ((r.closesJust_closingEvents _).writes _)
  | @pending r =>
    rw [Polling.pendingEvents, ← World.write_write, ← List.singleton_append, ← World.write_write]
    exact (hrecorded.trans (.one rfl _)).trans ((r.closesJust_closingEvents _).writes _)

/-! ## Judgement -/

theorem logIdentity_onlyWrites (r : Response) : (logIdentity r).OnlyWrites := by
  unfold logIdentity
  generalize (r.header? "date").bind _ = date
  cases date <;> cases r.requestId? <;> cases r.clientId? <;>
    repeat first
      | exact .pure _
      | exact .log _ _
      | refine .bind (.log _ _) fun _ => ?_

theorem describeFailure_onlyWrites (h : Handling) : (describeFailure h).OnlyWrites := by
  refine .bind h.response.bufferBody_onlyWrites fun ⟨result, r⟩ => ?_
  cases result with
  | error e => exact .pure _
  | ok content =>
    dsimp only
    cases ServiceError.ofBody? content with
    | some service => exact .pure _
    | none => exact .bind (.log _ _) fun _ => .pure _

/-- Reading a body into memory and keeping its text. -/
theorem RespondStep.keep_onlyWrites (i : Nat) (h : Handling) :
    (RespondStep.act h (.keep i)).OnlyWrites := by
  refine .bind h.response.bufferBody_onlyWrites fun ⟨result, r⟩ => ?_
  cases result <;> exact .pure _

theorem judge_onlyWrites (expect : List Status) (r : Response) : (judge expect r).OnlyWrites := by
  have hrespond : ∀ h, Act.OnlyWrites
      (respond [.closing, .serviceErrorUnless expect, .keep 0] h) := by
    intro h
    refine .bind ?_ fun p => .bind p.2.response.closeBody_onlyWrites fun _ => .pure _
    show Act.OnlyWrites (if expect.contains h.response.status then _ else describeFailure h)
    split
    · refine .bind (RespondStep.keep_onlyWrites 0 h) fun ⟨result, h⟩ => ?_
      cases result <;> exact .pure _
    · exact describeFailure_onlyWrites h
  refine .bind (hrespond _) fun ⟨result, h⟩ => ?_
  cases result with
  | error e => exact .pure _
  | ok _ =>
    dsimp only
    split
    · exact .pure _
    · refine .bind h.response.bufferBody_onlyWrites fun ⟨content, r⟩ => ?_
      cases content <;> exact .pure _

end Courier
