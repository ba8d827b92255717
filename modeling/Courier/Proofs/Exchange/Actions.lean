import Courier.Exchange.Send
import Mathlib.Algebra.Group.Nat.Defs

set_option autoImplicit false

/-! # What actions do to the world

Every action of an exchange is a result and a change of the world. For each one there is an equation
that tells both, so that nothing that is built from actions has to be taken apart twice. What
closing a body leaves in the journal is a list of events that depends on the body alone. -/

namespace Courier

/-! ## Changes of the world -/

/-- The world with more events in its journal, all of them now. -/
def World.write (w : World) (events : List Event) : World :=
  { w with journal := w.journal ++ events.map fun event => ⟨w.clock, event⟩ }

/-- The world after a wait. -/
def World.wait (w : World) (d : Duration) : World :=
  { w with clock := w.clock + w.waitMillis d }

@[simp] theorem World.write_nil (w : World) : w.write [] = w := by simp [World.write]

/-- Events can be written one after another. -/
@[simp] theorem World.write_write (w : World) (first rest : List Event) :
    (w.write first).write rest = w.write (first ++ rest) := by
  simp [World.write, List.append_assoc]

/-! ## Sequences of actions -/

@[simp] theorem Act.pure_apply {α : Type} (a : α) (w : World) : (pure a : Act α) w = (a, w) := rfl

@[simp] theorem Act.bind_apply {α β : Type} (act : Act α) (f : α → Act β) (w : World) :
    (act >>= f) w = f (act w).1 (act w).2 := rfl

@[simp] theorem Act.map_apply {α β : Type} (f : α → β) (act : Act α) (w : World) :
    (f <$> act) w = (f (act w).1, (act w).2) := rfl

@[simp] theorem Act.get_apply (w : World) : (get : Act World) w = (w, w) := rfl

@[simp] theorem Act.modify_apply (f : World → World) (w : World) :
    (modify f : Act Unit) w = ((), f w) := rfl

@[simp] theorem Act.set_apply (w v : World) : (set v : Act Unit) w = ((), v) := rfl

@[simp] theorem Run.pure_apply {α : Type} (a : α) (w : World) :
    (pure a : Run α) w = some (a, w) := rfl

@[simp] theorem Run.bind_apply {α β : Type} (run : Run α) (f : α → Run β) (w : World) :
    (run >>= f) w = (run w).bind fun p => f p.1 p.2 := rfl

@[simp] theorem Run.map_apply {α β : Type} (f : α → β) (run : Run α) (w : World) :
    (f <$> run) w = (run w).map fun p => (f p.1, p.2) := by
  rw [map_eq_pure_bind, Run.bind_apply]
  cases run w <;> rfl

@[simp] theorem Run.get_apply (w : World) : (get : Run World) w = some (w, w) := rfl

@[simp] theorem Run.lift_apply {α : Type} (act : Act α) (w : World) :
    (liftM act : Run α) w = some (act w) := rfl

/-! ## Writing -/

@[simp] theorem record_apply (event : Event) (w : World) :
    record event w = ((), w.write [event]) := rfl

@[simp] theorem log_apply (level : LogLevel) (message : String) (w : World) :
    log level message w = ((), w.write [.logged level message]) := rfl

@[simp] theorem advanceTo_apply (time : Nat) (w : World) :
    advanceTo time w = ((), { w with clock := time }) := rfl

/-! ## Waits -/

/-- A wait is over in time, and in the millisecond in which it should be as long as that is within
    the reach of the timer. -/
theorem World.wait_clock (w : World) (d : Duration) :
    w.clock ≤ (w.wait d).clock ∧ (w.wait d).clock ≤ w.clock + d.ceilMillis ∧
      (w.clock + d.ceilMillis ≤ Timer.reach → (w.wait d).clock = w.clock + d.ceilMillis) := by
  refine ⟨Nat.le_add_right _ _, Nat.add_le_add_left (w.timer.millis_le w.clock d) _, fun h => ?_⟩
  have hkept := w.timer.millis_eq w.clock d (Nat.le_trans (Nat.le_add_left _ _) h)
  exact congrArg (w.clock + ·) hkept

/-- What a wait comes to is read off the clock and the moment of the cancellation. -/
theorem pause_apply (d : Duration) (cancellable : Bool) (w : World) :
    pause d cancellable w =
      if cancellable && w.isCancelled then (.cancelled, w)
      else
        match w.cancelAt with
        | none => (.finished, { w with clock := w.clock + w.waitMillis d })
        | some t =>
          if cancellable && t < w.clock + w.waitMillis d then (.cancelled, { w with clock := t })
          else (.finished, { w with clock := w.clock + w.waitMillis d }) := by
  show (if cancellable && w.isCancelled then _ else _ : Act Pause) w = _
  split
  · rfl
  · cases hc : w.cancelAt with
    | none =>
      dsimp only
      rw [← hc]
      rfl
    | some t =>
      show (if cancellable && t < w.clock + w.waitMillis d then _ else _ : Act Pause) w = _
      dsimp only
      rw [← hc]
      split <;> rfl

/-- A wait ends in time, or the caller cancels before that. -/
theorem pause_cases (d : Duration) (cancellable : Bool) (w : World) :
    pause d cancellable w = (.finished, w.wait d) ∨
      cancellable = true ∧ ∃ t, w.cancelAt = some t ∧ t ≤ w.clock + w.waitMillis d ∧
        pause d cancellable w = (.cancelled, { w with clock := max w.clock t }) := by
  unfold pause
  simp only [Act.bind_apply, Act.get_apply]
  cases hc : w.cancelAt with
  | none =>
    left
    simp [World.isCancelled, hc, World.wait]
  | some t =>
    cases cancellable with
    | false =>
      left
      simp [hc, World.wait]
    | true =>
      by_cases hpast : t ≤ w.clock
      · right
        refine ⟨rfl, t, rfl, by omega, ?_⟩
        rw [Nat.max_eq_left hpast]
        simp [World.isCancelled, hc, hpast]
        rw [← hc]
      · by_cases hlate : t < w.clock + w.waitMillis d
        · right
          refine ⟨rfl, t, rfl, by omega, ?_⟩
          have hmax : max w.clock t = t := Nat.max_eq_right (by omega)
          simp [World.isCancelled, hc, hpast, hlate, hmax]
        · left
          simp [World.isCancelled, hc, hpast, hlate, World.wait]

/-- A wait that is not cut short takes its whole span. -/
theorem pause_finished {d : Duration} {cancellable : Bool} {w w' : World}
    (h : pause d cancellable w = (.finished, w')) : w' = w.wait d := by
  rcases pause_cases d cancellable w with hp | ⟨-, t, -, -, hp⟩
  · rw [hp] at h
    exact (Prod.mk.inj h).2.symm
  · rw [hp] at h
    exact absurd (Prod.mk.inj h).1 (by simp)

/-- A wait moves nothing but the clock. -/
theorem pause_world (d : Duration) (cancellable : Bool) (w : World) :
    ∃ t, (pause d cancellable w).2 = { w with clock := t } := by
  rcases pause_cases d cancellable w with hp | ⟨-, t, -, -, hp⟩
  · exact ⟨_, by rw [hp]; rfl⟩
  · exact ⟨_, by rw [hp]⟩

/-- A wait that nobody cancels is over some time. -/
theorem pause_finishes {d : Duration} {cancellable : Bool} {u : World}
    (h : cancellable = true → u.cancelAt = none) :
    pause d cancellable u = (.finished, u.wait d) := by
  rcases pause_cases d cancellable u with hp | ⟨hcancellable, t, ht, -, -⟩
  · exact hp
  · exact absurd ((h hcancellable).symm.trans ht) (by simp)

/-- A wait takes its span at most. -/
theorem pause_clock_le (d : Duration) (cancellable : Bool) (w : World) :
    (pause d cancellable w).2.clock ≤ w.clock + w.waitMillis d := by
  rcases pause_cases d cancellable w with hp | ⟨-, t, -, hle, hp⟩
  · rw [hp]
    exact Nat.le_refl _
  · rw [hp]
    exact Nat.max_le.2 ⟨Nat.le_add_right _ _, hle⟩

/-! ## Closing bodies -/

/-- What closing a body leaves in the journal: the reader is closed if the body is open, and there
    is a complaint if that fails. -/
def Body.closingEvents (complaint : String) (b : Body) : List Event :=
  b.close.closed.toList.map .closed ++
    b.close.error.toList.map fun e => .logged .warn (complaint ++ ": " ++ e.message)

theorem Body.shutLogging_apply (complaint : String) (b : Body) (w : World) :
    b.shutLogging complaint w = (b.close.body, w.write (b.closingEvents complaint)) := by
  unfold Body.shutLogging Body.shut Body.closingEvents
  cases hn : b.close.closed <;> cases he : b.close.error <;> simp [hn, he]

theorem Body.drop_apply (b : Body) (w : World) :
    b.drop w = ((), w.write (b.closingEvents "Failed to close dropped response body")) := by
  simp [Body.drop, Body.shutLogging_apply]

/-- What closing the body of a response leaves in the journal. -/
def Response.closingEvents (complaint : String) (r : Response) : List Event :=
  (r.body.map (Body.closingEvents complaint)).getD []

/-- A response with its body closed. -/
def Response.closed (r : Response) : Response :=
  { r with body := r.body.map fun b => b.close.body }

@[simp] theorem Response.closed_closed (r : Response) : r.closed.closed = r.closed := by
  unfold Response.closed
  cases r.body <;> simp [Body.close_close]

theorem Response.closeBody_apply (r : Response) (w : World) :
    r.closeBody w = (r.closed, w.write (r.closingEvents "Failed to close response body")) := by
  unfold Response.closeBody Response.closed Response.closingEvents
  obtain ⟨status, headers, body⟩ := r
  cases body <;> simp [Body.shutLogging_apply]

theorem Response.drop_apply (r : Response) (w : World) :
    r.drop w = ((), w.write (r.closingEvents "Failed to close dropped response body")) := by
  unfold Response.drop Response.closingEvents
  cases r.body <;> simp [Body.drop_apply]

/-- What closing the response that travels with an error leaves in the journal. -/
def SendError.closingEvents (e : SendError) : List Event :=
  (e.response?.map (Response.closingEvents "Failed to close response body")).getD []

/-- An error with the body of its response closed. -/
def SendError.closed : SendError → SendError
  | .unexpectedStatus method url status response =>
    .unexpectedStatus method url status response.closed
  | e => e

theorem SendError.closeResponse_apply (e : SendError) (w : World) :
    e.closeResponse w = (e.closed, w.write e.closingEvents) := by
  cases e <;> simp [SendError.closeResponse, SendError.closed, SendError.closingEvents,
    SendError.response?, Response.closeBody_apply]

/-- What letting go of a result leaves in the journal. -/
def SendResult.droppingEvents (result : SendResult) : List Event :=
  ((SendResult.response? result).map
    (Response.closingEvents "Failed to close dropped response body")).getD []

theorem SendResult.drop_apply (result : SendResult) (w : World) :
    SendResult.drop result w = ((), w.write (SendResult.droppingEvents result)) := by
  unfold SendResult.drop SendResult.droppingEvents SendResult.response? SendError.drop
  cases result with
  | ok r => simp [Response.drop_apply]
  | error e => cases h : e.response? <;> simp [Response.drop_apply, h]

/-! ## Calls of a sender -/

/-- A call of a sender: what it was asked in which world, and what it brought in which. -/
structure Call where
  request : Request
  sent : World
  result : SendResult
  back : World

/-- The call of a sender with a request in a world, if the sender comes back. -/
def Sender.call (next : Sender) (request : Request) (w : World) : Option Call :=
  (next request w).map fun p => ⟨request, w, p.1, p.2⟩

theorem Sender.call_eq_some {next : Sender} {request : Request} {w : World} {c : Call} :
    next.call request w = some c ↔
      c.request = request ∧ c.sent = w ∧ next request w = some (c.result, c.back) := by
  unfold Sender.call
  rw [Option.map_eq_some_iff]
  constructor
  · rintro ⟨⟨result, back⟩, h, rfl⟩
    exact ⟨rfl, rfl, h⟩
  · rintro ⟨rfl, rfl, h⟩
    exact ⟨_, h, rfl⟩

/-- A call of a sender after a wait, unless the wait is interrupted. -/
def Sender.callAfter (next : Sender) (delay : Duration) (request : Request) (w : World) :
    Option Call :=
  match pause delay request.cancellable w with
  | (.finished, v) => next.call request v
  | (.cancelled, _) => none

theorem Sender.callAfter_eq_some {next : Sender} {delay : Duration} {request : Request}
    {w : World} {c : Call} :
    next.callAfter delay request w = some c ↔
      pause delay request.cancellable w = (.finished, c.sent) ∧ c.request = request ∧
        next request c.sent = some (c.result, c.back) := by
  unfold Sender.callAfter
  cases hp : pause delay request.cancellable w with
  | mk outcome v =>
    cases outcome with
    | cancelled =>
      constructor
      · intro h
        simp at h
      · rintro ⟨hwait, -⟩
        exact absurd (Prod.mk.inj hwait).1 (by simp)
    | finished =>
      rw [Sender.call_eq_some]
      constructor
      · rintro ⟨hrequest, rfl, called⟩
        exact ⟨rfl, hrequest, called⟩
      · rintro ⟨hwait, hrequest, called⟩
        obtain ⟨-, rfl⟩ := Prod.mk.inj hwait
        exact ⟨hrequest, rfl, called⟩

/-! ## Steps around a sender

Each step but a retry calls the sender that it wraps once at most. What it makes of that call, and
what it writes, is said once here. -/

/-- What a step that logs says of a request that goes out. -/
def sendingMessage (title : String) (request : Request) : String :=
  title ++ ": Sending " ++ (request.method.name ++ " " ++ request.urlText)

/-- What a step that logs says of a result that comes back. -/
def outcomeMessage (title : String) (request : Request) : SendResult → String
  | .ok r =>
    title ++ ": " ++ (request.method.name ++ " " ++ request.urlText) ++ " received " ++
      r.status.line
  | .error e =>
    title ++ ": " ++ (request.method.name ++ " " ++ request.urlText) ++ " failed: " ++ e.message

/-- What a check makes of a result. -/
def checkedResult (codes : List Status) (failOnMatch : Bool) (request : Request) :
    SendResult → SendResult
  | .ok r =>
    if codes.contains r.status == failOnMatch then .error (.rejection request r) else .ok r
  | .error e => .error e

/-- A check takes no response away and brings none. -/
theorem response?_checkedResult (codes : List Status) (failOnMatch : Bool) (request : Request)
    (result : SendResult) :
    SendResult.response? (checkedResult codes failOnMatch request result) =
      SendResult.response? result := by
  cases result with
  | error e => rfl
  | ok r =>
    simp only [checkedResult]
    split <;> rfl

/-- What a probe records of a result. -/
def SendResult.mark : SendResult → Except SendError.Kind Status
  | .ok r => .ok r.status
  | .error e => .error e.kind

section Steps

variable {next : Sender} {request : Request} {w w' : World} {result : SendResult}

theorem logged_eq_some_iff {title : String} :
    logged title next request w = some (result, w') ↔
      ∃ v, next request (w.write [.logged .info (sendingMessage title request)]) =
          some (result, v) ∧
        w' = v.write [.logged .info (outcomeMessage title request result)] := by
  simp only [logged, Run.bind_apply, Run.lift_apply, log_apply, Option.bind_some,
    Option.bind_eq_some_iff]
  constructor
  · rintro ⟨⟨answer, v⟩, hnext, hback⟩
    cases answer with
    | ok r =>
      obtain ⟨rfl, rfl⟩ := Prod.mk.inj (Option.some.inj hback)
      exact ⟨v, hnext, rfl⟩
    | error e =>
      obtain ⟨rfl, rfl⟩ := Prod.mk.inj (Option.some.inj hback)
      exact ⟨v, hnext, rfl⟩
  · rintro ⟨v, hnext, rfl⟩
    refine ⟨(result, v), hnext, ?_⟩
    cases result <;> rfl

theorem probed_eq_some_iff {name : String} :
    probed name next request w = some (result, w') ↔
      ∃ v, next request (w.write [.entered name]) = some (result, v) ∧
        w' = v.write [.left name (SendResult.mark result)] := by
  simp only [probed, Run.bind_apply, Run.lift_apply, record_apply, Option.bind_some,
    Option.bind_eq_some_iff]
  constructor
  · rintro ⟨⟨answer, v⟩, hnext, hback⟩
    obtain ⟨rfl, rfl⟩ := Prod.mk.inj (Option.some.inj hback)
    exact ⟨v, hnext, rfl⟩
  · rintro ⟨v, hnext, rfl⟩
    exact ⟨(result, v), hnext, rfl⟩

theorem checked_eq_some_iff {codes : List Status} {failOnMatch : Bool} :
    checked codes failOnMatch next request w = some (result, w') ↔
      ∃ answer, next request w = some (answer, w') ∧
        result = checkedResult codes failOnMatch request answer := by
  simp only [checked, Run.bind_apply, Option.bind_eq_some_iff]
  constructor
  · rintro ⟨⟨answer, v⟩, hnext, hback⟩
    cases answer with
    | error e =>
      obtain ⟨rfl, rfl⟩ := Prod.mk.inj (Option.some.inj hback)
      exact ⟨_, hnext, rfl⟩
    | ok r =>
      dsimp only at hback
      split at hback
      · next hmatch =>
        obtain ⟨rfl, rfl⟩ := Prod.mk.inj (Option.some.inj hback)
        exact ⟨_, hnext, (if_pos hmatch).symm⟩
      · next hmatch =>
        obtain ⟨rfl, rfl⟩ := Prod.mk.inj (Option.some.inj hback)
        exact ⟨_, hnext, (if_neg hmatch).symm⟩
  · rintro ⟨answer, hnext, rfl⟩
    refine ⟨(answer, w'), hnext, ?_⟩
    cases answer with
    | error e => rfl
    | ok r =>
      simp only [checkedResult]
      split <;> rfl

theorem closing_eq_some_iff :
    closing next request w = some (result, w') ↔
      (∃ r, next request w = some (.ok r, w') ∧ result = .ok r) ∨
        ∃ e v, next request w = some (.error e, v) ∧ result = .error e.closed ∧
          w' = v.write e.closingEvents := by
  simp only [closing, Run.bind_apply, Option.bind_eq_some_iff]
  constructor
  · rintro ⟨⟨answer, v⟩, hnext, hback⟩
    cases answer with
    | ok r =>
      obtain ⟨rfl, rfl⟩ := Prod.mk.inj (Option.some.inj hback)
      exact .inl ⟨r, hnext, rfl⟩
    | error e =>
      simp only [Run.bind_apply, Run.lift_apply, SendError.closeResponse_apply,
        Option.bind_some] at hback
      obtain ⟨rfl, rfl⟩ := Prod.mk.inj (Option.some.inj hback)
      exact .inr ⟨e, v, hnext, rfl, rfl⟩
  · rintro (⟨r, hnext, rfl⟩ | ⟨e, v, hnext, rfl, rfl⟩)
    · exact ⟨_, hnext, rfl⟩
    · refine ⟨_, hnext, ?_⟩
      simp only [Run.bind_apply, Run.lift_apply, SendError.closeResponse_apply, Option.bind_some]
      rfl

theorem delayed_eq_some_iff {delay : Duration} :
    delayed delay next request w = some (result, w') ↔
      (pause delay request.cancellable w = (.cancelled, w') ∧ result = .error .cancelled) ∨
        ∃ v, pause delay request.cancellable w = (.finished, v) ∧
          next request v = some (result, w') := by
  simp only [delayed, Run.bind_apply, Run.lift_apply, Option.bind_some]
  generalize pause delay request.cancellable w = waited
  obtain ⟨outcome, v⟩ := waited
  cases outcome with
  | cancelled =>
    constructor
    · intro hback
      obtain ⟨rfl, rfl⟩ := Prod.mk.inj (Option.some.inj hback)
      exact .inl ⟨rfl, rfl⟩
    · rintro (⟨hwait, rfl⟩ | ⟨v', hwait, -⟩)
      · obtain ⟨-, rfl⟩ := Prod.mk.inj hwait
        rfl
      · exact absurd (Prod.mk.inj hwait).1 (by simp)
  | finished =>
    constructor
    · exact fun hnext => .inr ⟨v, rfl, hnext⟩
    · rintro (⟨hwait, -⟩ | ⟨v', hwait, hnext⟩)
      · exact absurd (Prod.mk.inj hwait).1 (by simp)
      · obtain ⟨-, rfl⟩ := Prod.mk.inj hwait
        exact hnext

end Steps

/-! ## The service -/

/-- The reply to a request, counted from zero. -/
def World.reply (w : World) (i : Nat) : Reply := w.script.getD i w.fallback

/-- What an answer brings, if the next reader has the given number. -/
def Answer.brings (n : Nat) : Answer → SendResult
  | .response status headers body =>
    .ok ⟨status, headers, body.map fun b => ⟨b.1.reader n, b.2, true⟩⟩
  | .timeout => .error (.transport .timeout)
  | .connection reason => .error (.transport (.connection [.plain reason]))
  | .invalidUrl reason => .error (.transport (.invalidUrl reason))

/-- Whether an answer has a body that is backed by a reader. -/
def Answer.hasReader : Answer → Bool
  | .response _ _ (some (kind, _)) => (kind.reader 0).number?.isSome
  | _ => false

theorem Answer.result_apply (a : Answer) (w : World) :
    a.result w = (a.brings w.readers, { w with readers := w.readers + a.hasReader.toNat }) := by
  cases a with
  | response status headers body =>
    cases body with
    | none => rfl
    | some b =>
      obtain ⟨kind, content⟩ := b
      cases kind <;> rfl
  | timeout => rfl
  | connection reason => rfl
  | invalidUrl reason => rfl

theorem nextReply_apply (w : World) :
    nextReply w = (w.reply 0, { w with script := w.script.tail }) := by
  unfold nextReply World.reply
  cases hs : w.script with
  | nil =>
    simp only [Act.bind_apply, Act.get_apply, hs, Act.pure_apply, List.getD_nil, List.tail_nil]
    rw [← hs]
  | cons reply rest => simp [hs]

/-- The world when a request has been sent and its reply is there. -/
def World.exchanges (w : World) (request : Request) : World :=
  { (w.write [.sent w.sent request w.isCancelled]).countRequest with
    script := w.script.tail
    clock := w.clock + (w.reply 0).latencyMillis
    readers := w.readers + (w.reply 0).answer.hasReader.toNat }

theorem transport_apply (request : Request) (w : World) :
    transport request w =
      some ((w.reply 0).answer.brings w.readers, w.exchanges request) := by
  simp only [transport, transportAct, Run.lift_apply, Act.bind_apply, Act.get_apply, record_apply,
    Act.modify_apply, nextReply_apply, advanceTo_apply, Answer.result_apply]
  rfl

end Courier
