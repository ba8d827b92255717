import Courier.Proofs.Exchange.Iterate
import Courier.Proofs.Polling.Turn

set_option autoImplicit false

/-! # The calls of a poll loop

A loop of polls is told by the calls that it makes of its sender. Between two calls the loop keeps
more than it needs: the number of polls, the request, and the progress of the operation with the
last response in it. Here this is brought down to what the calls themselves tell. -/

namespace Courier

/-! ## Locations -/

/-- The location that the response to a call names, if there is one. -/
def Call.location? (c : Call) : Option String :=
  match c.result with
  | .ok r => r.pollingLocation?
  | .error _ => none

theorem Call.location?_of_ok {c : Call} {r : Response} (h : c.result = .ok r) :
    c.location? = r.pollingLocation? := by
  unfold Call.location?
  rw [h]

theorem Call.location?_of_error {c : Call} {e : SendError} (h : c.result = .error e) :
    c.location? = none := by
  unfold Call.location?
  rw [h]

/-- The location in force before a call: of those that the calls before it have named, the last. -/
def locationBefore (calls : Nat → Option Call) : Nat → Option String
  | 0 => none
  | k + 1 => ((calls k).bind Call.location?).orElse fun _ => locationBefore calls k

/-! ## Calls -/

section Calls

variable (sender : Sender) (plan : PollingPlan) (firstDelay : Duration) (request : Request)
  (w : World)

/-- Where a loop stands before a poll, counted from zero, if it gets there. -/
def pollReach (k : Nat) : Option (Polling × World) :=
  Run.reach (pollTurn sender plan w.clock) ⟨0, firstDelay, request, none⟩ w k

/-- A call that a loop of polls makes of its sender, counted from zero, if the loop gets there, its
    wait is over and the sender comes back. -/
def pollCall (k : Nat) : Option Call :=
  (pollReach sender plan firstDelay request w k).bind fun p =>
    sender.callAfter p.1.delay p.1.request p.2

variable {sender plan firstDelay request w}

/-- A call is made from where the loop stands. -/
theorem pollCall_eq_some {k : Nat} {c : Call} :
    pollCall sender plan firstDelay request w k = some c ↔
      ∃ p v, pollReach sender plan firstDelay request w k = some (p, v) ∧
        sender.callAfter p.delay p.request v = some c := by
  unfold pollCall
  rw [Option.bind_eq_some_iff]
  constructor
  · rintro ⟨⟨p, v⟩, hreach, hcall⟩
    exact ⟨p, v, hreach, hcall⟩
  · rintro ⟨p, v, hreach, hcall⟩
    exact ⟨(p, v), hreach, hcall⟩

/-- The loop goes on from a call. -/
theorem pollReach_succ_eq_some {k : Nat} {q : Polling} {v' : World} :
    pollReach sender plan firstDelay request w (k + 1) = some (q, v') ↔
      ∃ p v c, pollReach sender plan firstDelay request w k = some (p, v) ∧
        sender.callAfter p.delay p.request v = some c ∧
        PollAfter plan w.clock p c.back c.result (.inl q) v' := by
  unfold pollReach
  rw [Run.reach_succ_eq_some]
  constructor
  · rintro ⟨p, v, hreach, hturn⟩
    rcases pollTurn_eq_some_iff.1 hturn with ⟨-, hstop⟩ | ⟨c, hcall, hafter⟩
    · exact absurd hstop (by simp)
    · exact ⟨p, v, c, hreach, hcall, hafter⟩
  · rintro ⟨p, v, c, hreach, hcall, hafter⟩
    exact ⟨p, v, hreach, pollTurn_eq_some_iff.2 (.inr ⟨c, hcall, hafter⟩)⟩

/-- What the loop comes to follows from a call, unless a wait is interrupted. -/
theorem poll_eq_some_iff {result : SendResult} {w' : World} :
    poll sender plan firstDelay request w = some (result, w') ↔
      (∃ k p v, pollReach sender plan firstDelay request w k = some (p, v) ∧
        pause p.delay p.request.cancellable v = (.cancelled, w') ∧ result = .error .cancelled) ∨
      ∃ k p v c, pollReach sender plan firstDelay request w k = some (p, v) ∧
        sender.callAfter p.delay p.request v = some c ∧
        PollAfter plan w.clock p c.back c.result (.inr result) w' := by
  show Run.iterate (pollTurn sender plan w.clock) ⟨0, firstDelay, request, none⟩ w = _ ↔ _
  unfold pollReach
  rw [Run.iterate_eq_some_iff]
  constructor
  · rintro ⟨k, p, v, hreach, hturn⟩
    rcases pollTurn_eq_some_iff.1 hturn with ⟨hwait, hresult⟩ | ⟨c, hcall, hafter⟩
    · exact .inl ⟨k, p, v, hreach, hwait, Sum.inr.inj hresult⟩
    · exact .inr ⟨k, p, v, c, hreach, hcall, hafter⟩
  · rintro (⟨k, p, v, hreach, hwait, rfl⟩ | ⟨k, p, v, c, hreach, hcall, hafter⟩)
    · exact ⟨k, p, v, hreach, pollTurn_eq_some_iff.2 (.inl ⟨hwait, rfl⟩)⟩
    · exact ⟨k, p, v, hreach, pollTurn_eq_some_iff.2 (.inr ⟨c, hcall, hafter⟩)⟩

/-! ## Where the loop stands -/

/-- What is known of a loop before a poll: it has counted the polls, its request differs from the
    first one by its URL alone, it knows the location in force, and it holds no open response. -/
structure Polling.Standing (request : Request) (location : Option String) (k : Nat) (p : Polling) :
    Prop where
  attempts : p.attempts = k
  request : p.request = { request with url := p.request.url }
  location : p.progress.bind PollingState.url = location
  recorded : p.recordingEvents = []

/-- Closing a closed response leaves nothing in the journal. -/
@[simp] theorem Response.closingEvents_closed (complaint : String) (r : Response) :
    r.closed.closingEvents complaint = [] := by
  unfold Response.closingEvents Response.closed
  cases r.body with
  | none => rfl
  | some b => simp [Body.closingEvents, Body.close_close]

/-- The request for the next poll differs by its URL alone. -/
theorem Request.eq_of_follow {request next : Request} {location : String}
    (h : request.follow location = .ok next) :
    ∃ url, Url.parseFrom request.url location = .ok url ∧
      next = { request with url := some url } := by
  unfold Request.follow at h
  cases hu : Url.parseFrom request.url location with
  | error e => simp [hu] at h
  | ok url =>
    simp only [hu, Except.ok.injEq] at h
    exact ⟨url, rfl, h.symm⟩

theorem Polling.requestAfter_eq {p : Polling} {r : Response} {next : Request}
    (h : p.requestAfter r = .ok next) : next = { p.request with url := next.url } := by
  unfold Polling.requestAfter at h
  cases hl : p.location? r with
  | none =>
    simp only [hl, Except.ok.injEq] at h
    rw [← h]
  | some location =>
    simp only [hl] at h
    obtain ⟨url, -, rfl⟩ := Request.eq_of_follow h
    rfl

theorem pollReach_standing {k : Nat} {p : Polling} {v : World}
    (h : pollReach sender plan firstDelay request w k = some (p, v)) :
    p.Standing request (locationBefore (pollCall sender plan firstDelay request w) k) k := by
  induction k generalizing p v with
  | zero =>
    obtain ⟨rfl, rfl⟩ := Prod.mk.inj (Option.some.inj h)
    exact ⟨rfl, rfl, rfl, rfl⟩
  | succ k ih =>
    obtain ⟨q, u, c, hreach, hcall, hafter⟩ := pollReach_succ_eq_some.1 h
    have hq := ih hreach
    have hc := pollCall_eq_some.2 ⟨q, u, hreach, hcall⟩
    obtain ⟨sent, asked, result, back⟩ := c
    rw [locationBefore, hc, Option.bind_some]
    -- A poll that failed keeps what is known; a response may name a location, and is closed.
    cases hafter with
    | again => exact ⟨congrArg (· + 1) hq.attempts, hq.request, hq.location, hq.recorded⟩
    | @pending r _ _ _ leads =>
      refine ⟨congrArg (· + 1) hq.attempts, ?_, ?_, ?_⟩
      · have hnext := Polling.requestAfter_eq leads
        rw [hq.request] at hnext
        exact hnext
      · rw [← hq.location]
        rfl
      · simp [Polling.next, Polling.recordingEvents]

/-- Every call is for the first request, but for its URL. -/
theorem pollCall_request {k : Nat} {c : Call}
    (h : pollCall sender plan firstDelay request w k = some c) :
    c.request = { request with url := c.request.url } := by
  obtain ⟨p, v, hreach, hcall⟩ := pollCall_eq_some.1 h
  rw [(Sender.callAfter_eq_some.1 hcall).2.1]
  exact (pollReach_standing hreach).request

end Calls

end Courier
