import Courier.Proofs.Polling.Calls

set_option autoImplicit false

/-! # What a poll loop comes to

A loop of polls goes on as long as its responses are pending and its budget lasts. Here it is said
of a single call when it is the last one and what the loop then comes to, and of the whole loop that
it comes to what its first last call brings. -/

namespace Courier

/-! ## The last call -/

/-- Whether a response says that its operation goes on. -/
def StillPending (codes : List Status) (r : Response) : Prop :=
  r.status.code ≠ 200 ∧ r.status ∈ if codes = [] then [⟨202⟩] else codes

theorem requiresPolling_iff (codes : List Status) (r : Response) :
    r.requiresPolling codes = true ↔ StillPending codes r := by
  unfold Response.requiresPolling StillPending
  cases codes <;> simp [defaultPollingCodes]

theorem requiresPolling_eq_false_iff (codes : List Status) (r : Response) :
    r.requiresPolling codes = false ↔ ¬StillPending codes r := by
  rw [← requiresPolling_iff, Bool.not_eq_true]

/-- Whether a budget is used up after a number of calls and a number of milliseconds. -/
def Budget.UsedUp (b : Budget) (calls millis : Nat) : Prop :=
  match b with
  | .attempts n => n ≤ calls
  | .duration d => d.nanos ≤ millis * 1000000

theorem isExhausted_iff (b : Budget) (calls millis : Nat) :
    b.isExhausted calls millis = true ↔ b.UsedUp calls millis := by
  cases b <;> simp [Budget.isExhausted, Budget.UsedUp]

theorem isExhausted_eq_false_iff (b : Budget) (calls millis : Nat) :
    b.isExhausted calls millis = false ↔ ¬b.UsedUp calls millis := by
  rw [← isExhausted_iff, Bool.not_eq_true]

/-- The log message about an operation that has ended with a response. -/
def finishedMessage (request : Request) (r : Response) : String :=
  "Operation at " ++ request.urlText ++ " finished: " ++ (OperationStatus.ofCode r.status).name

/-- How a call, counted from zero, is the last one: with the result and the world that the loop then
    comes to. The location is the one in force after the call. A response is handed on as the sender
    brought it, except for one whose location leads nowhere, which is let go. -/
inductive PollStop (plan : PollingPlan) (start k : Nat) (location : Option String) (c : Call) :
    SendResult → World → Prop
  | finished {r : Response} (answered : c.result = .ok r) (ended : ¬StillPending plan.codes r) :
      PollStop plan start k location c (.ok r)
        (c.back.write [.logged .debug (finishedMessage c.request r)])
  | cancelled (answered : c.result = .error .cancelled) :
      PollStop plan start k location c (.error .cancelled) c.back
  | failed {e : SendError} (answered : c.result = .error e)
      (spent : plan.budget.UsedUp (k + 1) (c.back.clock - start)) :
      PollStop plan start k location c (.error e) c.back
  | exhausted {r : Response} (answered : c.result = .ok r) (goes : StillPending plan.codes r)
      (spent : plan.budget.UsedUp (k + 1) (c.back.clock - start)) :
      PollStop plan start k location c
        (.error (.unexpectedStatus c.request.method c.request.urlText r.status r)) c.back
  | astray {r : Response} {text : String} {e : PrepareError} (answered : c.result = .ok r)
      (goes : StillPending plan.codes r)
      (left : ¬plan.budget.UsedUp (k + 1) (c.back.clock - start))
      (inForce : location = some text) (nowhere : c.request.follow text = .error e) :
      PollStop plan start k location c (.error (.prepare e))
        (c.back.write (r.closingEvents "Failed to close dropped response body"))

/-! ## From turns to calls -/

section Calls

variable {sender : Sender} {plan : PollingPlan} {firstDelay : Duration} {request : Request}
  {w : World}

theorem endsAt_iff (attempts millis : Nat) (e : SendError) :
    plan.endsAt attempts millis e = true ↔
      e = .cancelled ∨ plan.budget.UsedUp attempts millis := by
  unfold PollingPlan.endsAt
  rw [Bool.or_eq_true, isExhausted_iff]
  cases e <;> simp [SendError.isCancelled]

/-- The location in force after a response. -/
theorem Polling.Standing.location?_eq {location : Option String} {k : Nat} {p : Polling}
    (h : p.Standing request location k) (r : Response) :
    p.location? r = r.pollingLocation?.orElse fun _ => location := by
  unfold Polling.location?
  rw [h.location]

theorem Polling.requestAfter_eq_error {p : Polling} {r : Response} {e : PrepareError} :
    p.requestAfter r = .error e ↔
      ∃ text, p.location? r = some text ∧ p.request.follow text = .error e := by
  unfold Polling.requestAfter
  cases p.location? r <;> simp

/-- The message about the end of an operation tells its status. -/
theorem Polling.endMessage_eq {r : Response} (p : Polling)
    (h : r.requiresPolling plan.codes = false) :
    p.endMessage (p.progressAfter plan r) = finishedMessage p.request r := by
  have hstatus : (p.progressAfter plan r).status = OperationStatus.ofCode r.status := by
    show (if r.requiresPolling plan.codes then _ else _) = _
    rw [h, if_neg (by simp)]
  unfold Polling.endMessage finishedMessage
  rw [hstatus]

/-- A loop that stands before a call ends with it exactly if the call is the last one. -/
theorem pollAfter_inr_iff {location : Option String} {k : Nat} {p : Polling} {c : Call}
    (standing : p.Standing request location k) (asked : c.request = p.request) {start : Nat}
    {result : SendResult} {w' : World} :
    PollAfter plan start p c.back c.result (.inr result) w' ↔
      PollStop plan start k (c.location?.orElse fun _ => location) c result w' := by
  obtain ⟨request', sent, answer, back⟩ := c
  obtain rfl := asked
  have hcount := standing.attempts
  -- Each way in which a turn ends the loop is a way in which the call is the last one, and back.
  constructor
  · intro h
    cases h with
    | @failed e ends =>
      rw [hcount, endsAt_iff] at ends
      rcases ends with rfl | spent
      · exact .cancelled rfl
      · exact .failed rfl spent
    | finished ended =>
      rw [Polling.endEvents, standing.recorded, Polling.endMessage_eq p ended, List.nil_append]
      exact .finished rfl ((requiresPolling_eq_false_iff ..).1 ended)
    | exhausted requires ends =>
      rw [standing.recorded, World.write_nil]
      rw [hcount, isExhausted_iff] at ends
      exact .exhausted rfl ((requiresPolling_iff ..).1 requires) ends
    | astray requires goes nowhere =>
      rw [Polling.strayEvents, standing.recorded, List.nil_append]
      rw [hcount, isExhausted_eq_false_iff] at goes
      obtain ⟨text, hlocation, hfollow⟩ := Polling.requestAfter_eq_error.1 nowhere
      rw [standing.location?_eq] at hlocation
      exact .astray rfl ((requiresPolling_iff ..).1 requires) goes hlocation hfollow
  · intro h
    cases h with
    | finished answered ended =>
      obtain rfl : answer = _ := answered
      rw [← requiresPolling_eq_false_iff] at ended
      have h : PollAfter plan start p back (.ok _) _ _ := .finished ended
      rwa [Polling.endEvents, standing.recorded, Polling.endMessage_eq p ended,
        List.nil_append] at h
    | cancelled answered =>
      obtain rfl : answer = _ := answered
      exact .failed ((endsAt_iff ..).2 (.inl rfl))
    | failed answered spent =>
      obtain rfl : answer = _ := answered
      exact .failed ((endsAt_iff ..).2 (.inr (by rw [hcount]; exact spent)))
    | exhausted answered goes spent =>
      obtain rfl : answer = _ := answered
      have h : PollAfter plan start p back (.ok _) _ _ := .exhausted
        ((requiresPolling_iff ..).2 goes) (by rw [hcount]; exact (isExhausted_iff ..).2 spent)
      rwa [standing.recorded, World.write_nil] at h
    | @astray r text e answered goes left inForce nowhere =>
      obtain rfl : answer = _ := answered
      have hlocation : p.location? r = some text := (standing.location?_eq r).trans inForce
      have h : PollAfter plan start p back (.ok r) _ _ := .astray
        ((requiresPolling_iff ..).2 goes)
        (by rw [hcount]; exact (isExhausted_eq_false_iff ..).2 left)
        (Polling.requestAfter_eq_error.2 ⟨text, hlocation, nowhere⟩)
      rwa [Polling.strayEvents, standing.recorded, List.nil_append] at h

/-! ## The loop -/

/-- The calls of a loop that follow the one it stands before: the location in force is the one that
    this call or an earlier one has named. -/
theorem locationBefore_succ {calls : Nat → Option Call} {k : Nat} {c : Call}
    (h : calls k = some c) :
    locationBefore calls (k + 1) = c.location?.orElse fun _ => locationBefore calls k := by
  rw [locationBefore, h, Option.bind_some]

/-- A call that the loop makes is the last one, or there is a next wait and then a next call. -/
theorem pollCall_last_or_next {k : Nat} {c : Call}
    (h : pollCall sender plan firstDelay request w k = some c) :
    (∃ result w', PollStop plan w.clock k
      (locationBefore (pollCall sender plan firstDelay request w) (k + 1)) c result w') ∨
    ∃ p events,
      pollReach sender plan firstDelay request w (k + 1) = some (p, c.back.write events) := by
  rw [locationBefore_succ h]
  obtain ⟨p, v, hreach, hcall⟩ := pollCall_eq_some.1 h
  have asked := (Sender.callAfter_eq_some.1 hcall).2.1
  cases ha : p.after plan w.clock c.result c.back with
  | mk outcome w' =>
    have hafter := Polling.after_eq_iff.1 ha
    cases outcome with
    | inl q =>
      have hnext := pollReach_succ_eq_some.2 ⟨p, v, c, hreach, hcall, hafter⟩
      generalize c.result = answer at hafter
      cases hafter with
      | again => exact .inr ⟨_, _, hnext⟩
      | pending => exact .inr ⟨_, _, hnext⟩
    | inr result =>
      exact .inl ⟨result, w', (pollAfter_inr_iff (pollReach_standing hreach) asked).1 hafter⟩

/-- Every call before another one has been made as well and was not the last. -/
theorem pollReach_before {i k : Nat} (hik : i < k) {p : Polling} {v : World}
    (h : pollReach sender plan firstDelay request w k = some (p, v)) :
    ∃ b, pollCall sender plan firstDelay request w i = some b ∧ ∀ result w',
      ¬PollStop plan w.clock i
        (locationBefore (pollCall sender plan firstDelay request w) (i + 1)) b result w' := by
  induction k generalizing p v with
  | zero => omega
  | succ k ih =>
    obtain ⟨q, u, c, hreach, hcall, hafter⟩ := pollReach_succ_eq_some.1 h
    rcases Nat.lt_or_eq_of_le (Nat.le_of_lt_succ hik) with hlt | rfl
    · exact ih hlt hreach
    · have hc := pollCall_eq_some.2 ⟨q, u, hreach, hcall⟩
      refine ⟨c, hc, fun result w' hstop => ?_⟩
      rw [locationBefore_succ hc] at hstop
      have asked := (Sender.callAfter_eq_some.1 hcall).2.1
      have hlast := (pollAfter_inr_iff (pollReach_standing hreach) asked).2 hstop
      -- What follows from a call is determined by it.
      have heq := (Polling.after_eq_iff.2 hafter).symm.trans (Polling.after_eq_iff.2 hlast)
      exact absurd (Prod.mk.inj heq).1 (by simp)

theorem pollCall_before {i k : Nat} (hik : i < k) {d : Call}
    (h : pollCall sender plan firstDelay request w k = some d) :
    ∃ b, pollCall sender plan firstDelay request w i = some b ∧ ∀ result w',
      ¬PollStop plan w.clock i
        (locationBefore (pollCall sender plan firstDelay request w) (i + 1)) b result w' := by
  obtain ⟨p, v, hreach, -⟩ := pollCall_eq_some.1 h
  exact pollReach_before hik hreach

/-- The wait before a call was interrupted, and that was the end. -/
def PollInterrupted (sender : Sender) (plan : PollingPlan) (firstDelay : Duration)
    (request : Request) (w w' : World) : Prop :=
  ∃ k p v, pollReach sender plan firstDelay request w k = some (p, v) ∧
    pause p.delay p.request.cancellable v = (.cancelled, w')

/-- The loop comes to what a last call brings, or a wait is interrupted. -/
theorem poll_eq_some_iff_stop {result : SendResult} {w' : World} :
    poll sender plan firstDelay request w = some (result, w') ↔
      (∃ k c, pollCall sender plan firstDelay request w k = some c ∧ PollStop plan w.clock k
        (locationBefore (pollCall sender plan firstDelay request w) (k + 1)) c result w') ∨
      PollInterrupted sender plan firstDelay request w w' ∧ result = .error .cancelled := by
  rw [poll_eq_some_iff, Or.comm]
  refine or_congr ⟨?_, ?_⟩ ⟨?_, ?_⟩
  · rintro ⟨k, p, v, c, hreach, hcall, hafter⟩
    have hc := pollCall_eq_some.2 ⟨p, v, hreach, hcall⟩
    refine ⟨k, c, hc, ?_⟩
    rw [locationBefore_succ hc]
    exact (pollAfter_inr_iff (pollReach_standing hreach)
      (Sender.callAfter_eq_some.1 hcall).2.1).1 hafter
  · rintro ⟨k, c, hc, hstop⟩
    rw [locationBefore_succ hc] at hstop
    obtain ⟨p, v, hreach, hcall⟩ := pollCall_eq_some.1 hc
    exact ⟨k, p, v, c, hreach, hcall, (pollAfter_inr_iff (pollReach_standing hreach)
      (Sender.callAfter_eq_some.1 hcall).2.1).2 hstop⟩
  · rintro ⟨k, p, v, hreach, hwait, rfl⟩
    exact ⟨⟨k, p, v, hreach, hwait⟩, rfl⟩
  · rintro ⟨⟨k, p, v, hreach, hwait⟩, rfl⟩
    exact ⟨k, p, v, hreach, hwait, rfl⟩

/-- A loop that comes to nothing, though its sender always comes back, makes one call after
    another. -/
theorem pollCall_of_poll_eq_none (returns : ∀ next v, (sender next v).isSome = true)
    (h : poll sender plan firstDelay request w = none) (k : Nat) :
    ∃ c, pollCall sender plan firstDelay request w k = some c ∧ ∀ result w',
      ¬PollStop plan w.clock k
        (locationBefore (pollCall sender plan firstDelay request w) (k + 1)) c result w' := by
  have hrun : ∀ r, poll sender plan firstDelay request w ≠ some r := by
    intro r hr
    rw [h] at hr
    exact absurd hr (by simp)
  have hcall : ∀ j p v, pollReach sender plan firstDelay request w j = some (p, v) →
      ∃ c, pollCall sender plan firstDelay request w j = some c := by
    intro j p v hreach
    cases hp : pause p.delay p.request.cancellable v with
    | mk outcome u =>
      cases outcome with
      | cancelled =>
        exact absurd (poll_eq_some_iff_stop.2 (.inr ⟨⟨j, p, v, hreach, hp⟩, rfl⟩)) (hrun _)
      | finished =>
        obtain ⟨⟨result, back⟩, called⟩ := Option.isSome_iff_exists.1 (returns p.request u)
        exact ⟨⟨p.request, u, result, back⟩, pollCall_eq_some.2
          ⟨p, v, hreach, Sender.callAfter_eq_some.2 ⟨hp, rfl, called⟩⟩⟩
  -- A state that is reached leads to a call, and a call that is not the last one to the next state.
  have hreach : ∀ j, ∃ p v, pollReach sender plan firstDelay request w j = some (p, v) := by
    intro j
    induction j with
    | zero => exact ⟨_, _, rfl⟩
    | succ j ih =>
      obtain ⟨p, v, hj⟩ := ih
      obtain ⟨c, hc⟩ := hcall j p v hj
      rcases pollCall_last_or_next hc with ⟨result, w', hstop⟩ | hnext
      · exact absurd (poll_eq_some_iff_stop.2 (.inl ⟨j, c, hc, hstop⟩)) (hrun _)
      · obtain ⟨q, events, hnext⟩ := hnext
        exact ⟨q, _, hnext⟩
  obtain ⟨p, v, hnext⟩ := hreach (k + 1)
  exact pollReach_before (Nat.lt_succ_self k) hnext

/-- A call beyond which the budget is used up is the last one. -/
theorem pollStop_of_usedUp {start k : Nat} {location : Option String} {c : Call}
    (spent : plan.budget.UsedUp (k + 1) (c.back.clock - start)) :
    ∃ result w', PollStop plan start k location c result w' := by
  cases hr : c.result with
  | error e => exact ⟨_, _, .failed hr spent⟩
  | ok r =>
    by_cases hp : StillPending plan.codes r
    · exact ⟨_, _, .exhausted hr hp spent⟩
    · exact ⟨_, _, .finished hr hp⟩

/-- **The outcome of polling.** Calls are counted from zero. The first one follows the first wait;
    all are for the same request but for its URL. A call is made only if all before it have been
    made and none of them was the last; one that is not the last is followed by entries of the
    journal, a wait and a next call, and the last one by none. The loop comes to what its last call
    brings, as `PollStop` tells, unless a wait is interrupted, which comes to a cancellation. So a
    response that the loop comes to says that its operation is over. If the sender always comes
    back, the loop can only fail to come to something by making calls for ever of which none is the
    last; no number of calls allows that. -/
theorem poll_outcome (sender : Sender) (plan : PollingPlan) (firstDelay : Duration)
    (request : Request) (w : World) :
    let call := pollCall sender plan firstDelay request w
    let stop k := PollStop plan w.clock k (locationBefore call (k + 1))
    let polled := poll sender plan firstDelay request w
    call 0 = sender.callAfter firstDelay request w ∧
    (∀ k c, call k = some c → c.request = { request with url := c.request.url } ∧
      ∀ i < k, ∃ b, call i = some b ∧ ∀ result w', ¬stop i b result w') ∧
    (∀ k c, call k = some c → (∃ result w', stop k c result w') ∨
      ∃ delay next events, next = { request with url := next.url } ∧
        call (k + 1) = sender.callAfter delay next (c.back.write events)) ∧
    (∀ k c result w', call k = some c → stop k c result w' → ∀ j, k < j → call j = none) ∧
    (∀ result w', polled = some (result, w') ↔
      (∃ k c, call k = some c ∧ stop k c result w') ∨
      PollInterrupted sender plan firstDelay request w w' ∧ result = .error .cancelled) ∧
    (∀ r w', polled = some (.ok r, w') → ¬StillPending plan.codes r) ∧
    ((∀ next v, (sender next v).isSome = true) → polled = none →
      (∀ k, ∃ c, call k = some c ∧ ∀ result w', ¬stop k c result w') ∧
      ∀ n, plan.budget ≠ .attempts n) ∧
    (∀ delay n codes, pollForAttempts sender request delay n codes =
      poll sender ⟨delay, .attempts (max n 1), codes⟩ delay request) ∧
    (∀ delay span codes, pollForDuration sender request delay span codes =
      poll sender ⟨delay, .duration span, codes⟩ delay request) := by
  refine ⟨rfl, ?_, ?_, ?_, ?_, ?_, ?_, fun _ _ _ => rfl, fun _ _ _ => rfl⟩
  · intro k c hc
    exact ⟨pollCall_request hc, fun i hik => pollCall_before hik hc⟩
  · intro k c hc
    rcases pollCall_last_or_next hc with hstop | ⟨p, events, hreach⟩
    · exact .inl hstop
    · refine .inr ⟨p.delay, p.request, events, (pollReach_standing hreach).request, ?_⟩
      unfold pollCall
      rw [hreach, Option.bind_some]
  · intro k c result w' hc hstop j hkj
    refine Option.eq_none_iff_forall_ne_some.2 fun d hd => ?_
    obtain ⟨b, hb, hgoes⟩ := pollCall_before hkj hd
    obtain rfl : c = b := Option.some.inj (hc.symm.trans hb)
    exact hgoes result w' hstop
  · intro result w'
    exact poll_eq_some_iff_stop
  · intro r w' hrun
    rcases poll_eq_some_iff_stop.1 hrun with ⟨k, c, -, hstop⟩ | ⟨-, hresult⟩
    · cases hstop with
      | finished answered ended => exact ended
    · exact absurd hresult (by simp)
  · intro returns hnone
    have hall := pollCall_of_poll_eq_none returns hnone
    refine ⟨hall, fun n hbudget => ?_⟩
    obtain ⟨c, -, hgoes⟩ := hall n
    have spent : plan.budget.UsedUp (n + 1) (c.back.clock - w.clock) := by
      rw [hbudget]
      exact Nat.le_succ n
    obtain ⟨result, w', hstop⟩ := pollStop_of_usedUp spent
    exact hgoes result w' hstop

end Calls

end Courier
