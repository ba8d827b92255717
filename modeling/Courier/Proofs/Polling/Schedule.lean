import Courier.Proofs.Exchange.Stages
import Courier.Proofs.Polling.Span

set_option autoImplicit false

/-! # When polls are sent

Every poll is sent when a wait is over that has begun as soon as the poll before it came back. The
wait is what the loop keeps from poll to poll: the first one at first, and from the first response
on the one that the most recent response has called for; a poll that brings no response leaves it as
it is. The service names a wait in whole seconds of 64 bits. One that should be over within `2 ^ 63`
milliseconds is kept; a longer one may be over sooner, see `Timer`.

The main statement is `polls_scheduled`. -/

namespace Courier

/-! ## Waits that are due -/

/-- The wait that a response calls for: the seconds that its header names, if that is a whole number
    of 64 bits between blanks, and else the usual wait. -/
inductive Response.CallsFor (r : Response) (usual : Duration) : Duration → Prop
  | named {text : String} {n : Nat} (header : r.header? "retry-after" = some text)
      (number : readUnsigned64? (Blank.trim text) = some n) :
      Response.CallsFor r usual (.ofSeconds n)
  | unnamed (none : ∀ text, r.header? "retry-after" = some text →
      readUnsigned64? (Blank.trim text) = none) : Response.CallsFor r usual usual

theorem Response.callsFor_pollingDelay (r : Response) (usual : Duration) :
    r.CallsFor usual (r.pollingDelay usual) := by
  unfold Response.pollingDelay Response.retryAfter? HeaderName.retryAfter parseSeconds?
  cases hheader : r.header? "retry-after" with
  | none => exact .unnamed fun text htext => absurd (hheader.symm.trans htext) (by simp)
  | some text =>
    rw [Option.bind_some]
    cases hnumber : readUnsigned64? (Blank.trim text) with
    | some n => exact .named hheader hnumber
    | none =>
      refine .unnamed fun other hother => ?_
      obtain rfl : text = other := Option.some.inj (hheader.symm.trans hother)
      exact hnumber

/-- A response calls for one wait. -/
theorem Response.CallsFor.eq {r : Response} {usual d : Duration} (h : r.CallsFor usual d) :
    d = r.pollingDelay usual := by
  unfold Response.pollingDelay Response.retryAfter? HeaderName.retryAfter parseSeconds?
  cases h with
  | named header number =>
    rw [header, Option.bind_some, number]
    rfl
  | unnamed none =>
    cases hheader : r.header? "retry-after" with
    | none => rfl
    | some text =>
      rw [Option.bind_some, none text hheader]
      rfl

/-- Whether a call has been made and has brought no response. -/
def FailedCall (calls : Nat → Option Call) (i : Nat) : Prop :=
  ∃ c e, calls i = some c ∧ c.result = .error e

/-- The wait that is due before a poll, counted from zero: the first one, if no poll before has
    brought a response, or else the one that the most recent response calls for, which says that its
    operation goes on. -/
inductive DueWait (plan : PollingPlan) (first : Duration) (calls : Nat → Option Call) (k : Nat) :
    Duration → Prop
  | first (failed : ∀ i < k, FailedCall calls i) : DueWait plan first calls k first
  | called {j : Nat} {c : Call} {r : Response} {d : Duration} (before : j < k)
      (call : calls j = some c) (answered : c.result = .ok r) (goes : StillPending plan.codes r)
      (wait : r.CallsFor plan.usualDelay d) (failed : ∀ i, j < i → i < k → FailedCall calls i) :
      DueWait plan first calls k d

/-- A poll that fails leaves the wait as it is. -/
theorem DueWait.succ {plan : PollingPlan} {first d : Duration} {calls : Nat → Option Call} {k : Nat}
    (h : DueWait plan first calls k d) (hk : FailedCall calls k) :
    DueWait plan first calls (k + 1) d := by
  cases h with
  | first failed =>
    refine .first fun i hi => ?_
    rcases Nat.lt_or_eq_of_le (Nat.le_of_lt_succ hi) with hlt | rfl
    · exact failed i hlt
    · exact hk
  | called before call answered goes wait failed =>
    refine .called (Nat.lt_succ_of_lt before) call answered goes wait fun i hji hi => ?_
    rcases Nat.lt_or_eq_of_le (Nat.le_of_lt_succ hi) with hlt | rfl
    · exact failed i hji hlt
    · exact hk

/-- The moment from which the wait before a poll counts: the beginning, or when the poll before it
    came back. -/
def waitFrom (w : World) (calls : Nat → Option Call) : Nat → Option Nat
  | 0 => some w.clock
  | k + 1 => (calls k).map fun c => c.back.clock

/-! ## Polls that are sent -/

section Sent

variable (sender : Sender) (plan : PollingPlan) (first : Duration) (request : Request) (w : World)

/-- A poll, counted from zero, when it is sent: what is asked of the sender, and in which world. -/
def pollSent (k : Nat) : Option (Request × World) :=
  (pollReach sender plan first request w k).bind fun p =>
    match pause p.1.delay p.1.request.cancellable p.2 with
    | (.finished, v) => some (p.1.request, v)
    | (.cancelled, _) => none

variable {sender plan first request w}

theorem pollSent_eq_some {k : Nat} {q : Request} {v : World} :
    pollSent sender plan first request w k = some (q, v) ↔
      ∃ p u, pollReach sender plan first request w k = some (p, u) ∧ q = p.request ∧
        pause p.delay p.request.cancellable u = (.finished, v) := by
  unfold pollSent
  rw [Option.bind_eq_some_iff]
  constructor
  · rintro ⟨⟨p, u⟩, hreach, hsent⟩
    refine ⟨p, u, hreach, ?_⟩
    dsimp only at hsent
    cases hp : pause p.delay p.request.cancellable u with
    | mk outcome x =>
      rw [hp] at hsent
      cases outcome with
      | finished =>
        obtain ⟨rfl, rfl⟩ := Prod.mk.inj (Option.some.inj hsent)
        exact ⟨rfl, rfl⟩
      | cancelled => exact absurd hsent (by simp)
  · rintro ⟨p, u, hreach, rfl, hwait⟩
    exact ⟨(p, u), hreach, by rw [hwait]⟩

/-- A call of the sender is made for every poll that is sent. -/
theorem pollCall_eq_bind_sent (k : Nat) :
    pollCall sender plan first request w k =
      (pollSent sender plan first request w k).bind fun p => sender.call p.1 p.2 := by
  unfold pollCall pollSent
  cases pollReach sender plan first request w k with
  | none => rfl
  | some p =>
    simp only [Option.bind_some, Sender.callAfter]
    generalize pause p.1.delay p.1.request.cancellable p.2 = waited
    obtain ⟨outcome, v⟩ := waited
    cases outcome <;> rfl

/-- A loop that stands before a wait has it from the calls so far. -/
theorem pollReach_due {k : Nat} {p : Polling} {u : World}
    (h : pollReach sender plan first request w k = some (p, u)) :
    DueWait plan first (pollCall sender plan first request w) k p.delay := by
  induction k generalizing p u with
  | zero =>
    obtain ⟨rfl, -⟩ := Prod.mk.inj (Option.some.inj h)
    exact .first fun i hi => absurd hi (Nat.not_lt_zero i)
  | succ k ih =>
    obtain ⟨q, x, c, hreach, hcall, hafter⟩ := pollReach_succ_eq_some.1 h
    have hc := pollCall_eq_some.2 ⟨q, x, hreach, hcall⟩
    cases hresult : c.result with
    | error e =>
      rw [hresult] at hafter
      cases hafter with
      | again => exact (ih hreach).succ ⟨c, e, hc, hresult⟩
    | ok r =>
      rw [hresult] at hafter
      cases hafter with
      | pending requires =>
        exact .called (Nat.lt_succ_self k) hc hresult ((requiresPolling_iff ..).1 requires)
          (r.callsFor_pollingDelay plan.usualDelay) fun i hki hi => by omega

/-- A loop stands before a wait in the moment in which the poll before it came back. -/
theorem pollReach_waitFrom {k : Nat} {p : Polling} {u : World}
    (h : pollReach sender plan first request w k = some (p, u)) :
    waitFrom w (pollCall sender plan first request w) k = some u.clock := by
  cases k with
  | zero =>
    obtain ⟨-, rfl⟩ := Prod.mk.inj (Option.some.inj h)
    rfl
  | succ k =>
    obtain ⟨c, hc, hclock, -⟩ := pollReach_succ_clock h
    rw [waitFrom, hc, Option.map_some, hclock]

/-- A poll is sent when the wait that is due before it is over. -/
theorem pollSent_clock {k : Nat} {q : Request} {v : World}
    (h : pollSent sender plan first request w k = some (q, v)) :
    ∃ past delay, waitFrom w (pollCall sender plan first request w) k = some past ∧
      DueWait plan first (pollCall sender plan first request w) k delay ∧
      past ≤ v.clock ∧ v.clock ≤ past + delay.ceilMillis ∧
      (past + delay.ceilMillis ≤ Timer.reach → v.clock = past + delay.ceilMillis) := by
  obtain ⟨p, u, hreach, -, hwait⟩ := pollSent_eq_some.1 h
  refine ⟨u.clock, p.delay, pollReach_waitFrom hreach, pollReach_due hreach, ?_⟩
  rw [pause_finished hwait]
  exact u.wait_clock p.delay

/-- If nobody cancels, the first poll is sent, and another one after each that is not the last. -/
theorem pollSent_isSome {k : Nat} {p : Polling} {u : World}
    (h : pollReach sender plan first request w k = some (p, u))
    (live : p.request.cancellable = true → u.cancelAt = none) :
    (pollSent sender plan first request w k).isSome = true :=
  Option.isSome_iff_exists.2
    ⟨(p.request, u.wait p.delay), pollSent_eq_some.2 ⟨p, u, h, rfl, pause_finishes live⟩⟩

theorem pollSent_next {k : Nat} {c : Call}
    (hc : pollCall sender plan first request w k = some c)
    (goes : ∀ result w', ¬PollStop plan w.clock k
      (locationBefore (pollCall sender plan first request w) (k + 1)) c result w')
    (live : request.cancellable = true → c.back.cancelAt = none) :
    (pollSent sender plan first request w (k + 1)).isSome = true := by
  rcases pollCall_last_or_next hc with ⟨result, w', hstop⟩ | ⟨p, events, hreach⟩
  · exact absurd hstop (goes result w')
  · refine pollSent_isSome hreach fun hcancellable => live ?_
    rw [(pollReach_standing hreach).request] at hcancellable
    exact hcancellable

end Sent

/-! ## The clock -/

/-- A session that polls after a response begins at once, with the wait that the response calls
    for. -/
theorem Session.pollAsNeeded_begins (s : Session) (sender : Sender) {r : Response}
    (goes : s.shouldPoll r = true) (cancellable : Bool) (w : World) :
    (∃ e v, s.pollAsNeeded sender r cancellable w = some (.error e, v) ∧ w.Writes v) ∨
    ∃ first request v, s.pollAsNeeded sender r cancellable w =
        poll sender s.plan first request v ∧
      r.CallsFor s.pollingDelay first ∧ v.clock = w.clock := by
  have hpolled := s.pollAsNeeded_apply sender r cancellable w
  rw [if_pos goes] at hpolled
  have hwrites := s.preparePolling_onlyWrites cancellable r w
  cases hp : s.preparePolling cancellable r w with
  | mk outcome v =>
    rw [hp] at hpolled hwrites
    cases outcome with
    | error e => exact .inl ⟨e, v, hpolled, hwrites⟩
    | ok request =>
      obtain ⟨events, rfl, -⟩ := hwrites
      exact .inr ⟨_, request, _, hpolled, r.callsFor_pollingDelay s.pollingDelay, rfl⟩

/-- **The schedule of polls.** Polls are counted from zero, and the sender is called for each one
    that is sent. A poll is sent when the wait that is due before it is over since the poll before
    it came back, or since the beginning. If that should be within `2 ^ 63` milliseconds the wait
    has passed in full, in begun milliseconds; it has never taken longer. As long as nobody cancels
    the first poll is sent, and a next one after each that does not end the loop. Polls up to a
    number of times or within a span begin with their usual wait; polls of a session begin with the
    one that the accepted response calls for. -/
theorem polls_scheduled (sender : Sender) :
    (∀ plan first request w,
      let call := pollCall sender plan first request w
      let sent := pollSent sender plan first request w
      (∀ k, call k = (sent k).bind fun p => sender.call p.1 p.2) ∧
      (∀ k q v, sent k = some (q, v) → ∃ past delay, waitFrom w call k = some past ∧
        DueWait plan first call k delay ∧
        past ≤ v.clock ∧ v.clock ≤ past + delay.ceilMillis ∧
        (past + delay.ceilMillis ≤ 2 ^ 63 → v.clock = past + delay.ceilMillis)) ∧
      ((request.cancellable = true → w.cancelAt = none) → (sent 0).isSome = true) ∧
      (∀ k c, call k = some c →
        (∀ result w', ¬PollStop plan w.clock k (locationBefore call (k + 1)) c result w') →
        (request.cancellable = true → c.back.cancelAt = none) → (sent (k + 1)).isSome = true)) ∧
    (∀ request delay n codes, pollForAttempts sender request delay n codes =
      poll sender ⟨delay, .attempts (max n 1), codes⟩ delay request) ∧
    (∀ request delay span codes, pollForDuration sender request delay span codes =
      poll sender ⟨delay, .duration span, codes⟩ delay request) ∧
    ∀ (s : Session) r cancellable w,
      (s.shouldPoll r = false → s.pollAsNeeded sender r cancellable w = some (.ok r, w)) ∧
      (s.shouldPoll r = true →
        (∃ e v, s.pollAsNeeded sender r cancellable w = some (.error e, v) ∧ w.Writes v) ∨
        ∃ first request v, s.pollAsNeeded sender r cancellable w =
            poll sender s.plan first request v ∧
          r.CallsFor s.pollingDelay first ∧ v.clock = w.clock) := by
  refine ⟨fun plan first request w => ⟨pollCall_eq_bind_sent, fun _ _ _ => pollSent_clock, ?_, ?_⟩,
    fun _ _ _ _ => rfl, fun _ _ _ _ => rfl, fun s r cancellable w => ⟨fun done => ?_,
      fun goes => ?_⟩⟩
  · intro live
    exact pollSent_isSome (k := 0) rfl live
  · intro k c hc goes live
    exact pollSent_next hc goes live
  · rw [Session.pollAsNeeded_apply, if_neg (by simp [done])]
  · exact s.pollAsNeeded_begins sender goes cancellable w

/-! ## A service that asks for more than a timer can count -/

/-- A response that asks for the longest wait that there is. -/
def endlessWait : Response :=
  ⟨⟨202⟩, [(⟨HeaderName.retryAfter⟩, ⟨Utf8.encode "18446744073709551615"⟩)], none⟩

/-- A service that gives that response to every request. -/
def endlessService : Sender := fun _ w => some (.ok endlessWait, w)

/-- Polls of that service, after a first wait of one second. -/
def endlessPlan : PollingPlan := ⟨.ofSeconds 1, .attempts 2, []⟩

/-- The first call of those polls brings that response in the second in which it was sent. -/
theorem endless_call : ∃ c,
    pollCall endlessService endlessPlan (.ofSeconds 1) Request.empty World.quiet 0 = some c ∧
      c.result = .ok endlessWait ∧ c.back.clock = 1000 :=
  ⟨_, rfl, rfl, by decide +kernel⟩

/-- It is not so that every poll is sent when the wait that is due before it has passed in begun
    milliseconds. -/
theorem not_polls_scheduled_to_the_millisecond : ¬∀ (sender : Sender) (plan : PollingPlan)
    (first : Duration) (request : Request) (w : World) (k : Nat) (q : Request) (v : World),
    pollSent sender plan first request w k = some (q, v) →
      ∃ past delay, waitFrom w (pollCall sender plan first request w) k = some past ∧
        DueWait plan first (pollCall sender plan first request w) k delay ∧
        v.clock = past + delay.ceilMillis := by
  intro h
  obtain ⟨c, hc, hanswer, hclock⟩ := endless_call
  obtain ⟨q, v, hsent, hlate⟩ : ∃ q v, pollSent endlessService endlessPlan (.ofSeconds 1)
      Request.empty World.quiet 1 = some (q, v) ∧ v.clock = 946080001000 :=
    ⟨_, _, rfl, by decide +kernel⟩
  obtain ⟨past, delay, hpast, hdue, hexact⟩ := h _ _ _ _ _ 1 q v hsent
  rw [waitFrom, hc, Option.map_some, hclock] at hpast
  -- The one response before the second poll decides which wait is due.
  have hdelay : delay = .ofSeconds 18446744073709551615 := by
    cases hdue with
    | first failed =>
      obtain ⟨c', e, hc', herror⟩ := failed 0 Nat.zero_lt_one
      obtain rfl : c = c' := Option.some.inj (hc.symm.trans hc')
      exact absurd (hanswer.symm.trans herror) (by simp)
    | @called j c' r _ before call answered _ wait =>
      obtain rfl : j = 0 := Nat.lt_one_iff.1 before
      obtain rfl : c = c' := Option.some.inj (hc.symm.trans call)
      obtain rfl : endlessWait = r := Except.ok.inj (hanswer.symm.trans answered)
      rw [wait.eq]
      decide +kernel
  rw [hlate, ← Option.some.inj hpast, hdelay] at hexact
  exact absurd hexact (by decide +kernel)

end Courier
