import Courier.Proofs.Polling.Outcome
import Mathlib.Order.Monotone.Basic

set_option autoImplicit false

/-! # How long polls go on

A loop of polls within a span looks at the clock after each poll. A wait that has begun is never cut
short by the budget, and it is the service that says how long it is. So the span bounds the moment
in which the last wait begins, and not the moment in which it ends. -/

namespace Courier

/-! ## Waits -/

/-- The wait before a call: the one that the last response before it has called for, if there has
    been a response. -/
def waitBefore (usual first : Duration) (calls : Nat → Option Call) : Nat → Duration
  | 0 => first
  | k + 1 =>
    match (calls k).bind fun c => c.result.toOption with
    | some r => r.pollingDelay usual
    | none => waitBefore usual first calls k

/-- If no response calls for a longer wait than the usual one, there is none. -/
theorem ceilMillis_waitBefore_le {usual : Duration} {calls : Nat → Option Call}
    (h : ∀ k c r, calls k = some c → c.result = .ok r →
      (r.pollingDelay usual).ceilMillis ≤ usual.ceilMillis) (k : Nat) :
    (waitBefore usual usual calls k).ceilMillis ≤ usual.ceilMillis := by
  induction k with
  | zero => exact Nat.le_refl _
  | succ k ih =>
    rw [waitBefore]
    split
    · rename_i r hr
      obtain ⟨c, hc, hanswer⟩ := Option.bind_eq_some_iff.1 hr
      refine h k c r hc ?_
      cases hresult : c.result with
      | error e => simp [hresult, Except.toOption] at hanswer
      | ok r' =>
        rw [hresult] at hanswer
        rw [Option.some.inj hanswer]
    · exact ih

/-! ## The clock of a loop -/

section Calls

variable {sender : Sender} {plan : PollingPlan} {firstDelay : Duration} {request : Request}
  {w : World}

/-- A loop stands before the wait that the responses so far have called for. -/
theorem pollReach_delay {k : Nat} {p : Polling} {v : World}
    (h : pollReach sender plan firstDelay request w k = some (p, v)) :
    p.delay = waitBefore plan.usualDelay firstDelay
      (pollCall sender plan firstDelay request w) k := by
  induction k generalizing p v with
  | zero =>
    obtain ⟨rfl, -⟩ := Prod.mk.inj (Option.some.inj h)
    rfl
  | succ k ih =>
    obtain ⟨q, u, c, hreach, hcall, hafter⟩ := pollReach_succ_eq_some.1 h
    rw [waitBefore, pollCall_eq_some.2 ⟨q, u, hreach, hcall⟩, Option.bind_some]
    generalize c.result = answer at hafter
    cases hafter with
    | again =>
      have hq : q.delay = _ := ih hreach
      exact hq
    | pending => rfl

/-- A loop goes on from a call in the moment in which the call came back, and only if the budget was
    not used up by then. -/
theorem pollReach_succ_clock {k : Nat} {p : Polling} {v : World}
    (h : pollReach sender plan firstDelay request w (k + 1) = some (p, v)) :
    ∃ c, pollCall sender plan firstDelay request w k = some c ∧ v.clock = c.back.clock ∧
      ¬plan.budget.UsedUp (k + 1) (v.clock - w.clock) := by
  obtain ⟨q, u, c, hreach, hcall, hafter⟩ := pollReach_succ_eq_some.1 h
  refine ⟨c, pollCall_eq_some.2 ⟨q, u, hreach, hcall⟩, ?_⟩
  have hcount := (pollReach_standing hreach).attempts
  generalize c.result = answer at hafter
  cases hafter with
  | again goes =>
    refine ⟨rfl, fun spent => ?_⟩
    rw [hcount, Bool.eq_false_iff] at goes
    exact goes ((endsAt_iff ..).2 (.inr spent))
  | pending requires goes leads =>
    rw [hcount, isExhausted_eq_false_iff] at goes
    exact ⟨rfl, goes⟩

/-- A call that is the last one ends the loop in the moment in which it comes back. -/
theorem PollStop.clock {start k : Nat} {location : Option String} {c : Call} {result : SendResult}
    {w' : World} (h : PollStop plan start k location c result w') : w'.clock = c.back.clock := by
  cases h <;> rfl

end Calls

/-! ## Senders that answer at once -/

/-- A sender that always comes back, and in the millisecond in which it was called. -/
def Sender.AnswersAtOnce (sender : Sender) : Prop :=
  ∀ request w, ∃ result w', sender request w = some (result, w') ∧ w'.clock = w.clock

section AtOnce

variable {sender : Sender} {plan : PollingPlan} {firstDelay : Duration} {request : Request}
  {w : World}

/-- A call comes back when the wait before it is over. -/
theorem Sender.AnswersAtOnce.callAfter (h : sender.AnswersAtOnce) {delay : Duration} {v : World}
    {c : Call} (hc : sender.callAfter delay request v = some c) :
    c.back.clock = (v.wait delay).clock := by
  obtain ⟨waited, -, called⟩ := Sender.callAfter_eq_some.1 hc
  obtain ⟨result, w', answered, hclock⟩ := h request c.sent
  rw [called] at answered
  obtain ⟨-, rfl⟩ := Prod.mk.inj (Option.some.inj answered)
  rw [hclock, pause_finished waited]

/-- The time between two calls is that of the wait between them. -/
theorem Sender.AnswersAtOnce.clock_succ (h : sender.AnswersAtOnce) {k : Nat} {c d : Call}
    (hc : pollCall sender plan firstDelay request w k = some c)
    (hd : pollCall sender plan firstDelay request w (k + 1) = some d) :
    ∃ timer : Timer, d.back.clock = c.back.clock + timer.millis c.back.clock (waitBefore
      plan.usualDelay firstDelay (pollCall sender plan firstDelay request w) (k + 1)) := by
  obtain ⟨p, v, hreach, hcall⟩ := pollCall_eq_some.1 hd
  obtain ⟨c', hc', hclock, -⟩ := pollReach_succ_clock hreach
  obtain rfl : c = c' := Option.some.inj (hc.symm.trans hc')
  refine ⟨v.timer, ?_⟩
  rw [h.callAfter hcall, ← hclock, ← pollReach_delay hreach]
  rfl

/-- A time that never goes back and never passes a bound stands still in the end. -/
theorem exists_forall_succ_eq (time : Nat → Nat) (bound : Nat) (hmono : Monotone time)
    (h : ∀ k, time k < bound) : ∃ n, ∀ k, n ≤ k → time (k + 1) = time k := by
  by_contra hnone
  -- As long as it goes on it passes every moment.
  have hall : ∀ m, ∃ k, m ≤ time k := by
    intro m
    induction m with
    | zero => exact ⟨0, Nat.zero_le _⟩
    | succ m ih =>
      obtain ⟨k, hk⟩ := ih
      by_contra hlast
      refine hnone ⟨k, fun j hj => ?_⟩
      have hle := hmono hj
      have hsucc : time j ≤ time (j + 1) := hmono (Nat.le_succ j)
      have hnot : ¬m + 1 ≤ time (j + 1) := fun hle => hlast ⟨j + 1, hle⟩
      omega
  obtain ⟨k, hk⟩ := hall bound
  exact absurd (h k) (Nat.not_lt.2 hk)

/-- Every wait begins before the span is over, except for a first one. -/
theorem pollReach_clock_le {span : Duration} (hspan : plan.budget = .duration span) {k : Nat}
    {p : Polling} {v : World} (h : pollReach sender plan firstDelay request w k = some (p, v)) :
    v.clock * 1000000 ≤ w.clock * 1000000 + span.nanos := by
  cases k with
  | zero =>
    obtain ⟨-, rfl⟩ := Prod.mk.inj (Option.some.inj h)
    exact Nat.le_add_right _ _
  | succ k =>
    obtain ⟨c, -, -, hleft⟩ := pollReach_succ_clock h
    rw [hspan] at hleft
    simp only [Budget.UsedUp] at hleft
    omega

/-- An interrupted wait is the last one. -/
theorem pollCall_eq_none_of_interrupted {k : Nat} {p : Polling} {v v' : World}
    (hreach : pollReach sender plan firstDelay request w k = some (p, v))
    (hwait : pause p.delay p.request.cancellable v = (.cancelled, v')) :
    pollCall sender plan firstDelay request w k = none := by
  refine Option.eq_none_iff_forall_ne_some.2 fun c hc => ?_
  obtain ⟨q, u, hreach', hcall⟩ := pollCall_eq_some.1 hc
  obtain ⟨rfl, rfl⟩ := Prod.mk.inj (Option.some.inj (hreach.symm.trans hreach'))
  rw [(Sender.callAfter_eq_some.1 hcall).1] at hwait
  exact absurd (Prod.mk.inj hwait).1 (by simp)

/-- What a loop comes to, it comes to when its last wait is over or interrupted. -/
theorem Sender.AnswersAtOnce.poll_clock (h : sender.AnswersAtOnce) {result : SendResult}
    {w' : World} (hrun : poll sender plan firstDelay request w = some (result, w')) :
    ∃ k p v, pollReach sender plan firstDelay request w k = some (p, v) ∧
      (∀ i, k < i → pollCall sender plan firstDelay request w i = none) ∧
      w'.clock ≤ v.clock + p.delay.ceilMillis := by
  rcases poll_eq_some_iff_stop.1 hrun with ⟨k, c, hc, hstop⟩ | ⟨⟨k, p, v, hreach, hwait⟩, -⟩
  · obtain ⟨p, v, hreach, hcall⟩ := pollCall_eq_some.1 hc
    refine ⟨k, p, v, hreach, fun i hki => ?_, ?_⟩
    · refine Option.eq_none_iff_forall_ne_some.2 fun d hd => ?_
      obtain ⟨b, hb, hgoes⟩ := pollCall_before hki hd
      obtain rfl : c = b := Option.some.inj (hc.symm.trans hb)
      exact hgoes result w' hstop
    · rw [hstop.clock, h.callAfter hcall]
      exact (v.wait_clock p.delay).2.1
  · refine ⟨k, p, v, hreach, fun i hki => ?_, ?_⟩
    · refine Option.eq_none_iff_forall_ne_some.2 fun d hd => ?_
      obtain ⟨b, hb, -⟩ := pollCall_before hki hd
      rw [pollCall_eq_none_of_interrupted hreach hwait] at hb
      exact absurd hb (by simp)
    · have hle := pause_clock_le p.delay p.request.cancellable v
      rw [hwait] at hle
      exact Nat.le_trans hle (v.wait_clock p.delay).2.1

/-- A loop that comes to nothing goes on within its span, and in the end without waiting. -/
theorem Sender.AnswersAtOnce.poll_endless (h : sender.AnswersAtOnce) {span : Duration}
    (hspan : plan.budget = .duration span)
    (hrun : poll sender plan firstDelay request w = none) :
    let call := pollCall sender plan firstDelay request w
    (∀ k, ∃ c, call k = some c ∧
      c.back.clock * 1000000 < w.clock * 1000000 + span.nanos) ∧
    ∃ n, ∀ k, n ≤ k → waitBefore plan.usualDelay firstDelay call k = .zero := by
  intro call
  have returns : ∀ next v, (sender next v).isSome = true := by
    intro next v
    obtain ⟨result, w', answered, -⟩ := h next v
    exact Option.isSome_iff_exists.2 ⟨_, answered⟩
  have hall := pollCall_of_poll_eq_none returns hrun
  have hbound : ∀ k c, call k = some c →
      c.back.clock * 1000000 < w.clock * 1000000 + span.nanos := by
    intro k c hc
    obtain ⟨c', hc', hgoes⟩ := hall k
    obtain rfl : c = c' := Option.some.inj (hc.symm.trans hc')
    refine Nat.lt_of_not_le fun hle => ?_
    have spent : plan.budget.UsedUp (k + 1) (c.back.clock - w.clock) := by
      rw [hspan]
      simp only [Budget.UsedUp]
      omega
    obtain ⟨result, w', hstop⟩ := pollStop_of_usedUp spent
    exact hgoes result w' hstop
  refine ⟨fun k => ?_, ?_⟩
  · obtain ⟨c, hc, -⟩ := hall k
    exact ⟨c, hc, hbound k c hc⟩
  · choose calls hcalls _ using hall
    have hstep := fun k => h.clock_succ (hcalls k) (hcalls (k + 1))
    have hmono : Monotone fun k => (calls k).back.clock := monotone_nat_of_le_succ fun k => by
      obtain ⟨timer, hnext⟩ := hstep k
      exact hnext ▸ Nat.le_add_right _ _
    obtain ⟨n, hn⟩ := exists_forall_succ_eq _ (w.clock + span.nanos) hmono fun k => by
      have hlt := hbound k _ (hcalls k)
      omega
    refine ⟨n + 1, fun k hk => ?_⟩
    obtain ⟨i, rfl⟩ : ∃ i, k = i + 1 := ⟨k - 1, by omega⟩
    obtain ⟨timer, hnext⟩ := hstep i
    have hstill : (calls (i + 1)).back.clock = (calls i).back.clock := hn i (by omega)
    exact (timer.millis_eq_zero _).1 (Nat.left_eq_add.1 (hstill.symm.trans hnext))

/-- **How long polls within a span go on.** When the loop comes to something, no more than the span
    and the last wait have passed, and the last wait is the one that the last response before it has
    called for, or the usual one. So no more than the span and the usual wait have passed if no
    response calls for a longer one. The loop comes to something unless from some poll on every wait
    is for no time at all; then it goes on for ever, and the span is never over. -/
theorem pollForDuration_clock (atOnce : sender.AnswersAtOnce) (request : Request)
    (delay span : Duration) (codes : List Status) (w : World) :
    let call := pollCall sender ⟨delay, .duration span, codes⟩ delay request w
    let wait := waitBefore delay delay call
    let polled := pollForDuration sender request delay span codes w
    (∀ result w', polled = some (result, w') →
      ∃ k, (∀ i < k, ∃ c, call i = some c) ∧ (∀ i, k < i → call i = none) ∧
        w'.clock * 1000000 ≤
          w.clock * 1000000 + span.nanos + (wait k).ceilMillis * 1000000) ∧
    ((∀ k c r, call k = some c → c.result = .ok r →
        (r.pollingDelay delay).ceilMillis ≤ delay.ceilMillis) →
      ∀ result w', polled = some (result, w') →
        w'.clock * 1000000 ≤ w.clock * 1000000 + span.nanos + delay.ceilMillis * 1000000) ∧
    (polled = none →
      (∀ k, ∃ c, call k = some c ∧
        c.back.clock * 1000000 < w.clock * 1000000 + span.nanos) ∧
      ∃ n, ∀ k, n ≤ k → wait k = .zero) := by
  intro call wait polled
  have hlast : ∀ result w', polled = some (result, w') →
      ∃ k, (∀ i < k, ∃ c, call i = some c) ∧ (∀ i, k < i → call i = none) ∧
        w'.clock * 1000000 ≤
          w.clock * 1000000 + span.nanos + (wait k).ceilMillis * 1000000 := by
    intro result w' hrun
    obtain ⟨k, p, v, hreach, hnone, hclock⟩ := atOnce.poll_clock hrun
    refine ⟨k, fun i hik => ?_, hnone, ?_⟩
    · obtain ⟨c, hc, -⟩ := pollReach_before hik hreach
      exact ⟨c, hc⟩
    · have hbegun := pollReach_clock_le rfl hreach
      rw [pollReach_delay hreach] at hclock
      calc w'.clock * 1000000
          ≤ (v.clock + (wait k).ceilMillis) * 1000000 := Nat.mul_le_mul_right _ hclock
        _ = v.clock * 1000000 + (wait k).ceilMillis * 1000000 := Nat.add_mul ..
        _ ≤ w.clock * 1000000 + span.nanos + (wait k).ceilMillis * 1000000 :=
          Nat.add_le_add_right hbegun _
  refine ⟨hlast, fun hshort result w' hrun => ?_, atOnce.poll_endless rfl⟩
  obtain ⟨k, -, -, hclock⟩ := hlast result w' hrun
  have hwait : (wait k).ceilMillis ≤ delay.ceilMillis := ceilMillis_waitBefore_le hshort k
  exact Nat.le_trans hclock (Nat.add_le_add_left (Nat.mul_le_mul_right _ hwait) _)

end AtOnce

/-! ## A service that asks for patience -/

/-- A service whose operation goes on, and that asks for a thousand seconds between two polls. -/
def unhurried : Sender := fun _ w =>
  some (.ok ⟨⟨202⟩, [(⟨HeaderName.retryAfter⟩, ⟨Utf8.encode "1000"⟩)], none⟩, w)

theorem unhurried_answersAtOnce : unhurried.AnswersAtOnce := fun _ w => ⟨_, w, rfl, rfl⟩

/-- The request of polls of that service. -/
def unhurriedRequest : Request :=
  Request.get ⟨"http", some ⟨"", "", "h", none⟩, .rooted ["a"], false, none, none⟩

/-- Polls of that service, one second apart, for five seconds, come to something after a thousand
    and one seconds. -/
theorem unhurried_clock : ∃ result w',
    pollForDuration unhurried unhurriedRequest (.ofSeconds 1) (.ofSeconds 5) [] World.quiet =
      some (result, w') ∧ w'.clock = 1001000 := by
  have hcall : ∃ c, pollCall unhurried ⟨.ofSeconds 1, .duration (.ofSeconds 5), []⟩ (.ofSeconds 1)
      unhurriedRequest World.quiet 1 = some c ∧ c.back.clock = 1001000 :=
    ⟨_, rfl, by decide +kernel⟩
  obtain ⟨c, hc, hclock⟩ := hcall
  have spent : (PollingPlan.budget ⟨.ofSeconds 1, .duration (.ofSeconds 5), []⟩).UsedUp 2
      (c.back.clock - World.quiet.clock) := by
    rw [hclock]
    exact (isExhausted_iff ..).1 (by decide)
  obtain ⟨result, w', hstop⟩ := pollStop_of_usedUp spent
  exact ⟨result, w', poll_eq_some_iff_stop.2 (.inl ⟨1, c, hc, hstop⟩), hstop.clock.trans hclock⟩

/-- The last wait of those polls makes up for all but five seconds. -/
theorem pollForDuration_clock_unhurried : unhurried.AnswersAtOnce ∧ ∃ result w' k,
    pollForDuration unhurried unhurriedRequest (.ofSeconds 1) (.ofSeconds 5) [] World.quiet =
      some (result, w') ∧ w'.clock = 1001000 ∧
    w'.clock * 1000000 ≤ 5000000000 + (waitBefore (.ofSeconds 1) (.ofSeconds 1)
      (pollCall unhurried ⟨.ofSeconds 1, .duration (.ofSeconds 5), []⟩ (.ofSeconds 1)
        unhurriedRequest World.quiet) k).ceilMillis * 1000000 := by
  obtain ⟨result, w', hrun, hclock⟩ := unhurried_clock
  obtain ⟨k, -, -, hle⟩ := (pollForDuration_clock unhurried_answersAtOnce unhurriedRequest
    (.ofSeconds 1) (.ofSeconds 5) [] World.quiet).1 result w' hrun
  exact ⟨unhurried_answersAtOnce, result, w', k, hrun, hclock, hle⟩

/-- It is not so that the span and the usual wait bound the time that passes. -/
theorem not_pollForDuration_clock_usual : ¬∀ (sender : Sender) (request : Request)
    (delay span : Duration) (codes : List Status) (w : World),
    sender.AnswersAtOnce → 0 < delay.nanos →
      ∃ result w', pollForDuration sender request delay span codes w = some (result, w') ∧
        w'.clock * 1000000 ≤
          w.clock * 1000000 + span.nanos + delay.ceilMillis * 1000000 := by
  intro h
  obtain ⟨result, w', hrun, hle⟩ := h unhurried unhurriedRequest (.ofSeconds 1) (.ofSeconds 5) []
    World.quiet unhurried_answersAtOnce (by decide)
  obtain ⟨result', v, hrun', hclock⟩ := unhurried_clock
  rw [hrun'] at hrun
  obtain ⟨-, rfl⟩ := Prod.mk.inj (Option.some.inj hrun)
  rw [hclock] at hle
  exact absurd hle (by decide)

end Courier
