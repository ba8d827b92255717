import Courier.Proofs.Bodies.Runs
import Mathlib.Data.List.Induction

set_option autoImplicit false

/-! # Every reader is closed once

What the books say of a call that has come to something: at no moment had a reader been closed
twice, whenever a request went out all readers of earlier replies had been closed, at no moment were
two readers open, and in the end, when the result has been dropped, every reader has been closed
once. -/

namespace Courier

variable {start w : World}

/-! ## Reading the books -/

/-- What is said of the readers that were handed out between two moments, if nothing is held at the
    second one. A moment in between is a beginning of the entries. -/
structure ReadersSettled (start w : World) : Prop where
  /-- At no moment has a reader been closed twice. -/
  once : ∀ past, past <+: w.since start → ∀ n, closesIn past n ≤ 1
  /-- When a request goes out, every reader of the replies before it has been closed. -/
  settled : ∀ past entry, past ++ [entry] <+: w.since start → entry.event.isSent = true →
    ∀ n, start.readers ≤ n → n < start.readersAfter (sendsIn past) → closesIn past n = 1
  /-- At no moment are there two readers that are open. -/
  alone : ∀ past, past <+: w.since start → ∀ m n,
    start.readers ≤ m → m < start.readersAfter (sendsIn past) → closesIn past m = 0 →
    start.readers ≤ n → n < start.readersAfter (sendsIn past) → closesIn past n = 0 → m = n
  /-- In the end the readers that have been closed are those of all replies. -/
  all : ∀ n, closesIn (w.since start) n =
    if start.readers ≤ n ∧ n < start.readersAfter (sendsIn (w.since start)) then 1 else 0

/-- One more reply brings at most one more reader. -/
theorem World.readersAfter_le (start : World) (replies : Nat) :
    start.readersAfter replies ≤ start.readersAfter (replies - 1) + 1 := by
  cases replies with
  | zero => exact Nat.le_add_right _ 1
  | succ k =>
    rw [World.readersAfter_succ, Nat.add_sub_cancel]
    cases (start.reply k).answer.hasReader <;> simp

/-- At every moment the readers of all replies but the last have been closed. -/
theorem Ledger.closed_before_last {held : Option Nat} (h : Ledger start w held)
    {past : List Entry} (hpast : past <+: w.since start) {n : Nat} (hn : start.readers ≤ n)
    (hlt : n < start.readersAfter (sendsIn past - 1)) : 1 ≤ closesIn past n := by
  induction past using List.reverseRecOn with
  | nil =>
    rw [sendsIn_nil, World.readersAfter, List.range_zero, List.countP_nil] at hlt
    omega
  | append_singleton past entry ih =>
    have hbefore : past <+: w.since start := (List.prefix_append past [entry]).trans hpast
    have hsends : sendsIn [entry] = if entry.event.isSent then 1 else 0 := List.countP_singleton
    rw [closesIn_append]
    rw [sendsIn_append, hsends] at hlt
    cases hsent : entry.event.isSent with
    | true =>
      -- A request goes out: all that was handed out before has been closed.
      rw [hsent, if_pos rfl, Nat.add_sub_cancel] at hlt
      rw [h.settled past entry hpast hsent n hn hlt]
      exact Nat.le_add_right 1 _
    | false =>
      rw [hsent, if_neg (by simp), Nat.add_zero] at hlt
      exact Nat.le_trans (ih hbefore hlt) (Nat.le_add_right _ _)

/-- Books with nothing held. -/
theorem Ledger.readersSettled (h : Ledger start w none) : ReadersSettled start w where
  once past hpast n := by
    refine Nat.le_trans (closesIn_le_of_beginning hpast n) ?_
    rw [h.closes n]
    split <;> omega
  settled := h.settled
  alone past hpast m n hm hmlt hmopen hn hnlt hnopen := by
    have hle := start.readersAfter_le (sendsIn past)
    -- Both are the reader of the last reply, since those of earlier ones have been closed.
    have hlast : ∀ k, start.readers ≤ k → closesIn past k = 0 →
        start.readersAfter (sendsIn past - 1) ≤ k := by
      intro k hk hopen
      refine Nat.le_of_not_lt fun hlt => ?_
      have hclosed := h.closed_before_last hpast hk hlt
      omega
    have hmlast := hlast m hm hmopen
    have hnlast := hlast n hn hnopen
    omega
  all n := by
    rw [h.closes n, ← h.readers]
    simp

/-- The response of a result has an open body whose reader has not been closed, unless errors may
    bring closed ones. -/
def ResponseKept (start : World) (closes : Prop) (result : SendResult) (w : World) : Prop :=
  ∀ r b, SendResult.response? result = some r → r.body = some b →
    (closes ∧ ∃ e, result = .error e) ∨
      b.isOpen = true ∧ ∀ n, b.reader.number? = some n → closesIn (w.since start) n = 0

theorem Handover.responseKept {closes : Prop} {result : SendResult}
    (h : Handover start closes result w) : ResponseKept start closes result w := by
  intro r b hr hb
  rcases h.unclosed r hr with hclosed | hopen
  · exact .inl hclosed
  · refine .inr ⟨hopen b hb, fun n hn => ?_⟩
    have hheld : SendResult.openReader? result = some n := by
      rw [SendResult.openReader?, hr, Option.bind_some, Response.openReader?, hb, Option.bind_some,
        Body.openReader?, if_pos (hopen b hb), hn]
    rw [h.ledger.closes n, hheld]
    simp

/-! ## Calls -/

/-- What is said of calls that send: whatever world one begins in and whatever it comes to, its
    response is kept, and once its result has been dropped all readers are settled. -/
def SettlesReaders (closes : Prop) (call : Run SendResult) : Prop :=
  ∀ w result w', call w = some (result, w') →
    ResponseKept w closes result w' ∧ ReadersSettled w (SendResult.drop result w').2

theorem settlesReaders_of_handover {closes : Prop} {call : Run SendResult}
    (h : ∀ w result w', call w = some (result, w') → Handover w closes result w') :
    SettlesReaders closes call := by
  intro w result w' hrun
  have hover := h w result w' hrun
  refine ⟨hover.responseKept, ?_⟩
  rw [SendResult.drop_apply]
  exact hover.drop.readersSettled

/-- **Every reader is closed once.** Whatever a service replies, and whenever the caller cancels:
    for a request that is sent through a stack of steps, for polls of either kind, for a session
    that sends and polls and for a whole run, the readers that the service hands out are settled.
    The response that a call brings has not been closed, unless it comes with an error and there is
    a step that closes it. A gate may turn requests away from any moment on; if it does after some
    number of requests then every call comes to something, also one that would go on for ever. -/
theorem calls_settle_readers (isOpen : World → Bool) (steps : List SendStep) :
    let service := Sender.gated isOpen transport
    let sender := decorateSender steps service
    let closes := SendStep.closeIfError ∈ steps
    (∀ request, SettlesReaders closes (sender request)) ∧
    (∀ request delay attempts codes,
      SettlesReaders closes (pollForAttempts sender request delay attempts codes)) ∧
    (∀ request delay span codes,
      SettlesReaders closes (pollForDuration sender request delay span codes)) ∧
    (∀ (session : Session) request, SettlesReaders closes (session.execute sender request)) ∧
    (∀ settings files now w result w', perform settings files now service w = some (result, w') →
      ReadersSettled w (RunResult.drop result w').2) ∧
    ∀ n, ClosesAfter n isOpen →
      (∀ request, Run.Returns (sender request)) ∧
      (∀ request delay attempts codes,
        Run.Returns (pollForAttempts sender request delay attempts codes)) ∧
      (∀ request delay span codes,
        Run.Returns (pollForDuration sender request delay span codes)) ∧
      (∀ (session : Session) request, Run.Returns (session.execute sender request)) ∧
      ∀ settings files now, Run.Returns (perform settings files now service) := by
  intro service sender closes
  have hservice : Sender.Careful False service := transport_careful.gated isOpen
  have hsender : Sender.Careful closes sender := by
    intro start request w result w' hw hrun
    exact (hservice.decorateSender steps start request w result w' hw hrun).weaken
      fun hc => hc.resolve_left False.elim
  refine ⟨?_, ?_, ?_, ?_, ?_, ?_⟩
  · intro request
    exact settlesReaders_of_handover fun w result w' hrun =>
      hsender w request w result w' (Ledger.refl w) hrun
  · intro request delay attempts codes
    exact settlesReaders_of_handover fun w result w' hrun =>
      poll_handover hsender (Ledger.refl w) hrun
  · intro request delay span codes
    exact settlesReaders_of_handover fun w result w' hrun =>
      poll_handover hsender (Ledger.refl w) hrun
  · intro session request
    exact settlesReaders_of_handover fun w result w' hrun =>
      session.execute_handover hsender (Ledger.refl w) hrun
  · intro settings files now w result w' hrun
    have hrunLedger := perform_ledger settings files now hservice (Ledger.refl w) hrun
    rw [RunResult.drop_apply]
    exact hrunLedger.drop_run.readersSettled
  · intro n hcloses
    have hends : Sender.Ends n service := gated_transport_ends hcloses
    have hsteps : Sender.Ends n sender := hends.decorateSender steps
    exact ⟨hsteps.returns, fun request delay attempts codes => hsteps.poll _ _ request,
      fun request delay span codes => hsteps.poll _ _ request, hsteps.execute, hends.perform⟩

end Courier
