import Courier.Proofs.Cancellation.Endless

set_option autoImplicit false

/-! # Calls stop when the caller cancels

What follows for the caller from how calls conduct themselves. After the caller has cancelled no
request goes out but the first one of the call, no wait goes on, and the call comes back at once or
with the reply to a request that is in flight. -/

namespace Courier

/-! ## The moment of the cancellation -/

section Moment

variable {x : Wait} {w' : World} {c : Nat}

/-- A wait is cut short or does not begin exactly if the caller has cancelled before it, or cancels
    before it ends by itself. -/
theorem Wait.isCut_iff_of_passage (h : Passage x.over w') (hc : w'.cancelAt = some c) :
    x.IsCut ↔ x.begun.isCancelled = true ∨ c < x.finish := by
  constructor
  · intro hcut
    obtain ⟨c', hbegun, hle⟩ := x.isCut_iff.1 hcut
    obtain rfl : c' = c :=
      Option.some.inj ((h.kept c' (x.over_cancelAt.trans hbegun)).symm.trans hc)
    exact hle.imp_left (isCancelled_of_le hbegun)
  · rintro (hcancelled | hlt)
    · exact x.isCut_of_isCancelled hcancelled
    · -- A wait that was not cut short has lasted to its end, so the moment was set before it.
      refine Classical.byContradiction fun hcut => ?_
      have hfinish := x.over_clock_of_not_cut hcut
      rcases h.later c hc with hover | hle
      · exact hcut (x.isCut_iff.2 ⟨c, x.over_cancelAt.symm.trans hover, .inr hlt⟩)
      · omega

/-- No wait goes on after the caller has cancelled. -/
theorem Wait.over_le_of_passage (h : Passage x.over w') (hc : w'.cancelAt = some c) :
    x.over.clock ≤ max x.begun.clock c := by
  by_cases hcut : x.IsCut
  · obtain ⟨c', hbegun, hover⟩ := x.over_of_cut hcut
    obtain rfl : c' = c :=
      Option.some.inj ((h.kept c' (x.over_cancelAt.trans hbegun)).symm.trans hc)
    exact Nat.le_of_eq (congrArg World.clock hover)
  · have hfinish := x.over_clock_of_not_cut hcut
    have hnot := mt (Wait.isCut_iff_of_passage h hc).2 hcut
    omega

end Moment

/-! ## Calls -/

/-- What is said of a call that has made some waits and come back, if `c` is the millisecond in
    which the caller cancels. -/
structure StopsAt (c : Nat) (waits : Wait → Prop) (w w' : World) : Prop where
  /-- No request goes out after the cancellation but the first one, and that only if the caller had
      cancelled before the call; unless a wait ends by itself in this very millisecond. -/
  requests : (∀ x, waits x → ¬x.IsCut → x.finish ≠ c) → ∀ past entry rest,
    SentBetween w w' past entry rest → c < entry.time ∨ entry.event.isLate = true →
    sendsIn past = 0 ∧ w.isCancelled = true
  /-- No wait goes on after the cancellation. -/
  waited : ∀ x, waits x → x.over.clock ≤ max x.begun.clock c
  /-- A wait is cut short by the cancellation and does not begin after it. -/
  cut : ∀ x, waits x → (x.IsCut ↔ x.begun.isCancelled = true ∨ c < x.finish)
  /-- The call comes back when the caller cancels or before, or with the reply to a request that is
      in flight then. -/
  returns : w'.clock ≤ max w.clock c ∨ EndsAnswered w w' (max w.clock c)

/-- What is said of a call that has made some waits and come back, cancelled or not. -/
structure ComesBack (waits : Wait → Prop) (w w' : World) (cancelled : Prop) : Prop where
  /-- The caller who was going to cancel in some millisecond still is, or has. -/
  kept : ∀ c, w.cancelAt = some c → w'.cancelAt = some c
  stops : ∀ c, w'.cancelAt = some c → StopsAt c waits w w'
  /-- The call is cancelled exactly if one of its waits is cut short or does not begin. -/
  interrupted : cancelled ↔ ∃ x, waits x ∧ x.IsCut
  /-- The waits are those of this call, -/
  within : ∀ x, waits x → w.clock ≤ x.begun.clock ∧ x.over.clock ≤ w'.clock
  /-- and no other one takes time. -/
  busy : ∀ time, w.clock ≤ time → time < w'.clock →
    (∃ x, waits x ∧ x.begun.clock ≤ time ∧ time < x.over.clock) ∨ InFlight w w' time

theorem Conduct.comesBack {waits : Wait → Prop} {w w' : World} {cancelled : Prop}
    (h : Conduct waits w w' cancelled) : ComesBack waits w w' cancelled where
  kept := h.kept
  stops c hc := {
    requests := by
      intro hnone past entry rest hsent hafter
      have hentry : entry ∈ w'.since w := by
        rw [hsent.since]
        simp
      have hlate : entry.event.isLate = true :=
        hafter.elim (h.flags entry hentry hsent.sent c hc) id
      have hprefix : past ++ [entry] <+: w'.since w := ⟨rest, by rw [hsent.since]; simp⟩
      refine (h.requests past entry hprefix hlate).resolve_right ?_
      rintro ⟨x, hx, hcut, hfinish⟩
      exact hnone x hx hcut (Option.some.inj (hfinish.symm.trans hc))
    waited := fun x hx => Wait.over_le_of_passage (h.within x hx).2 hc
    cut := fun x hx => Wait.isCut_iff_of_passage (h.within x hx).2 hc
    returns := (Nat.lt_or_ge _ w'.clock).symm.imp_right (h.returns c hc) }
  interrupted := h.interrupted
  within x hx := ⟨(h.within x hx).1.clock, (h.within x hx).2.clock⟩
  busy := h.busy

/-- Whether calls stop when the caller cancels. A call that never comes back is told by how it is
    cut off once some number of requests have gone out. -/
structure StopsWhenCancelled {α : Type} (waits : World → Wait → Prop) (stopped : α)
    (call : Run α) (cut : Nat → Run α) : Prop where
  comesBack : ∀ w a w', call w = some (a, w') → ComesBack (waits w) w w' (a = stopped)
  /-- The caller has not cancelled, however many requests have gone out. -/
  endless : ∀ w, call w = none → ∀ n, ∃ w', cut n w = some (stopped, w') ∧ n ≤ w'.sent ∧
    w'.isCancelled = false

/-- **Calls stop when the caller cancels**, whatever a service replies and however long that takes,
    and whenever the caller cancels: a request that is sent through a stack of steps, a loop of
    polls, a session that sends and polls, and a whole run. -/
theorem calls_stop_when_cancelled (steps : List SendStep) :
    let gate := fun n => Sender.gated (fun v => v.sent < n) transport
    let sender := decorateSender steps transport
    let cut := fun n => decorateSender steps (gate n)
    let waits := stepsWaits steps
    (∀ request : Request, StopsWhenCancelled (waits (request.setCancellable true))
      (.error .cancelled) (sender (request.setCancellable true))
      fun n => cut n (request.setCancellable true)) ∧
    (∀ plan delay (request : Request), StopsWhenCancelled
      (pollWaits sender waits plan delay (request.setCancellable true)) (.error .cancelled)
      (poll sender plan delay (request.setCancellable true))
      fun n => poll (cut n) plan delay (request.setCancellable true)) ∧
    (∀ (session : Session) (request : Request), StopsWhenCancelled
      (session.executeWaits sender waits (request.setCancellable true)) (.error .cancelled)
      (session.execute sender (request.setCancellable true))
      fun n => session.execute (cut n) (request.setCancellable true)) ∧
    ∀ (settings : Settings) files now, StopsWhenCancelled (settings.waits files now)
      (.error (.send .cancelled)) (perform settings files now transport)
      fun n => perform settings files now (gate n) := by
  intro gate sender cut waits
  have hheeds : Sender.Heeds waits sender := decorateSender_heeds steps
  have hcuts : ∀ n, Sender.CutsOff n sender (cut n) := fun n =>
    (gated_transport_cutsOff n).decorateSender steps
  have hgate : ∀ n, Sender.Ends n (gate n) := fun n =>
    gated_transport_ends fun v hv => by simpa using hv
  have hends : ∀ n, Sender.Ends n (cut n) := fun n => (hgate n).decorateSender steps
  refine ⟨?_, ?_, ?_, ?_⟩
  · intro request
    exact ⟨fun w result w' hrun => (hheeds _ w result w' rfl hrun).comesBack,
      fun w hnone n => (hcuts n _ rfl).of_none ((hends n).returns _) hnone⟩
  · intro plan delay request
    exact ⟨fun w result w' hrun => (hheeds.poll rfl hrun).comesBack,
      fun w hnone n => ((hcuts n).poll plan delay rfl).of_none ((hends n).poll _ _ _) hnone⟩
  · intro session request
    exact ⟨fun w result w' hrun => (hheeds.execute session _ w result w' rfl hrun).comesBack,
      fun w hnone n => ((hcuts n).execute session rfl).of_none ((hends n).execute _ _) hnone⟩
  · intro settings files now
    exact ⟨fun w result w' hrun => (perform_conduct settings files now hrun).comesBack,
      fun w hnone n => ((gated_transport_cutsOff n).perform settings files now).of_none
        ((hgate n).perform settings files now) hnone⟩

/-- A request that is to wait for five seconds comes back after one if the caller cancels then, and
    has not gone out. -/
example : decorateSender [.afterDelay (.ofSeconds 5)] transport
    (Request.empty.setCancellable true) { World.quiet with cancelAt := some 1000 } =
      some (.error .cancelled, { World.quiet with clock := 1000, cancelAt := some 1000 }) := by
  rfl

end Courier
