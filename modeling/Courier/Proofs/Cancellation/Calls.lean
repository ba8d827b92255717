import Courier.Proofs.Cancellation.Senders
import Courier.Proofs.Judgement.Verdict

set_option autoImplicit false

/-! # Polls, sessions and runs that are cancelled

Every poll comes after a wait, and so does every part of a call that follows an exchange. Polling
takes over from the first request whether its waits can be cancelled. -/

namespace Courier

variable {sender : Sender} {waits : SendWaits}

/-! ## Polls -/

/-- A wait and a call after it, which is not cancelled by what follows. -/
theorem Sender.Heeds.callAfter (h : Sender.Heeds waits sender) {delay : Duration}
    {request : Request} {w : World} {c : Call} (hcancellable : request.cancellable = true)
    (hc : sender.callAfter delay request w = some c) :
    Guarded (delayedWaits delay waits request w) w c.back (c.result = .error .cancelled) := by
  obtain ⟨waited, -, called⟩ := Sender.callAfter_eq_some.1 hc
  have hcall := h request c.sent c.result c.back hcancellable called
  exact (Guarded.of_pause_finished (hcancellable ▸ waited) hcall).congr
    (delayedWaits_of_finished waited) Iff.rfl

/-- A loop that goes on has not been cancelled, and neither has its call. -/
theorem PollAfter.not_cancelled {plan : PollingPlan} {start : Nat} {p q : Polling} {w w' : World}
    {result : SendResult} (h : PollAfter plan start p w result (.inl q) w') :
    result ≠ .error .cancelled ∧ q.request.cancellable = p.request.cancellable := by
  cases h with
  | again goes =>
    refine ⟨?_, rfl⟩
    rintro he
    obtain rfl := Except.error.inj he
    simp [PollingPlan.endsAt, SendError.isCancelled] at goes
  | @pending r next requires goes leads =>
    refine ⟨by simp, ?_⟩
    have hnext := Polling.requestAfter_eq leads
    show next.cancellable = p.request.cancellable
    rw [hnext]

/-- A loop that ends with a call is cancelled exactly if the call is. -/
theorem PollAfter.cancelled_iff {plan : PollingPlan} {start : Nat} {p : Polling} {w w' : World}
    {answer result : SendResult} (h : PollAfter plan start p w answer (.inr result) w') :
    result = .error .cancelled ↔ answer = .error .cancelled := by
  cases h <;> simp [SendError.rejection]

/-- A loop of polls begins with a wait, and so does every later part of it. -/
theorem Sender.Heeds.poll (h : Sender.Heeds waits sender) {plan : PollingPlan} {delay : Duration}
    {request : Request} {w w' : World} {result : SendResult}
    (hcancellable : request.cancellable = true)
    (hrun : poll sender plan delay request w = some (result, w')) :
    Guarded (pollWaits sender waits plan delay request w) w w' (result = .error .cancelled) := by
  -- What is said of the loop is said of it from any poll on.
  refine Run.iterate_from (fun p v result w' => p.request.cancellable = true → Guarded (Run.Waits
    (pollTurn sender plan w.clock) (fun p v => delayedWaits p.delay waits p.request v) p v) v w'
    (result = .error .cancelled)) ?_ ?_ hrun hcancellable
  · intro p v q u result w' hturn hrest hp
    rcases pollTurn_eq_some_iff.1 hturn with ⟨-, hstop⟩ | ⟨c, hcall, hafter⟩
    · exact absurd hstop (by simp)
    · obtain ⟨hgoes, hq⟩ := hafter.not_cancelled
      have hcalled := h.callAfter hp hcall
      have hwritten := hcalled.followed (.of_writes hafter.writes)
      refine (hwritten.followed (hrest (hq.trans hp))).congr (fun x => ?_) (by simp [hgoes])
      rw [Run.waits_next hturn, or_false]
  · intro p v result w' hturn hp
    rcases pollTurn_eq_some_iff.1 hturn with ⟨hwait, hstop⟩ | ⟨c, hcall, hafter⟩
    · obtain rfl := Sum.inr.inj hstop
      refine (Guarded.of_pause_cancelled (hp ▸ hwait)).congr (fun x => ?_) (by simp)
      rw [Run.waits_last hturn, delayedWaits_of_cancelled hwait]
    · have hcalled := h.callAfter hp hcall
      refine (hcalled.followed (.of_writes hafter.writes)).congr (fun x => ?_) ?_
      · rw [Run.waits_last hturn, or_false]
      · rw [hafter.cancelled_iff, or_false]

/-! ## Sessions -/

/-- A session that polls if need be begins with a wait, or sends nothing. -/
theorem Sender.Heeds.pollAsNeeded (h : Sender.Heeds waits sender) (s : Session) {r : Response}
    {cancellable : Bool} {w w' : World} {result : SendResult} (hcancellable : cancellable = true)
    (hrun : s.pollAsNeeded sender r cancellable w = some (result, w')) :
    Guarded (s.pollingWaits sender waits r cancellable w) w w' (result = .error .cancelled) := by
  rw [s.pollAsNeeded_apply] at hrun
  unfold Session.pollingWaits
  cases hs : s.shouldPoll r with
  | false =>
    rw [hs, if_neg (by simp)] at hrun
    obtain ⟨rfl, rfl⟩ := Prod.mk.inj (Option.some.inj hrun)
    exact (Guarded.of_writes (.refl w)).congr (by simp) (by simp)
  | true =>
    rw [hs, if_pos rfl] at hrun
    have hwrites := s.preparePolling_onlyWrites cancellable r w
    cases hp : s.preparePolling cancellable r w with
    | mk outcome v =>
      rw [hp] at hrun hwrites
      cases outcome with
      | error e =>
        obtain ⟨rfl, rfl⟩ := Prod.mk.inj (Option.some.inj hrun)
        have hother := (Session.preparePolling_error hp).2
        exact (Guarded.of_writes hwrites).congr (by simp) (by simpa using hother)
      | ok request =>
        have hpolls := h.poll ((Session.preparePolling_cancellable hp).trans hcancellable) hrun
        exact (hpolls.after_writes hwrites).congr (by simp) Iff.rfl

/-- A session that sends and polls. -/
theorem Sender.Heeds.execute (h : Sender.Heeds waits sender) (s : Session) :
    Sender.Heeds (s.executeWaits sender waits) (s.execute sender) := by
  intro request w result w' hcancellable hrun
  simp only [Session.execute, Run.bind_apply, s.send_apply] at hrun
  unfold Session.executeWaits
  have hwrites := s.prepareRequest_onlyWrites request w
  cases hp : s.prepareRequest request w with
  | mk outcome v =>
    rw [hp] at hrun hwrites
    cases outcome with
    | error e =>
      obtain ⟨rfl, rfl⟩ := Prod.mk.inj (Option.some.inj hrun)
      exact ((Guarded.of_writes hwrites).congr (by simp) (by simp)).toConduct
    | ok prepared =>
      obtain ⟨⟨answer, u⟩, hsend, hrest⟩ := Option.bind_eq_some_iff.1 hrun
      replace hsend : (SendStep.retryAttempts s.retryAttempts s.retryBackoff).decorate sender
        prepared v = some (answer, u) := hsend
      have hsent := (h.decorate (.retryAttempts s.retryAttempts s.retryBackoff) prepared v answer u
        ((Session.prepareRequest_cancellable hp).trans hcancellable) hsend).after_writes hwrites
      dsimp only
      rw [hsend]
      cases answer with
      | error e =>
        obtain ⟨rfl, rfl⟩ := Prod.mk.inj (Option.some.inj hrest)
        exact hsent.congr (by simp) Iff.rfl
      | ok r =>
        -- Whether the polls can be cancelled is taken over from the request that was given.
        have hpolls := h.pollAsNeeded s hcancellable hrest
        exact (hsent.followed hpolls).congr (fun _ => Iff.rfl) (by simp)

/-! ## Runs -/

/-- The exchanges of a run. -/
theorem Settings.sendIn_heeds (s : Settings) (session : Session) :
    Sender.Heeds (s.sendWaits session) (s.sendIn session transport) := by
  intro request w result w' hcancellable hrun
  rw [s.sendIn_apply] at hrun
  unfold Settings.sendWaits
  have hwrites := session.prepareRequest_onlyWrites request w
  cases hp : session.prepareRequest request w with
  | mk outcome v =>
    rw [hp] at hrun hwrites
    cases outcome with
    | error e =>
      obtain ⟨rfl, rfl⟩ := Prod.mk.inj (Option.some.inj hrun)
      exact ((Guarded.of_writes hwrites).congr (by simp) (by simp)).toConduct
    | ok prepared =>
      obtain ⟨⟨last, u⟩, hattempts, hrest⟩ := Option.bind_eq_some_iff.1 hrun
      have hsent := (decorateSender_heeds _ prepared v last u
        ((Session.prepareRequest_cancellable hp).trans hcancellable) hattempts).after_writes hwrites
      dsimp only at hrest ⊢
      rw [hattempts]
      dsimp only
      cases hr : SendResult.response? last with
      | none =>
        rw [hr] at hrest
        obtain ⟨rfl, rfl⟩ := Prod.mk.inj (Option.some.inj hrest)
        exact hsent.congr (by simp) Iff.rfl
      | some r =>
        rw [hr] at hrest
        -- An outcome that brings a response is no cancellation.
        have hnot : last ≠ .error .cancelled := by
          rintro rfl
          exact absurd hr (by simp [SendResult.response?, SendError.response?])
        replace hrest : s.follow session transport r u = some (result, w') := hrest
        unfold Settings.follow at hrest
        cases he : s.polling.enabled with
        | true =>
          -- Polls go straight to the transport and can be cancelled like the attempts.
          rw [he, if_pos rfl] at hrest
          have hpolls := transport_heeds.pollAsNeeded session rfl hrest
          exact (hsent.followed hpolls).congr (fun x => by simp [stepsWaits]) (by simp [hnot])
        | false =>
          rw [he, if_neg (by simp)] at hrest
          obtain ⟨rfl, rfl⟩ := Prod.mk.inj (Option.some.inj hrest)
          exact hsent.congr (by simp) (by simp [hnot])

/-- What a run concludes is a cancellation exactly if its exchanges were cancelled. -/
theorem Settings.conclude_cancelled_iff (s : Settings) (answer : SendResult) (w : World) :
    (s.conclude answer w).1 = .error (.send .cancelled) ↔ answer = .error .cancelled := by
  cases answer with
  | error e =>
    show (Except.error (RunError.send e) : RunResult) = _ ↔ _
    simp
  | ok r =>
    have hverdict : Verdict s.expect r (s.conclude (.ok r) w).1 :=
      judge_verdict s.expect r (logIdentity r w).2
    generalize (s.conclude (.ok r) w).1 = result at hverdict
    cases hverdict <;> simp

/-- A run. -/
theorem perform_conduct (s : Settings) (files : FileTree) (now : Instant) {w w' : World}
    {result : RunResult} (hrun : perform s files now transport w = some (result, w')) :
    Conduct (s.waits files now w) w w' (result = .error (.send .cancelled)) := by
  rw [perform_apply] at hrun
  unfold Settings.waits
  have hloads := s.credentials.authorizer_onlyWrites files now w
  cases hl : s.credentials.authorizer files now w with
  | mk outcome v =>
    rw [hl] at hrun hloads
    cases outcome with
    | error e =>
      obtain ⟨rfl, rfl⟩ := Prod.mk.inj (Option.some.inj hrun)
      exact ((Guarded.of_writes hloads).congr (by simp) (by simp)).toConduct
    | ok authorizer =>
      have hasks := s.request_onlyWrites v
      dsimp only at hrun ⊢
      cases ha : s.request v with
      | mk outcome u =>
        rw [ha] at hrun hasks
        cases outcome with
        | error e =>
          obtain ⟨rfl, rfl⟩ := Prod.mk.inj (Option.some.inj hrun)
          exact ((Guarded.of_writes (hloads.trans hasks)).congr (by simp) (by simp)).toConduct
        | ok request =>
          obtain ⟨⟨answer, y⟩, hsend, hconclude⟩ := Option.map_eq_some_iff.1 hrun
          have hsent := (s.sendIn_heeds (s.session authorizer) request u answer y
            (Settings.request_cancellable ha) hsend).after_writes (hloads.trans hasks)
          have hwritten := hsent.then_writes (s.conclude_onlyWrites answer y)
          have hcancelled := s.conclude_cancelled_iff answer y
          dsimp only at hconclude
          rw [hconclude] at hwritten hcancelled
          exact hwritten.congr (by simp) hcancelled

end Courier
