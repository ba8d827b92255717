import Courier.Proofs.Cancellation.Calls
import Courier.Proofs.Exchange.Gate

set_option autoImplicit false

/-! # Calls that never come back

A call may go on for ever: a budget of time is never used up if nothing takes time. Nor does the
moment of a cancellation ever come then. To say so, such a call is cut off by a gate that closes
once some number of requests have gone out: if the caller has cancelled by then, the whole call
would have come back as well. -/

namespace Courier

/-! ## Calls behind a gate -/

/-- What a call behind a gate that closes after `n` requests comes to, if `whole` is what it comes
    to without a gate: the same, or the gate has closed and cut it off. In the second case the whole
    call comes to something too, provided that the caller has cancelled by then. -/
inductive CutOff {α : Type} (n : Nat) (stopped : α) (whole : Option (α × World)) :
    α → World → Prop
  | same {a : α} {w' : World} (comes : whole = some (a, w')) : CutOff n stopped whole a w'
  | short {w' : World} (closed : n ≤ w'.sent)
      (halts : w'.isCancelled = true → ∃ b v, whole = some (b, v) ∧ v.isCancelled = true) :
      CutOff n stopped whole stopped w'

/-- Whether a call is another one that a gate may cut off. -/
def Run.CutsOff {α : Type} (n : Nat) (stopped : α) (whole cut : Run α) : Prop :=
  ∀ w a w', cut w = some (a, w') → CutOff n stopped (whole w) a w'

/-- Whether the calls of a sender are those of another one that a gate may cut off, if their waits
    can be cancelled. -/
def Sender.CutsOff (n : Nat) (whole cut : Sender) : Prop :=
  ∀ request, request.cancellable = true →
    Run.CutsOff n (.error .cancelled) (whole request) (cut request)

/-- Whether a call comes back if the caller has cancelled before. -/
def Run.Halts {α : Type} (call : Run α) : Prop :=
  ∀ w, w.isCancelled = true → ∃ a w', call w = some (a, w') ∧ w'.isCancelled = true

/-- **A call that never comes back is never cancelled**: before any request that it sends the caller
    has not cancelled yet. -/
theorem Run.CutsOff.of_none {α : Type} {n : Nat} {stopped : α} {whole cut : Run α} {w : World}
    (h : Run.CutsOff n stopped whole cut) (hreturns : Run.Returns cut) (hnone : whole w = none) :
    ∃ w', cut w = some (stopped, w') ∧ n ≤ w'.sent ∧ w'.isCancelled = false := by
  obtain ⟨⟨a, w'⟩, hcut⟩ := Option.isSome_iff_exists.1 (hreturns w)
  cases h w a w' hcut with
  | same comes =>
    rw [hnone] at comes
    exact absurd comes (by simp)
  | short closed halts =>
    refine ⟨w', hcut, closed, Bool.eq_false_iff.2 fun hcancelled => ?_⟩
    obtain ⟨b, v, hwhole, -⟩ := halts hcancelled
    rw [hnone] at hwhole
    exact absurd hwhole (by simp)

section Composition

variable {α β : Type} {n : Nat} {stopped : α} {stopped' : β}

theorem Run.CutsOff.refl (call : Run α) : Run.CutsOff n stopped call call :=
  fun _ _ _ hrun => .same hrun

/-- What comes after a call: it passes a cut on, and comes back if the caller has cancelled. -/
theorem Run.CutsOff.bind {whole cut : Run α} {rest cutRest : α → Run β}
    (h : Run.CutsOff n stopped whole cut)
    (hrest : ∀ a, Run.CutsOff n stopped' (rest a) (cutRest a))
    (hstopped : ∀ w b w', cutRest stopped w = some (b, w') → b = stopped' ∧ w.Writes w')
    (hhalts : ∀ a, (rest a).Halts) :
    Run.CutsOff n stopped' (whole >>= rest) (cut >>= cutRest) := by
  intro w b w' hrun
  rw [Run.bind_apply] at hrun ⊢
  obtain ⟨⟨a, v⟩, hcut, hcutRest⟩ := Option.bind_eq_some_iff.1 hrun
  cases h w a v hcut with
  | same comes =>
    rw [comes]
    exact hrest a v b w' hcutRest
  | short closed halts =>
    -- The rest after the cut does nothing, and the whole rest may come to something else.
    obtain ⟨rfl, hwrites⟩ := hstopped v b w' hcutRest
    refine .short ?_ fun hcancelled => ?_
    · rw [hwrites.eq]
      exact closed
    · obtain ⟨a, u, hwhole, hu⟩ := halts (hwrites.isCancelled ▸ hcancelled)
      rw [hwhole]
      exact hhalts a u hu

/-- An action before a call. -/
theorem Run.CutsOff.lift_bind (act : Act α) {whole cut : α → Run β}
    (h : ∀ a, Run.CutsOff n stopped' (whole a) (cut a)) :
    Run.CutsOff n stopped' (liftM act >>= whole) (liftM act >>= cut) := by
  intro w b w' hrun
  rw [Run.bind_apply, Run.lift_apply, Option.bind_some] at hrun ⊢
  exact h _ _ b w' hrun

/-- An action that only writes comes back. -/
theorem Act.OnlyWrites.halts {act : Act α} (h : act.OnlyWrites) : Run.Halts (liftM act) :=
  fun w hw => ⟨_, _, rfl, (h w).isCancelled.trans hw⟩

end Composition

/-! ## Steps -/

theorem gated_transport_cutsOff (n : Nat) :
    Sender.CutsOff n transport (Sender.gated (fun v => v.sent < n) transport) := by
  intro request _ w result w' hrun
  unfold Sender.gated at hrun
  by_cases hopen : w.sent < n
  · rw [if_pos (decide_eq_true hopen)] at hrun
    exact .same hrun
  · rw [if_neg (by simpa using hopen)] at hrun
    obtain ⟨rfl, rfl⟩ := Prod.mk.inj (Option.some.inj hrun)
    exact .short (Nat.le_of_not_lt hopen) fun hcancelled =>
      ⟨_, _, transport_apply request w, (passage_exchanges w request).isCancelled hcancelled⟩

section Steps

variable {n : Nat} {whole cut : Sender}

theorem Sender.CutsOff.logged (h : Sender.CutsOff n whole cut) (title : String) :
    Sender.CutsOff n (logged title whole) (logged title cut) := by
  intro request hcancellable
  refine .lift_bind (log _ _) fun _ => .bind (h request hcancellable) (fun _ => .refl _) ?_ ?_
  · intro w b w' hrun
    obtain ⟨rfl, rfl⟩ := Prod.mk.inj (Option.some.inj hrun)
    exact ⟨rfl, .one rfl w⟩
  · intro result
    cases result <;> exact fun w hw => ⟨_, _, rfl, hw⟩

theorem Sender.CutsOff.probed (h : Sender.CutsOff n whole cut) (name : String) :
    Sender.CutsOff n (probed name whole) (probed name cut) := by
  intro request hcancellable
  refine .lift_bind (record _) fun _ => .bind (h request hcancellable) (fun _ => .refl _) ?_ ?_
  · intro w b w' hrun
    obtain ⟨rfl, rfl⟩ := Prod.mk.inj (Option.some.inj hrun)
    exact ⟨rfl, .one rfl w⟩
  · exact fun result w hw => ⟨_, _, rfl, hw⟩

theorem Sender.CutsOff.checked (h : Sender.CutsOff n whole cut) (codes : List Status)
    (failOnMatch : Bool) :
    Sender.CutsOff n (checked codes failOnMatch whole) (checked codes failOnMatch cut) := by
  intro request hcancellable
  refine .bind (h request hcancellable) (fun _ => .refl _) ?_ ?_
  · intro w b w' hrun
    obtain ⟨rfl, rfl⟩ := Prod.mk.inj (Option.some.inj hrun)
    exact ⟨rfl, .refl w⟩
  · intro result w hw
    cases result with
    | error e => exact ⟨_, _, rfl, hw⟩
    | ok r =>
      dsimp only
      split <;> exact ⟨_, _, rfl, hw⟩

theorem Sender.CutsOff.closing (h : Sender.CutsOff n whole cut) :
    Sender.CutsOff n (closing whole) (closing cut) := by
  intro request hcancellable
  refine .bind (h request hcancellable) (fun _ => .refl _) ?_ ?_
  · intro w b w' hrun
    obtain ⟨rfl, rfl⟩ := Prod.mk.inj (Option.some.inj hrun)
    exact ⟨rfl, .refl w⟩
  · intro result w hw
    cases result with
    | ok r => exact ⟨_, _, rfl, hw⟩
    | error e => exact ⟨_, _, rfl, (e.closeResponse_onlyWrites w).isCancelled.trans hw⟩

theorem Sender.CutsOff.delayed (h : Sender.CutsOff n whole cut) (delay : Duration) :
    Sender.CutsOff n (delayed delay whole) (delayed delay cut) := by
  intro request hcancellable
  refine .lift_bind (pause delay request.cancellable) fun waited => ?_
  cases waited with
  | cancelled => exact .refl _
  | finished => exact h request hcancellable

/-- A wait that can be cancelled does not begin if the caller has cancelled. -/
theorem pause_of_isCancelled {d : Duration} {w : World} (h : w.isCancelled = true) :
    pause d true w = (.cancelled, w) := by
  unfold pause
  simp [h]

/-- Attempts come back from one by whose end the caller has cancelled: it is the last one, or the
    wait after it does not begin. -/
theorem retryTurn_halts {policy : RetryPolicy} {limit : Budget} {next : Sender} {request : Request}
    {start k : Nat} {v back : World} {answer : SendResult}
    (hcancellable : request.cancellable = true) (comes : next request v = some (answer, back))
    (hback : back.isCancelled = true) :
    ∃ result u, Run.iterate (retryTurn policy limit next request start) k v = some (result, u) ∧
      u.isCancelled = true := by
  cases hends : endsRetry limit (k + 1) (back.clock - start) answer with
  | true => exact ⟨_, _, Run.iterate_done (retryTurn_eq_some_iff.2 (.last comes hends)), hback⟩
  | false =>
    obtain ⟨e, rfl, -⟩ := exists_error_of_goes hends
    have hput := (back.writes_putsAway policy request k e).isCancelled.trans hback
    have hwait := pause_of_isCancelled (d := policy.delayForRetry k) hput
    rw [← hcancellable] at hwait
    exact ⟨_, _, Run.iterate_done (retryTurn_eq_some_iff.2 (.interrupted comes hends hwait)), hput⟩

/-- An attempt that is cut off is the last one, since it comes back as cancelled. -/
theorem Sender.CutsOff.retried (h : Sender.CutsOff n whole cut) (policy : RetryPolicy)
    (limit : Budget) :
    Sender.CutsOff n (retried policy limit whole) (retried policy limit cut) := by
  intro request hcancellable w result w' hrun
  have hattempt := h request hcancellable
  -- What is said of the loop is said of it from any attempt on.
  refine Run.iterate_from (fun k v result w' => CutOff n (.error .cancelled)
    (Run.iterate (retryTurn policy limit whole request w.clock) k v) result w') ?_ ?_ hrun
  · intro k v k' u result w' hturn hrest
    cases retryTurn_eq_some_iff.1 hturn with
    | again called goes waited =>
      -- An attempt that is repeated has not been cut off.
      cases hattempt v _ _ called with
      | same comes =>
        rwa [Run.iterate_next (retryTurn_eq_some_iff.2 (.again comes goes waited))]
      | short => simp [endsRetry, SendError.isCancelled] at goes
  · intro k v result w' hturn
    cases retryTurn_eq_some_iff.1 hturn with
    | last called ends =>
      cases hattempt v _ _ called with
      | same comes => exact .same (Run.iterate_done (retryTurn_eq_some_iff.2 (.last comes ends)))
      | short closed halts =>
        refine .short closed fun hcancelled => ?_
        obtain ⟨answer, back, comes, hback⟩ := halts hcancelled
        exact retryTurn_halts hcancellable comes hback
    | interrupted called goes waited =>
      cases hattempt v _ _ called with
      | same comes =>
        exact .same (Run.iterate_done (retryTurn_eq_some_iff.2 (.interrupted comes goes waited)))
      | short => simp [endsRetry, SendError.isCancelled] at goes

theorem Sender.CutsOff.decorate (h : Sender.CutsOff n whole cut) (step : SendStep) :
    Sender.CutsOff n (step.decorate whole) (step.decorate cut) := by
  cases step with
  | asIs => exact h
  | logging title => exact h.logged title
  | errorIf codes => exact h.checked codes true
  | errorUnless codes => exact h.checked codes false
  | closeIfError => exact h.closing
  | afterDelay delay => exact h.delayed delay
  | retry policy limit => exact h.retried policy limit
  | probe name => exact h.probed name

/-- A stack of steps around a gate. -/
theorem Sender.CutsOff.decorateSender (h : Sender.CutsOff n whole cut) (steps : List SendStep) :
    Sender.CutsOff n (decorateSender steps whole) (decorateSender steps cut) := by
  induction steps with
  | nil => exact h
  | cons step rest ih => exact ih.decorate step

/-! ## Polls, sessions and runs -/

/-- A turn of a loop of polls is the last one if the caller has cancelled: its wait does not
    begin. -/
theorem pollTurn_of_isCancelled (sender : Sender) (plan : PollingPlan) (start : Nat) {p : Polling}
    {w : World} (hcancellable : p.request.cancellable = true) (hw : w.isCancelled = true) :
    pollTurn sender plan start p w = some (.inr (.error .cancelled), w) := by
  have hwait := pause_of_isCancelled (d := p.delay) hw
  rw [← hcancellable] at hwait
  exact pollTurn_eq_some_iff.2 (.inl ⟨hwait, rfl⟩)

/-- A loop of polls comes back from a poll by whose end the caller has cancelled: it is the last
    one, or the wait for the next one does not begin. -/
theorem pollTurn_halts {sender : Sender} {plan : PollingPlan} {start : Nat} {p : Polling}
    {v : World} {c : Call} (hcancellable : p.request.cancellable = true)
    (hcall : sender.callAfter p.delay p.request v = some c) (hback : c.back.isCancelled = true) :
    ∃ result u, Run.iterate (pollTurn sender plan start) p v = some (result, u) ∧
      u.isCancelled = true := by
  cases ha : p.after plan start c.result c.back with
  | mk outcome u =>
    have hafter := Polling.after_eq_iff.1 ha
    have hturn := pollTurn_eq_some_iff.2 (.inr ⟨c, hcall, hafter⟩)
    have hu := hafter.writes.isCancelled.trans hback
    cases outcome with
    | inr result => exact ⟨result, u, Run.iterate_done hturn, hu⟩
    | inl q =>
      have hq := hafter.not_cancelled.2.trans hcancellable
      rw [Run.iterate_next hturn]
      exact ⟨_, u, Run.iterate_done (pollTurn_of_isCancelled sender plan _ hq hu), hu⟩

/-- A poll that is cut off is the last one, since it comes back as cancelled. -/
theorem Sender.CutsOff.poll (h : Sender.CutsOff n whole cut) (plan : PollingPlan)
    (delay : Duration) {request : Request} (hcancellable : request.cancellable = true) :
    Run.CutsOff n (.error .cancelled) (poll whole plan delay request)
      (poll cut plan delay request) := by
  intro w result w' hrun
  -- What is said of the loop is said of it from any poll on.
  refine Run.iterate_from (fun p v result w' => p.request.cancellable = true →
    CutOff n (.error .cancelled) (Run.iterate (pollTurn whole plan w.clock) p v) result w')
    ?_ ?_ hrun hcancellable
  · intro p v q u result w' hturn hrest hp
    rcases pollTurn_eq_some_iff.1 hturn with ⟨-, hstop⟩ | ⟨c, hcall, hafter⟩
    · exact absurd hstop (by simp)
    · obtain ⟨hgoes, hq⟩ := hafter.not_cancelled
      obtain ⟨waited, hrequest, called⟩ := Sender.callAfter_eq_some.1 hcall
      generalize hresult : c.result = answer at hgoes called
      cases h p.request hp _ _ _ called with
      | same comes =>
        have hwhole := Sender.callAfter_eq_some.2 ⟨waited, hrequest, hresult ▸ comes⟩
        rw [Run.iterate_next (pollTurn_eq_some_iff.2 (.inr ⟨c, hwhole, hafter⟩))]
        exact hrest (hq.trans hp)
      | short => exact absurd rfl hgoes
  · intro p v result w' hturn hp
    rcases pollTurn_eq_some_iff.1 hturn with ⟨hwait, hstop⟩ | ⟨c, hcall, hafter⟩
    · exact .same (Run.iterate_done (Sum.inr.inj hstop ▸ pollTurn_eq_some_iff.2
        (.inl ⟨hwait, rfl⟩)))
    · obtain ⟨waited, hrequest, called⟩ := Sender.callAfter_eq_some.1 hcall
      obtain ⟨asked, sent, answer, back⟩ := c
      cases h p.request hp _ _ _ called with
      | same comes =>
        have hwhole := Sender.callAfter_eq_some.2 ⟨waited, hrequest, comes⟩
        exact .same (Run.iterate_done (pollTurn_eq_some_iff.2 (.inr ⟨_, hwhole, hafter⟩)))
      | short closed halts =>
        cases hafter with
        | failed ends =>
          refine .short closed fun hcancelled => ?_
          obtain ⟨answer, back, comes, hback⟩ := halts hcancelled
          have hwhole : whole.callAfter p.delay p.request v = some ⟨asked, sent, answer, back⟩ :=
            Sender.callAfter_eq_some.2 ⟨waited, hrequest, comes⟩
          exact pollTurn_halts hp hwhole hback

/-- A session that polls if need be comes back if the caller has cancelled. -/
theorem Session.pollAsNeeded_halts (s : Session) (sender : Sender) (r : Response) :
    (s.pollAsNeeded sender r true).Halts := by
  intro w hw
  rw [s.pollAsNeeded_apply]
  split
  · have hwrites := s.preparePolling_onlyWrites true r w
    cases hp : s.preparePolling true r w with
    | mk outcome v =>
      rw [hp] at hwrites
      have hv := hwrites.isCancelled.trans hw
      cases outcome with
      | error e => exact ⟨_, v, rfl, hv⟩
      | ok request =>
        have hrequest := Session.preparePolling_cancellable hp
        exact ⟨_, v, Run.iterate_done (pollTurn_of_isCancelled sender _ _ hrequest hv), hv⟩
  · exact ⟨_, w, rfl, hw⟩

theorem Sender.CutsOff.pollAsNeeded (h : Sender.CutsOff n whole cut) (s : Session)
    (r : Response) :
    Run.CutsOff n (.error .cancelled) (s.pollAsNeeded whole r true)
      (s.pollAsNeeded cut r true) := by
  intro w result w' hrun
  rw [s.pollAsNeeded_apply] at hrun ⊢
  split at hrun
  · rw [if_pos (by assumption)]
    cases hp : s.preparePolling true r w with
    | mk outcome v =>
      rw [hp] at hrun
      cases outcome with
      | error e => exact .same hrun
      | ok request => exact h.poll _ _ (Session.preparePolling_cancellable hp) v result w' hrun
  · rw [if_neg (by assumption)]
    exact .same hrun

theorem Sender.CutsOff.send (h : Sender.CutsOff n whole cut) (s : Session)
    (steps : List SendStep) {request : Request} (hcancellable : request.cancellable = true) :
    Run.CutsOff n (.error .cancelled) (s.send whole request steps)
      (s.send cut request steps) := by
  intro w result w' hrun
  rw [s.send_apply] at hrun ⊢
  cases hp : s.prepareRequest request w with
  | mk outcome v =>
    rw [hp] at hrun
    cases outcome with
    | error e => exact .same hrun
    | ok prepared =>
      have hprepared := (Session.prepareRequest_cancellable hp).trans hcancellable
      exact h.decorateSender steps prepared hprepared v result w' hrun

theorem Sender.CutsOff.execute (h : Sender.CutsOff n whole cut) (s : Session) {request : Request}
    (hcancellable : request.cancellable = true) :
    Run.CutsOff n (.error .cancelled) (s.execute whole request) (s.execute cut request) := by
  refine .bind (h.send s _ hcancellable) (fun answer => ?_) ?_ fun answer => ?_
  · cases answer with
    | error e => exact .refl _
    | ok r =>
      dsimp only
      rw [hcancellable]
      exact h.pollAsNeeded s r
  · intro w result w' hrun
    obtain ⟨rfl, rfl⟩ := Prod.mk.inj (Option.some.inj hrun)
    exact ⟨rfl, .refl w⟩
  · cases answer with
    | error e => exact fun w hw => ⟨_, w, rfl, hw⟩
    | ok r =>
      dsimp only
      rw [hcancellable]
      exact s.pollAsNeeded_halts whole r

/-- What a run does with the response to its request. -/
theorem Sender.CutsOff.follow (h : Sender.CutsOff n whole cut) (s : Settings) (session : Session)
    (r : Response) :
    Run.CutsOff n (.error .cancelled) (s.follow session whole r) (s.follow session cut r) := by
  unfold Settings.follow
  split
  · exact h.pollAsNeeded session r
  · exact .refl _

theorem Settings.follow_halts (s : Settings) (session : Session) (sender : Sender) (r : Response) :
    (s.follow session sender r).Halts := by
  unfold Settings.follow
  split
  · exact session.pollAsNeeded_halts sender r
  · exact fun w hw => ⟨_, w, rfl, hw⟩

theorem Sender.CutsOff.sendIn (h : Sender.CutsOff n whole cut) (s : Settings) (session : Session)
    {request : Request} (hcancellable : request.cancellable = true) :
    Run.CutsOff n (.error .cancelled) (s.sendIn session whole request)
      (s.sendIn session cut request) := by
  refine .bind (h.send session _ hcancellable) (fun answer => ?_) ?_ fun answer => ?_
  · cases answer with
    | ok r => exact h.follow s session r
    | error e => cases e <;> first | exact h.follow s session _ | exact .refl _
  · intro w result w' hrun
    obtain ⟨rfl, rfl⟩ := Prod.mk.inj (Option.some.inj hrun)
    exact ⟨rfl, .refl w⟩
  · cases answer with
    | ok r => exact s.follow_halts session whole r
    | error e =>
      cases e <;> first | exact s.follow_halts session whole _ | exact fun w hw => ⟨_, w, rfl, hw⟩

theorem Sender.CutsOff.perform (h : Sender.CutsOff n whole cut) (s : Settings) (files : FileTree)
    (now : Instant) :
    Run.CutsOff n (.error (.send .cancelled)) (perform s files now whole)
      (perform s files now cut) := by
  intro w result w' hrun
  rw [perform_apply] at hrun ⊢
  cases hl : s.credentials.authorizer files now w with
  | mk outcome v =>
    rw [hl] at hrun
    cases outcome with
    | error e => exact .same hrun
    | ok authorizer =>
      dsimp only at hrun ⊢
      cases ha : s.request v with
      | mk outcome u =>
        rw [ha] at hrun
        cases outcome with
        | error e => exact .same hrun
        | ok request =>
          have hsend := h.sendIn s (s.session authorizer) (Settings.request_cancellable ha)
          have hconcludes : Run.CutsOff n (.error (.send .cancelled))
              (s.sendIn (s.session authorizer) whole request >>= fun p => s.conclude p)
              (s.sendIn (s.session authorizer) cut request >>= fun p => s.conclude p) := by
            refine .bind hsend (fun _ => .refl _) ?_ fun answer =>
              (s.conclude_onlyWrites answer).halts
            intro w result w' hrun
            obtain ⟨rfl, rfl⟩ := Prod.mk.inj (Option.some.inj hrun)
            exact ⟨rfl, .refl w⟩
          dsimp only at hrun ⊢
          rw [Option.map_eq_bind] at hrun ⊢
          exact hconcludes u result w' hrun

end Steps

end Courier
