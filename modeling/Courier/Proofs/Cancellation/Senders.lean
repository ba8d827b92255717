import Courier.Proofs.Cancellation.Waits

set_option autoImplicit false

/-! # Senders that heed a cancellation

The transport takes no notice of a cancellation, but it makes no wait either. Every step keeps what
has been said of the conduct of a call: a step that waits before it sends does not send if the wait
is cut short, and one that sends again makes no further attempt after one that was cancelled. -/

namespace Courier

/-! ## Waits and what comes after them -/

/-- A wait that is over, and what comes after it. -/
theorem Guarded.of_pause_finished {waits : Wait → Prop} {w v w' : World} {cancelled : Prop}
    {d : Duration} (hp : pause d true w = (.finished, v)) (h : Conduct waits v w' cancelled) :
    Guarded (fun y => y = ⟨w, d⟩ ∨ waits y) w w' cancelled := by
  have hcut : ¬Wait.IsCut ⟨w, d⟩ := by
    unfold Wait.IsCut
    rw [hp]
    simp
  have hover : Wait.over ⟨w, d⟩ = v := congrArg Prod.snd hp
  exact .of_wait hcut (hover ▸ h)

/-- A wait that is cut short, and nothing after it. -/
theorem Guarded.of_pause_cancelled {w v : World} {d : Duration}
    (hp : pause d true w = (.cancelled, v)) : Guarded (· = ⟨w, d⟩) w v True := by
  have hover : Wait.over ⟨w, d⟩ = v := congrArg Prod.snd hp
  exact hover ▸ Guarded.of_cut (x := ⟨w, d⟩) (congrArg Prod.fst hp)

/-! ## Loops -/

section Loops

variable {σ α : Type} {turn : σ → Run (σ ⊕ α)} {waits : σ → World → Wait → Prop} {s s' : σ}
  {w v : World} {x : Wait}

/-- The waits from a turn on that is not the last. -/
theorem Run.waits_next (h : turn s w = some (.inl s', v)) :
    Run.Waits turn waits s w x ↔ waits s w x ∨ Run.Waits turn waits s' v x := by
  constructor
  · intro hx
    cases hx with
    | here made => exact .inl made
    | later next made =>
      obtain ⟨hs, rfl⟩ := Prod.mk.inj (Option.some.inj (h.symm.trans next))
      obtain rfl := Sum.inl.inj hs
      exact .inr made
  · rintro (made | made)
    · exact .here made
    · exact .later h made

/-- The waits of a last turn. -/
theorem Run.waits_last {a : α} (h : turn s w = some (.inr a, v)) :
    Run.Waits turn waits s w x ↔ waits s w x := by
  constructor
  · intro hx
    cases hx with
    | here made => exact made
    | later next made =>
      obtain ⟨hs, -⟩ := Prod.mk.inj (Option.some.inj (h.symm.trans next))
      exact absurd hs (by simp)
  · exact .here

end Loops

/-! ## Steps -/

/-- A sender whose calls conduct themselves well, if its waits can be cancelled. -/
def Sender.Heeds (waits : SendWaits) (next : Sender) : Prop :=
  ∀ request w result w', request.cancellable = true → next request w = some (result, w') →
    Conduct (waits request w) w w' (result = .error .cancelled)

theorem transport_heeds : Sender.Heeds (fun _ _ _ => False) transport := by
  intro request w result w' _ hrun
  rw [transport_apply] at hrun
  obtain ⟨rfl, rfl⟩ := Prod.mk.inj (Option.some.inj hrun)
  refine (conduct_exchanges w request).congr (fun _ => Iff.rfl) ?_
  cases (w.reply 0).answer <;> simp [Answer.brings]

section Steps

variable {waits : SendWaits} {next : Sender}

theorem Sender.Heeds.logged (h : Sender.Heeds waits next) (title : String) :
    Sender.Heeds ((SendStep.logging title).waits next waits) (logged title next) := by
  intro request w result w' hcancellable hrun
  obtain ⟨v, hnext, rfl⟩ := logged_eq_some_iff.1 hrun
  have hv := (h request _ result v hcancellable hnext).after_writes (Act.OnlyWrites.log _ _ w)
  exact hv.then_writes (.one rfl v)

theorem Sender.Heeds.probed (h : Sender.Heeds waits next) (name : String) :
    Sender.Heeds ((SendStep.probe name).waits next waits) (probed name next) := by
  intro request w result w' hcancellable hrun
  obtain ⟨v, hnext, rfl⟩ := probed_eq_some_iff.1 hrun
  have hv := (h request _ result v hcancellable hnext).after_writes
    (World.Writes.one (show (Event.entered name).isSent = false from rfl) w)
  exact hv.then_writes (.one rfl v)

theorem Sender.Heeds.checked (h : Sender.Heeds waits next) (codes : List Status)
    (failOnMatch : Bool) : Sender.Heeds waits (checked codes failOnMatch next) := by
  intro request w result w' hcancellable hrun
  obtain ⟨answer, hnext, rfl⟩ := checked_eq_some_iff.1 hrun
  refine (h request w answer w' hcancellable hnext).congr (fun _ => Iff.rfl) ?_
  cases answer with
  | error e => exact Iff.rfl
  | ok r =>
    simp only [checkedResult]
    split <;> simp [SendError.rejection]

theorem Sender.Heeds.closing (h : Sender.Heeds waits next) :
    Sender.Heeds waits (closing next) := by
  intro request w result w' hcancellable hrun
  rcases closing_eq_some_iff.1 hrun with ⟨r, hnext, rfl⟩ | ⟨e, v, hnext, rfl, rfl⟩
  · exact h request w _ w' hcancellable hnext
  · have hwrites := e.closeResponse_onlyWrites v
    rw [SendError.closeResponse_apply] at hwrites
    refine ((h request w _ v hcancellable hnext).then_writes hwrites).congr (fun _ => Iff.rfl) ?_
    cases e <;> simp [SendError.closed]

theorem delayedWaits_of_finished {delay : Duration} {request : Request} {w v : World}
    (hp : pause delay request.cancellable w = (.finished, v)) (x : Wait) :
    delayedWaits delay waits request w x ↔ x = ⟨w, delay⟩ ∨ waits request v x := by
  refine or_congr Iff.rfl ⟨?_, fun hx => ⟨v, hp, hx⟩⟩
  rintro ⟨u, hu, hx⟩
  obtain ⟨-, rfl⟩ := Prod.mk.inj (hp.symm.trans hu)
  exact hx

theorem delayedWaits_of_cancelled {delay : Duration} {request : Request} {w v : World}
    (hp : pause delay request.cancellable w = (.cancelled, v)) (x : Wait) :
    delayedWaits delay waits request w x ↔ x = ⟨w, delay⟩ := by
  refine ⟨?_, .inl⟩
  rintro (hx | ⟨u, hu, -⟩)
  · exact hx
  · exact absurd (Prod.mk.inj (hp.symm.trans hu)).1 (by simp)

theorem Sender.Heeds.delayed (h : Sender.Heeds waits next) (delay : Duration) :
    Sender.Heeds (delayedWaits delay waits) (delayed delay next) := by
  intro request w result w' hcancellable hrun
  rcases delayed_eq_some_iff.1 hrun with ⟨hp, rfl⟩ | ⟨v, hp, hnext⟩
  · have hcut := Guarded.of_pause_cancelled (hcancellable ▸ hp)
    exact (hcut.congr (delayedWaits_of_cancelled hp) (by simp)).toConduct
  · have hrest := h request v result w' hcancellable hnext
    have hwait := Guarded.of_pause_finished (hcancellable ▸ hp) hrest
    exact (hwait.congr (delayedWaits_of_finished hp) Iff.rfl).toConduct

section Retry

variable {policy : RetryPolicy} {limit : Budget} {request : Request} {start n : Nat}
  {v back : World}

/-- The waits of a turn whose attempt has failed and is not the last. -/
theorem retryTurnWaits_of_goes {e : SendError} (called : next request v = some (.error e, back))
    (goes : endsRetry limit (n + 1) (back.clock - start) (.error e) = false) (x : Wait) :
    retryTurnWaits policy limit next waits request start n v x ↔
      waits request v x ∨ x = ⟨back.putsAway policy request n e, policy.delayForRetry n⟩ := by
  unfold retryTurnWaits
  refine or_congr Iff.rfl ⟨?_, fun hx => ⟨e, back, called, goes, hx⟩⟩
  rintro ⟨e', back', called', -, hx⟩
  obtain ⟨he, rfl⟩ := Prod.mk.inj (Option.some.inj (called.symm.trans called'))
  obtain rfl := Except.error.inj he
  exact hx

/-- The waits of a turn whose attempt is the last. -/
theorem retryTurnWaits_of_ends {result : SendResult} (called : next request v = some (result, back))
    (ends : endsRetry limit (n + 1) (back.clock - start) result = true) (x : Wait) :
    retryTurnWaits policy limit next waits request start n v x ↔ waits request v x := by
  unfold retryTurnWaits
  refine ⟨?_, .inl⟩
  rintro (hx | ⟨e, back', called', goes, -⟩)
  · exact hx
  · obtain ⟨rfl, rfl⟩ := Prod.mk.inj (Option.some.inj (called.symm.trans called'))
    rw [ends] at goes
    exact absurd goes (by simp)

end Retry

/-- No attempt follows one that was cancelled, and a wait lies between any two. -/
theorem Sender.Heeds.retried (h : Sender.Heeds waits next) (policy : RetryPolicy)
    (limit : Budget) :
    Sender.Heeds ((SendStep.retry policy limit).waits next waits) (retried policy limit next) := by
  intro request w result w' hcancellable hrun
  have hgoes : ∀ {n v e back}, next request v = some (.error e, back) →
      endsRetry limit (n + 1) (back.clock - w.clock) (.error e) = false →
      Conduct (waits request v) v (back.putsAway policy request n e) False := by
    intro n v e back called goes
    obtain ⟨e', he, hcancelled⟩ := exists_error_of_goes goes
    obtain rfl := Except.error.inj he
    refine ((h request v _ _ hcancellable called).then_writes
      (back.writes_putsAway policy request n e)).congr (fun _ => Iff.rfl) ?_
    simpa using hcancelled
  -- What is said of the loop is said of it from any attempt on.
  refine Run.iterate_from (fun n v result w' => Conduct (Run.Waits
    (retryTurn policy limit next request w.clock)
    (retryTurnWaits policy limit next waits request w.clock) n v) v w'
    (result = .error .cancelled)) ?_ ?_ hrun
  · intro n v n' u result w' hturn hrest
    cases retryTurn_eq_some_iff.1 hturn with
    | again called goes waited =>
      have hwait := Guarded.of_pause_finished (hcancellable ▸ waited) hrest
      refine ((hgoes called goes).followed hwait).congr (fun x => ?_) (by simp)
      rw [Run.waits_next hturn, retryTurnWaits_of_goes called goes, or_assoc]
  · intro n v result w' hturn
    cases retryTurn_eq_some_iff.1 hturn with
    | last called ends =>
      refine (h request v _ _ hcancellable called).congr (fun x => ?_) Iff.rfl
      rw [Run.waits_last hturn, retryTurnWaits_of_ends called ends]
    | interrupted called goes waited =>
      have hwait := Guarded.of_pause_cancelled (hcancellable ▸ waited)
      refine ((hgoes called goes).followed hwait).congr (fun x => ?_) (by simp)
      rw [Run.waits_last hturn, retryTurnWaits_of_goes called goes]

/-- **Every step heeds a cancellation** if what it wraps does. -/
theorem Sender.Heeds.decorate (h : Sender.Heeds waits next) (step : SendStep) :
    Sender.Heeds (step.waits next waits) (step.decorate next) := by
  cases step with
  | asIs => exact h
  | logging title => exact h.logged title
  | errorIf codes => exact h.checked codes true
  | errorUnless codes => exact h.checked codes false
  | closeIfError => exact h.closing
  | afterDelay delay => exact h.delayed delay
  | retry policy limit => exact h.retried policy limit
  | probe name => exact h.probed name

/-- Every stack of steps around the transport heeds a cancellation. -/
theorem decorateSender_heeds (steps : List SendStep) :
    Sender.Heeds (stepsWaits steps) (decorateSender steps transport) := by
  induction steps with
  | nil => exact transport_heeds
  | cons step rest ih => exact ih.decorate step

end Steps

end Courier
