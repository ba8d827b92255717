import Courier.Proofs.Exchange.Stages

set_option autoImplicit false

/-! # What exchanges keep

Between two exchanges a call only writes and waits. So what the exchanges keep, and what writing and
waiting keep, holds at the end of the call; and what is true of every response that the service
brings is true of the one that the call brings, unless a step closes it. -/

namespace Courier

/-- What neither writing nor waiting touches. -/
structure World.Steady (I : World → Prop) : Prop where
  write : ∀ {w w' : World}, w.Writes w' → I w → I w'
  clock : ∀ {w : World} (time : Nat), I w → I { w with clock := time }

/-- A sender that keeps an invariant of the world for the requests that are asked of it, and brings
    no responses but some. -/
def Sender.Keeps (asks : Request → Prop) (I : World → Prop) (R : Response → Prop)
    (next : Sender) : Prop :=
  ∀ request w result w', asks request → I w → next request w = some (result, w') →
    I w' ∧ ∀ r, SendResult.response? result = some r → R r

section Steps

variable {asks : Request → Prop} {I : World → Prop} {R : Response → Prop} {next : Sender}

/-- A wait keeps what is steady. -/
theorem World.Steady.pause (hI : World.Steady I) {d : Duration} {cancellable : Bool} {w w' : World}
    {outcome : Pause} (hp : pause d cancellable w = (outcome, w')) (hw : I w) : I w' := by
  obtain ⟨t, ht⟩ := pause_world d cancellable w
  rw [hp] at ht
  rw [show w' = { w with clock := t } from ht]
  exact hI.clock t hw

theorem Sender.Keeps.logged (h : Sender.Keeps asks I R next) (hI : World.Steady I)
    (title : String) : Sender.Keeps asks I R (logged title next) := by
  intro request w result w' hasked hw hrun
  obtain ⟨v, hnext, rfl⟩ := logged_eq_some_iff.1 hrun
  obtain ⟨hv, hR⟩ := h request _ result v hasked (hI.write (.one rfl w) hw) hnext
  exact ⟨hI.write (.one rfl v) hv, hR⟩

theorem Sender.Keeps.probed (h : Sender.Keeps asks I R next) (hI : World.Steady I)
    (name : String) : Sender.Keeps asks I R (probed name next) := by
  intro request w result w' hasked hw hrun
  obtain ⟨v, hnext, rfl⟩ := probed_eq_some_iff.1 hrun
  obtain ⟨hv, hR⟩ := h request _ result v hasked (hI.write (.one rfl w) hw) hnext
  exact ⟨hI.write (.one rfl v) hv, hR⟩

theorem Sender.Keeps.checked (h : Sender.Keeps asks I R next) (codes : List Status)
    (failOnMatch : Bool) : Sender.Keeps asks I R (checked codes failOnMatch next) := by
  intro request w result w' hasked hw hrun
  obtain ⟨answer, hnext, rfl⟩ := checked_eq_some_iff.1 hrun
  have hv := h request w answer w' hasked hw hnext
  rwa [response?_checkedResult]

theorem SendError.response?_closed (e : SendError) :
    e.closed.response? = e.response?.map Response.closed := by
  cases e <;> rfl

/-- A step that closes the response of an error brings a closed one. -/
theorem Sender.Keeps.closing (h : Sender.Keeps asks I R next) (hI : World.Steady I)
    (hR : ∀ r, R r → R r.closed) : Sender.Keeps asks I R (closing next) := by
  intro request w result w' hasked hw hrun
  rcases closing_eq_some_iff.1 hrun with ⟨r, hnext, rfl⟩ | ⟨e, v, hnext, rfl, rfl⟩
  · exact h request w _ w' hasked hw hnext
  · obtain ⟨hv, hbrings⟩ := h request w _ v hasked hw hnext
    have hwrites := e.closeResponse_onlyWrites v
    rw [SendError.closeResponse_apply] at hwrites
    refine ⟨hI.write hwrites hv, fun r hr => ?_⟩
    obtain ⟨r', hr', rfl⟩ := Option.map_eq_some_iff.1 ((SendError.response?_closed e).symm.trans hr)
    exact hR r' (hbrings r' hr')

theorem Sender.Keeps.delayed (h : Sender.Keeps asks I R next) (hI : World.Steady I)
    (delay : Duration) : Sender.Keeps asks I R (delayed delay next) := by
  intro request w result w' hasked hw hrun
  rcases delayed_eq_some_iff.1 hrun with ⟨hwait, rfl⟩ | ⟨v, hwait, hnext⟩
  · exact ⟨hI.pause hwait hw, by simp [SendResult.response?, SendError.response?]⟩
  · exact h request v result w' hasked (hI.pause hwait hw) hnext

/-- Every attempt keeps the invariant, and so does what lies between two of them. -/
theorem Sender.Keeps.retried (h : Sender.Keeps asks I R next) (hI : World.Steady I)
    (policy : RetryPolicy) (limit : Budget) :
    Sender.Keeps asks I R (retried policy limit next) := by
  intro request w result w' hasked hw hrun
  refine Run.iterate_keeps (fun _ v => I v)
    (fun result w' => I w' ∧ ∀ r, SendResult.response? result = some r → R r) ?_ ?_ hw hrun
  · intro n v n' v' hv hturn
    cases retryTurn_eq_some_iff.1 hturn with
    | again called goes waited =>
      have hback := (h request v _ _ hasked hv called).1
      exact hI.pause waited (hI.write (World.writes_putsAway ..) hback)
  · intro n v answer v' hv hturn
    cases retryTurn_eq_some_iff.1 hturn with
    | last called ends => exact h request v _ _ hasked hv called
    | interrupted called goes waited =>
      exact ⟨hI.pause waited (hI.write (World.writes_putsAway ..)
        (h request v _ _ hasked hv called).1), by simp [SendResult.response?, SendError.response?]⟩

/-- Every stack of steps keeps what its sender keeps. -/
theorem Sender.Keeps.decorateSender (h : Sender.Keeps asks I R next) (hI : World.Steady I)
    {steps : List SendStep} (hR : .closeIfError ∈ steps → ∀ r, R r → R r.closed) :
    Sender.Keeps asks I R (decorateSender steps next) := by
  induction steps with
  | nil => exact h
  | cons step rest ih =>
    have hrest := ih fun hmem => hR (List.mem_cons_of_mem _ hmem)
    cases step with
    | asIs => exact hrest
    | logging title => exact hrest.logged hI title
    | errorIf codes => exact hrest.checked codes true
    | errorUnless codes => exact hrest.checked codes false
    | closeIfError => exact hrest.closing hI (hR List.mem_cons_self)
    | afterDelay delay => exact hrest.delayed hI delay
    | retry policy limit => exact hrest.retried hI policy limit
    | probe name => exact hrest.probed hI name

/-! ## Polls -/

/-- A loop of polls keeps what its sender keeps for all requests. -/
theorem Sender.Keeps.poll (h : Sender.Keeps (fun _ => True) I R next) (hI : World.Steady I)
    {plan : PollingPlan} {delay : Duration} {request : Request} {w w' : World} {result : SendResult}
    (hw : I w) (hrun : poll next plan delay request w = some (result, w')) :
    I w' ∧ ∀ r, SendResult.response? result = some r → R r := by
  have hcalled : ∀ {p : Polling} {v : World} {c : Call}, I v →
      next.callAfter p.delay p.request v = some c →
      I c.back ∧ ∀ r, SendResult.response? c.result = some r → R r := by
    intro p v c hv hcall
    obtain ⟨waited, -, called⟩ := Sender.callAfter_eq_some.1 hcall
    exact h p.request c.sent c.result c.back trivial (hI.pause waited hv) called
  refine Run.iterate_keeps (fun _ v => I v)
    (fun result w' => I w' ∧ ∀ r, SendResult.response? result = some r → R r) ?_ ?_ hw hrun
  · intro p v q v' hv hturn
    rcases pollTurn_eq_some_iff.1 hturn with ⟨-, hstop⟩ | ⟨c, hcall, hafter⟩
    · exact absurd hstop (by simp)
    · exact hI.write hafter.writes (hcalled hv hcall).1
  · intro p v answer v' hv hturn
    rcases pollTurn_eq_some_iff.1 hturn with ⟨hwait, hstop⟩ | ⟨c, hcall, hafter⟩
    · obtain rfl := Sum.inr.inj hstop
      exact ⟨hI.pause hwait hv, by simp [SendResult.response?, SendError.response?]⟩
    · obtain ⟨hback, hR⟩ := hcalled hv hcall
      refine ⟨hI.write hafter.writes hback, fun r hr => hR r ?_⟩
      generalize c.result = outcome at hafter
      cases hafter with
      | failed => exact hr
      | finished => exact hr
      | exhausted => exact hr
      | astray => exact absurd hr (by simp [SendResult.response?, SendError.response?])

/-- A session that polls if need be keeps what its sender keeps. -/
theorem Sender.Keeps.pollAsNeeded (h : Sender.Keeps (fun _ => True) I R next)
    (hI : World.Steady I) (s : Session) {r : Response} {cancellable : Bool} {w w' : World}
    {result : SendResult} (hw : I w) (hr : R r)
    (hrun : s.pollAsNeeded next r cancellable w = some (result, w')) :
    I w' ∧ ∀ r, SendResult.response? result = some r → R r := by
  rw [s.pollAsNeeded_apply] at hrun
  cases hs : s.shouldPoll r with
  | false =>
    rw [hs, if_neg (by simp)] at hrun
    obtain ⟨rfl, rfl⟩ := Prod.mk.inj (Option.some.inj hrun)
    exact ⟨hw, fun r' hr' => Option.some.inj hr' ▸ hr⟩
  | true =>
    rw [hs, if_pos rfl] at hrun
    have hv := hI.write (s.preparePolling_onlyWrites cancellable r w) hw
    cases hp : s.preparePolling cancellable r w with
    | mk outcome v =>
      rw [hp] at hrun hv
      cases outcome with
      | error e =>
        obtain ⟨rfl, rfl⟩ := Prod.mk.inj (Option.some.inj hrun)
        refine ⟨hv, fun r' hr' => ?_⟩
        rw [show SendResult.response? (.error e) = e.response? from rfl,
          (Session.preparePolling_error hp).1] at hr'
        exact absurd hr' (by simp)
      | ok request => exact h.poll hI hv hrun

end Steps

end Courier
