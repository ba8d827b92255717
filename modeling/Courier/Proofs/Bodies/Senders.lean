import Courier.Proofs.Bodies.Ledger
import Courier.Proofs.Exchange.Gate

set_option autoImplicit false

/-! # Senders that account for readers

A sender is careful if it takes over books with nothing held and hands them back with nothing held
but the reader of the response that it brings. The transport is careful, and every step keeps a
sender careful, so every stack of steps is. Whether the response of an error may be closed depends
on whether there is a step that closes it. -/

namespace Courier

/-! ## Handing over -/

/-- Whether a response has no body that has been closed. -/
def Response.IsUnclosed (r : Response) : Prop := ∀ b, r.body = some b → b.isOpen = true

/-- What a sender hands back: the books, with the reader of its response held, and a response that
    has not been closed, unless errors may bring closed ones. -/
structure Handover (start : World) (closes : Prop) (result : SendResult) (w : World) : Prop where
  ledger : Ledger start w (SendResult.openReader? result)
  unclosed : ∀ r, SendResult.response? result = some r →
    (closes ∧ ∃ e, result = .error e) ∨ r.IsUnclosed

namespace Handover

variable {start w : World} {closes : Prop} {result : SendResult}

/-- A result without a response is handed back with nothing held. -/
theorem of_no_response (h : Ledger start w none) (hr : SendResult.response? result = none) :
    Handover start closes result w := by
  constructor
  · have hnone : SendResult.openReader? result = none := by
      rw [SendResult.openReader?, hr, Option.bind_none]
    rw [hnone]
    exact h
  · intro r hsome
    rw [hr] at hsome
    exact absurd hsome (by simp)

/-- A response that is its own result is handed back open. -/
theorem of_ok {r : Response} (h : Ledger start w r.openReader?) (hr : r.IsUnclosed) :
    Handover start closes (.ok r) w := by
  refine ⟨h, fun r' h' => .inr ?_⟩
  obtain rfl : r = r' := Option.some.inj h'
  exact hr

/-- Errors may bring more closed responses. -/
theorem weaken (h : Handover start closes result w) {more : Prop} (hmore : closes → more) :
    Handover start more result w :=
  ⟨h.ledger, fun r hr => (h.unclosed r hr).imp_left fun ⟨hc, he⟩ => ⟨hmore hc, he⟩⟩

/-- A quiet event does not matter. -/
theorem write_quiet_one (h : Handover start closes result w) (event : Event)
    (hq : event.isQuiet = true) : Handover start closes result (w.write [event]) :=
  ⟨h.ledger.write_quiet_one event hq, h.unclosed⟩

/-- A response that is its own result has not been closed. -/
theorem isUnclosed_of_ok {r : Response} (h : Handover start closes (.ok r) w) : r.IsUnclosed := by
  rcases h.unclosed r rfl with ⟨-, e, he⟩ | hr
  · exact absurd he (by simp)
  · exact hr

/-- A response that is rejected travels with its body as it is. -/
theorem reject {r : Response} (h : Handover start closes (.ok r) w) (request : Request) :
    Handover start closes (.error (.rejection request r)) w := by
  refine ⟨h.ledger, fun r' hr' => .inr ?_⟩
  obtain rfl : r = r' := Option.some.inj hr'
  exact h.isUnclosed_of_ok

/-- The books after an error has been put away. -/
theorem close_error {e : SendError} (h : Handover start closes (.error e) w) :
    Ledger start (w.write e.closingEvents) none :=
  h.ledger.write_closing e.closesJust_closingEvents

/-- The books after a result has been dropped. -/
theorem drop (h : Handover start closes result w) :
    Ledger start (w.write (SendResult.droppingEvents result)) none :=
  h.ledger.write_closing (SendResult.closesJust_droppingEvents result)

end Handover

/-! ## Careful senders -/

/-- A sender that accounts for all readers; errors may bring closed responses if `closes` says
    so. -/
def Sender.Careful (closes : Prop) (next : Sender) : Prop :=
  ∀ start request w result w', Ledger start w none → next request w = some (result, w') →
    Handover start closes result w'

/-- What an answer brings is open. -/
theorem isUnclosed_brings (a : Answer) (n : Nat) {r : Response}
    (h : SendResult.response? (a.brings n) = some r) : r.IsUnclosed := by
  cases a with
  | response status headers body =>
    obtain rfl := Option.some.inj h
    intro b hb
    obtain ⟨_, -, rfl⟩ := Option.map_eq_some_iff.1 hb
    rfl
  | timeout => exact absurd h (by simp [Answer.brings, SendResult.response?, SendError.response?])
  | connection reason =>
    exact absurd h (by simp [Answer.brings, SendResult.response?, SendError.response?])
  | invalidUrl reason =>
    exact absurd h (by simp [Answer.brings, SendResult.response?, SendError.response?])

theorem transport_careful : Sender.Careful False transport := by
  intro start request w result w' hw h
  rw [transport_apply] at h
  obtain ⟨rfl, rfl⟩ := Prod.mk.inj (Option.some.inj h)
  exact ⟨hw.exchanges request, fun r hr => .inr (isUnclosed_brings _ _ hr)⟩

theorem Sender.Careful.gated {closes : Prop} {next : Sender} (h : Sender.Careful closes next)
    (isOpen : World → Bool) : Sender.Careful closes (Sender.gated isOpen next) := by
  intro start request w result w' hw hrun
  unfold Sender.gated at hrun
  cases ho : isOpen w with
  | true =>
    rw [ho, if_pos rfl] at hrun
    exact h start request w result w' hw hrun
  | false =>
    rw [ho, if_neg (by simp)] at hrun
    obtain ⟨rfl, rfl⟩ := Prod.mk.inj (Option.some.inj hrun)
    exact .of_no_response hw rfl

/-! ## Steps -/

section Steps

variable {closes : Prop} {next : Sender}

theorem Sender.Careful.logged (h : Sender.Careful closes next) (title : String) :
    Sender.Careful closes (logged title next) := by
  intro start request w result w' hw hrun
  obtain ⟨v, hnext, rfl⟩ := logged_eq_some_iff.1 hrun
  exact (h start request _ result v (hw.write_quiet_one _ rfl) hnext).write_quiet_one _ rfl

theorem Sender.Careful.probed (h : Sender.Careful closes next) (name : String) :
    Sender.Careful closes (probed name next) := by
  intro start request w result w' hw hrun
  obtain ⟨v, hnext, rfl⟩ := probed_eq_some_iff.1 hrun
  exact (h start request _ result v (hw.write_quiet_one _ rfl) hnext).write_quiet_one _ rfl

theorem Sender.Careful.checked (h : Sender.Careful closes next) (codes : List Status)
    (failOnMatch : Bool) : Sender.Careful closes (checked codes failOnMatch next) := by
  intro start request w result w' hw hrun
  obtain ⟨answer, hnext, rfl⟩ := checked_eq_some_iff.1 hrun
  have hv := h start request w answer w' hw hnext
  cases answer with
  | error e => exact hv
  | ok r =>
    simp only [checkedResult]
    split
    · exact hv.reject request
    · exact hv

/-- A step that closes the response of an error brings a closed one. -/
theorem Sender.Careful.closing (h : Sender.Careful closes next) :
    Sender.Careful True (closing next) := by
  intro start request w result w' hw hrun
  rcases closing_eq_some_iff.1 hrun with ⟨r, hnext, rfl⟩ | ⟨e, v, hnext, rfl, rfl⟩
  · exact (h start request w _ w' hw hnext).weaken fun _ => trivial
  · refine ⟨?_, fun r _ => .inl ⟨trivial, e.closed, rfl⟩⟩
    rw [SendResult.openReader?_closed]
    exact (h start request w _ v hw hnext).close_error

theorem Ledger.pause {start w w' : World} {held : Option Nat} (h : Ledger start w held)
    {d : Duration} {cancellable : Bool} {outcome : Pause}
    (hp : pause d cancellable w = (outcome, w')) : Ledger start w' held := by
  obtain ⟨t, ht⟩ := pause_world d cancellable w
  rw [hp] at ht
  rw [show w' = { w with clock := t } from ht]
  exact h.clock t

theorem Sender.Careful.delayed (h : Sender.Careful closes next) (delay : Duration) :
    Sender.Careful closes (delayed delay next) := by
  intro start request w result w' hw hrun
  rcases delayed_eq_some_iff.1 hrun with ⟨hwait, rfl⟩ | ⟨v, hwait, hnext⟩
  · exact .of_no_response (hw.pause hwait) rfl
  · exact h start request v result w' (hw.pause hwait) hnext

/-- A failed attempt is put away before the next one, and nothing is held in between. -/
theorem Sender.Careful.retried (h : Sender.Careful closes next) (policy : RetryPolicy)
    (limit : Budget) : Sender.Careful closes (retried policy limit next) := by
  intro start request w result w' hw hrun
  have hput : ∀ {e v n}, Handover start closes (.error e) v →
      Ledger start (v.putsAway policy request n e) none := by
    intro e v n hv
    exact hv.ledger.write_closing (e.closesJust_closingEvents.append_quiet rfl)
  -- The invariant: nothing is held when an attempt begins.
  refine Run.iterate_keeps (fun _ v => Ledger start v none)
    (fun result w' => Handover start closes result w') ?_ ?_ hw hrun
  · intro n v n' v' hv hturn
    cases retryTurn_eq_some_iff.1 hturn with
    | again called goes waited => exact (hput (h start request v _ _ hv called)).pause waited
  · intro n v answer v' hv hturn
    cases retryTurn_eq_some_iff.1 hturn with
    | last called ends => exact h start request v _ _ hv called
    | interrupted called goes waited =>
      exact .of_no_response ((hput (h start request v _ _ hv called)).pause waited) rfl

/-- Every step keeps a sender careful. -/
theorem Sender.Careful.decorate (h : Sender.Careful closes next) (step : SendStep) :
    Sender.Careful (closes ∨ step = .closeIfError) (step.decorate next) := by
  have widen : ∀ {s : Sender}, Sender.Careful closes s →
      Sender.Careful (closes ∨ step = .closeIfError) s := by
    intro s hs start request w result w' hw hrun
    exact (hs start request w result w' hw hrun).weaken .inl
  cases step with
  | asIs => exact widen h
  | logging title => exact widen (h.logged title)
  | errorIf codes => exact widen (h.checked codes true)
  | errorUnless codes => exact widen (h.checked codes false)
  | closeIfError =>
    intro start request w result w' hw hrun
    exact (h.closing start request w result w' hw hrun).weaken fun _ => .inr rfl
  | afterDelay delay => exact widen (h.delayed delay)
  | retry policy limit => exact widen (h.retried policy limit)
  | probe name => exact widen (h.probed name)

/-- Every stack of steps keeps a sender careful; it lets errors bring closed responses only by a
    step that closes them. -/
theorem Sender.Careful.decorateSender (h : Sender.Careful closes next) (steps : List SendStep) :
    Sender.Careful (closes ∨ .closeIfError ∈ steps) (decorateSender steps next) := by
  induction steps with
  | nil =>
    intro start request w result w' hw hrun
    exact (h start request w result w' hw hrun).weaken .inl
  | cons step rest ih =>
    intro start request w result w' hw hrun
    refine (ih.decorate step start request w result w' hw hrun).weaken ?_
    rintro ((hc | hrest) | rfl)
    · exact .inl hc
    · exact .inr (List.mem_cons_of_mem _ hrest)
    · exact .inr List.mem_cons_self

end Steps

end Courier
