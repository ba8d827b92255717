import Courier.Proofs.Cancellation.Passage
import Courier.Proofs.Layers.Onion

set_option autoImplicit false

/-! # Retries within retries

To a retry it makes no difference what its sender has done before it failed: that is one failed
attempt, whatever it took. So where the service never brings a response, a retry inside another one
uses up all its attempts each time, and starts afresh with the next attempt of the outer one.

The requests that go out between two moments are counted along with the passage from one to the
other. The counts of passages that follow each other add up, so those of a loop multiply. -/

namespace Courier

/-! ## Services that fail -/

/-- Why an answer brings no response, if it brings none. -/
def Answer.failure? : Answer → Option TransportError
  | .response _ _ _ => none
  | .timeout => some .timeout
  | .connection reason => some (.connection [.plain reason])
  | .invalidUrl reason => some (.invalidUrl reason)

theorem Answer.brings_of_failure? {a : Answer} {e : TransportError} (h : a.failure? = some e)
    (n : Nat) : a.brings n = .error (.transport e) := by
  cases a with
  | response status headers body => exact absurd h (by simp [Answer.failure?])
  | timeout => exact Option.some.inj h ▸ rfl
  | connection reason => exact Option.some.inj h ▸ rfl
  | invalidUrl reason => exact Option.some.inj h ▸ rfl

/-- Whether none of the replies that are still to come brings a response. -/
def World.FailsAlways (w : World) : Prop := ∀ i, (w.reply i).answer.failure?.isSome = true

theorem World.failsAlways_of_forall {w : World}
    (h : ∀ reply ∈ w.fallback :: w.script, reply.answer.failure?.isSome = true) :
    w.FailsAlways := by
  intro i
  obtain ⟨hfallback, hscript⟩ := List.forall_mem_cons.1 h
  unfold World.reply
  rw [List.getD_eq_getElem?_getD]
  cases hi : w.script[i]? with
  | none => exact hfallback
  | some reply => exact hscript reply (List.mem_of_getElem? hi)

/-! ## Requests that go out -/

/-- The requests that go out, as some entries tell. -/
def requestsIn (entries : List Entry) : List Request :=
  entries.filterMap fun entry =>
    match entry.event with
    | .sent _ request _ => some request
    | _ => none

theorem requestsIn_append (first rest : List Entry) :
    requestsIn (first ++ rest) = requestsIn first ++ requestsIn rest :=
  List.filterMap_append

theorem requestsIn_eq_nil {entries : List Entry}
    (h : ∀ entry ∈ entries, entry.event.isSent = false) : requestsIn entries = [] := by
  refine List.filterMap_eq_nil_iff.2 fun entry hentry => ?_
  have hquiet := h entry hentry
  cases he : entry.event with
  | sent number request isCancelled => simp [he, Event.isSent] at hquiet
  | _ => rfl

theorem length_requestsIn (entries : List Entry) :
    (requestsIn entries).length = sendsIn entries := by
  induction entries with
  | nil => rfl
  | cons entry rest ih =>
    obtain ⟨time, event⟩ := entry
    unfold requestsIn sendsIn at ih ⊢
    rw [List.filterMap_cons, List.countP_cons]
    cases event <;> simp [ih, Event.isSent]

/-- Whether from one moment to another some number of requests went out, all of them the same. -/
structure World.Sends (request : Request) (n : Nat) (w w' : World) : Prop where
  passage : Passage w w'
  requests : requestsIn (w'.since w) = List.replicate n request

namespace World.Sends

variable {request : Request} {w v u : World} {m n : Nat}

/-- As many replies are used up. -/
theorem replies (h : World.Sends request n w v) (i : Nat) : v.reply i = w.reply (n + i) := by
  rw [h.passage.replies, ← length_requestsIn, h.requests, List.length_replicate]

theorem failsAlways (h : World.Sends request n w v) (hw : w.FailsAlways) : v.FailsAlways := by
  intro i
  rw [h.replies]
  exact hw (n + i)

/-- What is sent first and what is sent after that. -/
theorem trans (h : World.Sends request m w v) (h' : World.Sends request n v u) :
    World.Sends request (m + n) w u where
  passage := h.passage.trans h'.passage
  requests := by
    rw [World.since_append h.passage.grows h'.passage.grows, requestsIn_append, h.requests,
      h'.requests, List.replicate_add]

/-- What only writes sends nothing. -/
theorem of_writes (request : Request) (h : w.Writes v) : World.Sends request 0 w v :=
  ⟨.of_writes h, requestsIn_eq_nil fun entry hentry => (h.entries entry hentry).2⟩

/-- A wait sends nothing. -/
theorem of_wait (request : Request) (w : World) (d : Duration) :
    World.Sends request 0 w (w.wait d) :=
  ⟨.of_clock (Nat.le_add_right _ _), by simp [World.since, World.wait, requestsIn]⟩

theorem of_exchange (request : Request) (w : World) :
    World.Sends request 1 w (w.exchanges request) :=
  ⟨passage_exchanges w request, by rw [World.since_exchanges]; rfl⟩

end World.Sends

/-! ## Calls that fail -/

/-- What a call comes to that sends a request some number of times and fails: its error is that of
the last reply. -/
structure FruitlessCall (request : Request) (n : Nat) (w : World) (result : SendResult)
    (w' : World) : Prop where
  positive : 0 < n
  sends : World.Sends request n w w'
  failed : ∃ e, result = .error (.transport e) ∧ (w.reply (n - 1)).answer.failure? = some e

namespace FruitlessCall

variable {request : Request} {w v w' : World} {result : SendResult} {m n : Nat}

/-- What is sent before the call counts as well, but the last reply is the same. -/
theorem after (before : World.Sends request m w v) (h : FruitlessCall request n v result w') :
    FruitlessCall request (m + n) w result w' := by
  obtain ⟨hpos, hsends, e, rfl, he⟩ := h
  rw [before.replies, ← Nat.add_sub_assoc hpos] at he
  exact ⟨Nat.add_pos_right m hpos, before.trans hsends, e, rfl, he⟩

theorem followed (h : FruitlessCall request n w result v) (rest : World.Sends request 0 v w') :
    FruitlessCall request n w result w' :=
  ⟨h.positive, h.sends.trans rest, h.failed⟩

/-- A call with nothing sent before it or after it. -/
theorem around {u : World} (before : World.Sends request 0 w v)
    (h : FruitlessCall request n v result u) (rest : World.Sends request 0 u w') :
    FruitlessCall request n w result w' := by
  simpa using (h.after before).followed rest

end FruitlessCall

/-- Whether a sender sends a request some number of times and fails, where the service never brings
a response and no wait is cut short. -/
def Sender.FailsAfter (n : Nat) (next : Sender) : Prop :=
  ∀ request w, request.cancellable = false → w.FailsAlways →
    ∃ result w', next request w = some (result, w') ∧ FruitlessCall request n w result w'

theorem transport_failsAfter : Sender.FailsAfter 1 transport := by
  intro request w _ hfails
  obtain ⟨e, he⟩ := Option.isSome_iff_exists.1 (hfails 0)
  exact ⟨_, _, transport_apply request w, Nat.one_pos, .of_exchange request w, e,
    Answer.brings_of_failure? he _, he⟩

section Steps

variable {n : Nat} {next : Sender}

/-- A wait that cannot be cancelled is over some time, and nothing is sent. -/
theorem World.Sends.of_pause {request : Request} (hrequest : request.cancellable = false)
    (d : Duration) (w : World) :
    pause d request.cancellable w = (.finished, w.wait d) ∧
      World.Sends request 0 w (w.wait d) :=
  ⟨pause_finishes fun hcancellable => absurd hcancellable (by simp [hrequest]),
    .of_wait request w d⟩

theorem Sender.FailsAfter.logged (h : Sender.FailsAfter n next) (title : String) :
    Sender.FailsAfter n (logged title next) := by
  intro request w hrequest hfails
  have hbefore := World.Sends.of_writes request
    (.one rfl w : w.Writes (w.write [.logged .info (sendingMessage title request)]))
  obtain ⟨result, v, hnext, hcall⟩ := h request _ hrequest (hbefore.failsAlways hfails)
  exact ⟨_, _, logged_eq_some_iff.2 ⟨v, hnext, rfl⟩,
    hcall.around hbefore (.of_writes request (.one rfl v))⟩

theorem Sender.FailsAfter.probed (h : Sender.FailsAfter n next) (name : String) :
    Sender.FailsAfter n (probed name next) := by
  intro request w hrequest hfails
  have hbefore := World.Sends.of_writes request (.one rfl w : w.Writes (w.write [.entered name]))
  obtain ⟨result, v, hnext, hcall⟩ := h request _ hrequest (hbefore.failsAlways hfails)
  exact ⟨_, _, probed_eq_some_iff.2 ⟨v, hnext, rfl⟩,
    hcall.around hbefore (.of_writes request (.one rfl v))⟩

/-- A check is only made of responses. -/
theorem Sender.FailsAfter.checked (h : Sender.FailsAfter n next) (codes : List Status)
    (failOnMatch : Bool) : Sender.FailsAfter n (checked codes failOnMatch next) := by
  intro request w hrequest hfails
  obtain ⟨result, w', hnext, hcall⟩ := h request w hrequest hfails
  obtain ⟨e, rfl, -⟩ := hcall.failed
  exact ⟨_, w', checked_eq_some_iff.2 ⟨_, hnext, rfl⟩, hcall⟩

/-- No response travels with the error of a transport. -/
theorem Sender.FailsAfter.closing (h : Sender.FailsAfter n next) :
    Sender.FailsAfter n (closing next) := by
  intro request w hrequest hfails
  obtain ⟨result, w', hnext, hcall⟩ := h request w hrequest hfails
  obtain ⟨e, rfl, -⟩ := hcall.failed
  have hquiet : w'.write (SendError.transport e).closingEvents = w' := w'.write_nil
  exact ⟨_, w', closing_eq_some_iff.2 (.inr ⟨_, w', hnext, rfl, hquiet.symm⟩), hcall⟩

theorem Sender.FailsAfter.delayed (h : Sender.FailsAfter n next) (delay : Duration) :
    Sender.FailsAfter n (delayed delay next) := by
  intro request w hrequest hfails
  obtain ⟨hwait, hbefore⟩ := World.Sends.of_pause hrequest delay w
  obtain ⟨result, w', hnext, hcall⟩ := h request _ hrequest (hbefore.failsAlways hfails)
  exact ⟨result, w', delayed_eq_some_iff.2 (.inr ⟨_, hwait, hnext⟩), by
    simpa using hcall.after hbefore⟩

/-- The attempts of a retry from one on: as many are left as are allowed but have not been made. -/
theorem Sender.FailsAfter.attempts (h : Sender.FailsAfter n next) (policy : RetryPolicy)
    {allowed : Nat} {request : Request} (hrequest : request.cancellable = false) (start : Nat)
    {left made : Nat} (hleft : made + left + 1 = max allowed 1) {w : World}
    (hfails : w.FailsAlways) :
    ∃ result w', Run.iterate (retryTurn policy (.attempts allowed) next request start) made w =
      some (result, w') ∧ FruitlessCall request ((left + 1) * n) w result w' := by
  induction left generalizing made w with
  | zero =>
    obtain ⟨result, w', called, hcall⟩ := h request w hrequest hfails
    have ends : endsRetry (.attempts allowed) (made + 1) (w'.clock - start) result = true :=
      (endsRetry_attempts ..).2 (.inr (.inr (Nat.le_of_eq hleft.symm)))
    refine ⟨result, w', Run.iterate_done (retryTurn_eq_some_iff.2 (.last called ends)), ?_⟩
    rwa [Nat.zero_add, Nat.one_mul]
  | succ left ih =>
    obtain ⟨result, v, called, hcall⟩ := h request w hrequest hfails
    obtain ⟨e, rfl, -⟩ := hcall.failed
    have goes : endsRetry (.attempts allowed) (made + 1) (v.clock - start)
        (.error (.transport e)) = false := by
      refine (endsRetry_attempts_eq_false ..).2 ?_
      rintro (⟨response, hok⟩ | hcancelled | hlast)
      · exact absurd hok (by simp)
      · exact absurd hcancelled (by simp)
      · omega
    obtain ⟨waited, hwait⟩ := World.Sends.of_pause hrequest (policy.delayForRetry made)
      (v.putsAway policy request made (.transport e))
    have hbetween := (hcall.sends.trans (.of_writes request (v.writes_putsAway ..))).trans hwait
    have hless : made + 1 + left + 1 = max allowed 1 := by omega
    obtain ⟨result, w', hrest, hlast⟩ := ih hless (hbetween.failsAlways hfails)
    refine ⟨result, w', ?_, ?_⟩
    · rw [Run.iterate_next (retryTurn_eq_some_iff.2 (.again called goes waited)), hrest]
    · have hcount : n + 0 + 0 + (left + 1) * n = (left + 1 + 1) * n := by
        rw [Nat.add_zero, Nat.add_zero, Nat.add_comm, ← Nat.succ_mul]
      exact hcount ▸ hlast.after hbetween

theorem Sender.FailsAfter.retried (h : Sender.FailsAfter n next) (policy : RetryPolicy)
    (allowed : Nat) :
    Sender.FailsAfter (max allowed 1 * n) (retried policy (.attempts allowed) next) := by
  intro request w hrequest hfails
  have hleft : 0 + (max allowed 1 - 1) + 1 = max allowed 1 := by omega
  obtain ⟨result, w', hrun, hcall⟩ := h.attempts policy hrequest w.clock hleft hfails
  have hcount : max allowed 1 - 1 + 1 = max allowed 1 := by omega
  exact ⟨result, w', hrun, hcount ▸ hcall⟩

/-- A step makes as many calls of one that fails as its limit says. -/
theorem Sender.FailsAfter.decorate (h : Sender.FailsAfter n next) {step : SendStep} {m : Nat}
    (hstep : step.limit? = some m) : Sender.FailsAfter (m * n) (step.decorate next) := by
  have hone : ∀ {m : Nat}, some 1 = some m → n = m * n := by
    intro m hm
    rw [← Option.some.inj hm, Nat.one_mul]
  cases step with
  | asIs => exact hone hstep ▸ h
  | logging title => exact hone hstep ▸ h.logged title
  | errorIf codes => exact hone hstep ▸ h.checked codes true
  | errorUnless codes => exact hone hstep ▸ h.checked codes false
  | closeIfError => exact hone hstep ▸ h.closing
  | afterDelay delay => exact hone hstep ▸ h.delayed delay
  | retry policy limit =>
    cases limit with
    | attempts allowed => exact Option.some.inj hstep ▸ h.retried policy allowed
    | duration d => exact absurd hstep (by simp [SendStep.limit?])
  | probe name => exact hone hstep ▸ h.probed name

theorem decorateSender_failsAfter {steps : List SendStep} (hsteps : limit? steps = some n) :
    Sender.FailsAfter n (decorateSender steps transport) := by
  induction steps generalizing n with
  | nil => exact Option.some.inj hsteps ▸ transport_failsAfter
  | cons step rest ih =>
    unfold limit? at hsteps
    cases hstep : step.limit? with
    | none => simp [hstep] at hsteps
    | some m =>
      cases hrest : limit? rest with
      | none => simp [hstep, hrest] at hsteps
      | some k =>
        obtain rfl : m * k = n := by simpa [hstep, hrest] using hsteps
        exact (ih hrest).decorate hstep

end Steps

/-- **Retries within retries multiply.** Where the service never brings a response and no wait is
cut short, a request goes out exactly as often as the numbers of attempts of all retries of a stack
say together, multiplied, and is the same each time. The call fails with the error of the last
reply. -/
theorem nested_retries_multiply {steps : List SendStep} {n : Nat} (hsteps : limit? steps = some n)
    {request : Request} (hrequest : request.cancellable = false) {w : World}
    (hfails : w.FailsAlways) :
    0 < n ∧ ∃ e w', decorateSender steps transport request w = some (.error (.transport e), w') ∧
      requestsIn (w'.since w) = List.replicate n request ∧
      (w.reply (n - 1)).answer.failure? = some e := by
  obtain ⟨result, w', hrun, hcall⟩ := decorateSender_failsAfter hsteps request w hrequest hfails
  obtain ⟨e, rfl, hlast⟩ := hcall.failed
  exact ⟨hcall.positive, e, w', hrun, hcall.sends.requests, hlast⟩

/-- Two attempts of three, and a service that times out but for the sixth reply. -/
theorem nested_retries_multiply_twoOfThree :
    let steps := [.retryAttempts 2 (.ofSeconds 1), .logging "outer", .afterDelay (.ofSeconds 1),
      .retryAttempts 3 .zero, .errorUnless [⟨200⟩], .closeIfError, .retryAttempts 0 .zero]
    let service := World.start (List.replicate 5 ⟨7, .timeout⟩ ++ [⟨0, .connection "reset"⟩])
      ⟨0, .timeout⟩
    limit? steps = some 6 ∧ Request.empty.cancellable = false ∧ service.FailsAlways ∧
    ∃ w', decorateSender steps transport Request.empty service =
        some (.error (.transport (.connection [.plain "reset"])), w') ∧
      requestsIn (w'.since service) = List.replicate 6 Request.empty := by
  intro steps service
  have hsteps : limit? steps = some 6 := by decide
  have hrequest : Request.empty.cancellable = false := rfl
  have hfails : service.FailsAlways := World.failsAlways_of_forall (by
    simp [service, World.start, Answer.failure?])
  obtain ⟨-, e, w', hrun, hrequests, hlast⟩ := nested_retries_multiply hsteps hrequest hfails
  obtain rfl : TransportError.connection [.plain "reset"] = e := Option.some.inj hlast
  exact ⟨hsteps, hrequest, hfails, w', hrun, hrequests⟩

end Courier
