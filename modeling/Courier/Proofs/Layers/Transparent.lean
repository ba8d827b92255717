import Courier.Proofs.Exchange.Gate
import Courier.Proofs.Layers.Onion
import Courier.Proofs.Polling.Calls

set_option autoImplicit false

/-! # Steps that one sees through

Some steps do not take part in an exchange. One does nothing, one only logs, and one closes the
bodies that errors carry, which would be closed anyway. Wherever such a step is put into a stack,
the service sees the same requests at the same times and the caller gets the same result.

Two calls are compared as they go, one through the stack without the step and one through the stack
with it. They are at the same time in the same world, but for what they have written: their journals
tell the same story. A body that has been closed early is carried along as due until the other call
closes it too, which happens before anything else is sent. -/

namespace Courier

/-! ## Stories -/

/-- Whether an event is a log message. -/
def Event.isLog : Event → Bool
  | .logged _ _ => true
  | _ => false

/-- Whether an event is that a body was closed. -/
def Event.isClose : Event → Bool
  | .closed _ => true
  | _ => false

/-- The entries of a journal but for log messages. -/
def unlogged (entries : List Entry) : List Entry :=
  entries.filter fun entry => !entry.event.isLog

/-- The entries of a journal but for log messages and the closes of bodies. -/
def told (entries : List Entry) : List Entry :=
  entries.filter fun entry => !entry.event.isLog && !entry.event.isClose

/-- Whether two journals tell the same story: they differ in log messages, and if `sooner` allows it
    a body may have been closed in the second one while this is still due in the first. Nothing is
    sent while the close of a body is due. -/
inductive SameStory (sooner : Prop) : Option Entry → List Entry → List Entry → Prop
  | refl (entries : List Entry) : SameStory sooner none entries entries
  | both {due : Option Entry} {first second : List Entry} (h : SameStory sooner due first second)
      {entry : Entry} (next : due = none ∨ entry.event.isSent = false) :
      SameStory sooner due (first ++ [entry]) (second ++ [entry])
  | logFirst {due : Option Entry} {first second : List Entry}
      (h : SameStory sooner due first second) {entry : Entry} (log : entry.event.isLog = true) :
      SameStory sooner due (first ++ [entry]) second
  | logSecond {due : Option Entry} {first second : List Entry}
      (h : SameStory sooner due first second) {entry : Entry} (log : entry.event.isLog = true) :
      SameStory sooner due first (second ++ [entry])
  | early (allowed : sooner) {first second : List Entry} (h : SameStory sooner none first second)
      (time body : Nat) :
      SameStory sooner (some ⟨time, .closed body⟩) first (second ++ [⟨time, .closed body⟩])
  | late {entry : Entry} {first second : List Entry}
      (h : SameStory sooner (some entry) first second) :
      SameStory sooner none (first ++ [entry]) second

namespace SameStory

variable {sooner : Prop} {due : Option Entry} {first second : List Entry}

/-- Only closes are due. -/
theorem isClose_of_due (h : SameStory sooner due first second) {entry : Entry}
    (hdue : due = some entry) : entry.event.isClose = true := by
  induction h with
  | refl entries => simp at hdue
  | both h next ih => exact ih hdue
  | logFirst h log ih => exact ih hdue
  | logSecond h log ih => exact ih hdue
  | early allowed h time body ih =>
    obtain rfl := Option.some.inj hdue
    rfl
  | late h ih => simp at hdue

/-- Nothing is due if nothing may be closed sooner. -/
theorem eq_none_of_not (h : SameStory sooner due first second) (hnot : ¬sooner) : due = none := by
  induction h with
  | refl entries => rfl
  | both h next ih => exact ih
  | logFirst h log ih => exact ih
  | logSecond h log ih => exact ih
  | early allowed h time body ih => exact absurd allowed hnot
  | late h ih => rfl

/-- But for log messages the journals are the same if nothing may be closed sooner. -/
theorem unlogged_eq (h : SameStory sooner due first second) (hnot : ¬sooner) :
    unlogged second = unlogged first := by
  induction h with
  | refl entries => rfl
  | both h next ih => simp only [unlogged, List.filter_append] at ih ⊢; rw [ih]
  | logFirst h log ih => simpa [unlogged, log] using ih
  | logSecond h log ih => simpa [unlogged, log] using ih
  | early allowed h time body ih => exact absurd allowed hnot
  | late h ih => exact absurd (h.eq_none_of_not hnot) (by simp)

/-- But for log messages and closes the journals are always the same. -/
theorem told_eq (h : SameStory sooner due first second) : told second = told first := by
  induction h with
  | refl entries => rfl
  | both h next ih => simp only [told, List.filter_append] at ih ⊢; rw [ih]
  | logFirst h log ih => simpa [told, log] using ih
  | logSecond h log ih => simpa [told, log] using ih
  | early allowed h time body ih => simpa [told, Event.isLog, Event.isClose] using ih
  | late h ih => simpa [told, h.isClose_of_due rfl] using ih

/-- Every body has been closed as often, if what is due is counted as done. -/
theorem closesIn_eq (h : SameStory sooner due first second) (body : Nat) :
    closesIn second body = closesIn first body + closesIn due.toList body := by
  have hlog : ∀ {entry : Entry}, entry.event.isLog = true → closesIn [entry] body = 0 := by
    rintro ⟨time, event⟩ hevent
    cases event <;> first | rfl | simp [Event.isLog] at hevent
  induction h with
  | refl entries => simp
  | both h next ih =>
    rw [closesIn_append, closesIn_append, ih]
    omega
  | logFirst h log ih => rw [closesIn_append, hlog log, ih, Nat.add_zero]
  | logSecond h log ih => rw [closesIn_append, hlog log, ih, Nat.add_zero]
  | early allowed h time body' ih => simp [closesIn_append, ih]
  | late h ih => simp [closesIn_append, ih]

/-- The story goes on with the same entries in both journals. -/
theorem append_both (h : SameStory sooner due first second) {more : List Entry}
    (next : due = none ∨ ∀ entry ∈ more, entry.event.isSent = false) :
    SameStory sooner due (first ++ more) (second ++ more) := by
  induction more generalizing first second with
  | nil => simpa using h
  | cons entry rest ih =>
    have hone := h.both (next.imp_right fun hall => hall entry List.mem_cons_self)
    have hrest := ih hone (next.imp_right fun hall e he => hall e (List.mem_cons_of_mem _ he))
    simpa using hrest

/-- The story does not go on with log messages. -/
theorem append_logs (h : SameStory sooner due first second) {logs logs' : List Entry}
    (hlogs : ∀ entry ∈ logs, entry.event.isLog = true)
    (hlogs' : ∀ entry ∈ logs', entry.event.isLog = true) :
    SameStory sooner due (first ++ logs) (second ++ logs') := by
  induction logs generalizing first with
  | nil =>
    induction logs' generalizing second with
    | nil => simpa using h
    | cons entry rest ih =>
      have hone := h.logSecond (hlogs' entry List.mem_cons_self)
      simpa using ih (fun e he => hlogs' e (List.mem_cons_of_mem _ he)) hone
  | cons entry rest ih =>
    have hone := h.logFirst (hlogs entry List.mem_cons_self)
    simpa using ih hone fun e he => hlogs e (List.mem_cons_of_mem _ he)

end SameStory

/-! ## Errors whose body is closed -/

/-- The entry that tells of the close of the body that an error carries, if this is open. -/
def SendError.close? (e : SendError) (time : Nat) : Option Entry :=
  (SendResult.openReader? (.error e)).map fun body => ⟨time, .closed body⟩

@[simp] theorem SendError.message_closed (e : SendError) : e.closed.message = e.message := by
  cases e <;> rfl

@[simp] theorem SendError.kind_closed (e : SendError) : e.closed.kind = e.kind := by
  cases e <;> rfl

@[simp] theorem SendError.isCancelled_closed (e : SendError) :
    e.closed.isCancelled = e.isCancelled := by
  cases e <;> rfl

@[simp] theorem SendError.closingEvents_closed (e : SendError) : e.closed.closingEvents = [] := by
  cases e <;> simp [SendError.closed, SendError.closingEvents, SendError.response?]

@[simp] theorem SendError.closed_closed (e : SendError) : e.closed.closed = e.closed := by
  cases e <;> simp [SendError.closed]

/-- Closing the body of an error writes this, and after that only log messages. -/
theorem SendError.closingEvents_eq (e : SendError) (time : Nat) :
    ∃ logs : List Entry, (∀ entry ∈ logs, entry.event.isLog = true) ∧
      e.closingEvents.map (fun event => (⟨time, event⟩ : Entry)) =
        (e.close? time).toList ++ logs := by
  cases e with
  | unexpectedStatus method url status r =>
    obtain ⟨status', headers, body⟩ := r
    cases body with
    | none => exact ⟨[], by simp, rfl⟩
    | some b =>
      have hclosing : (SendError.unexpectedStatus method url status
          ⟨status', headers, some b⟩).closingEvents =
          b.closingEvents "Failed to close response body" := rfl
      have hclose : (SendError.unexpectedStatus method url status
          ⟨status', headers, some b⟩).close? time =
          b.close.closed.map fun body => ⟨time, .closed body⟩ := by
        rw [Body.closed_close]
        rfl
      rw [hclosing, hclose, Body.closingEvents, List.map_append]
      refine ⟨_, fun entry hentry => ?_, congrArg (· ++ _) ?_⟩
      · simp only [List.mem_map] at hentry
        obtain ⟨_, ⟨error, -, rfl⟩, rfl⟩ := hentry
        rfl
      · cases b.close.closed <;> rfl
  | _ => exact ⟨[], by simp, rfl⟩

/-! ## Worlds -/

/-- Whether two worlds are the same but for their journals, and these tell the same story. -/
structure World.Alike (sooner : Prop) (due : Option Entry) (w w' : World) : Prop where
  rest : w' = { w with journal := w'.journal }
  story : SameStory sooner due w.journal w'.journal

namespace World.Alike

variable {sooner : Prop} {due : Option Entry} {w w' : World}

theorem refl (sooner : Prop) (w : World) : Alike sooner none w w := ⟨rfl, .refl w.journal⟩

theorem clock_eq (h : Alike sooner due w w') : w'.clock = w.clock := by
  rw [h.rest]

/-- Both calls write the same. -/
theorem write (h : Alike sooner due w w') {events : List Event}
    (next : due = none ∨ ∀ event ∈ events, event.isSent = false) :
    Alike sooner due (w.write events) (w'.write events) where
  rest := by
    rw [h.rest]
    rfl
  story := by
    unfold World.write
    rw [h.clock_eq]
    refine h.story.append_both (next.imp_right fun hall entry hentry => ?_)
    obtain ⟨event, hevent, rfl⟩ := List.mem_map.1 hentry
    exact hall event hevent

/-- Each call writes log messages of its own. -/
theorem log (h : Alike sooner due w w') {logs logs' : List Event}
    (hlogs : ∀ event ∈ logs, event.isLog = true) (hlogs' : ∀ event ∈ logs', event.isLog = true) :
    Alike sooner due (w.write logs) (w'.write logs') where
  rest := by
    rw [h.rest]
    rfl
  story := by
    refine h.story.append_logs (fun entry hentry => ?_) fun entry hentry => ?_
    · obtain ⟨event, hevent, rfl⟩ := List.mem_map.1 hentry
      exact hlogs event hevent
    · obtain ⟨event, hevent, rfl⟩ := List.mem_map.1 hentry
      exact hlogs' event hevent

/-- The second call closes the body of an error. -/
theorem close (h : Alike sooner none w w') (allowed : sooner) (e : SendError) :
    Alike sooner (e.close? w.clock) w (w'.write e.closingEvents) where
  rest := by
    rw [h.rest]
    rfl
  story := by
    obtain ⟨logs, hlogs, hevents⟩ := e.closingEvents_eq w'.clock
    have hjournal : (w'.write e.closingEvents).journal =
        w'.journal ++ (e.close? w'.clock).toList ++ logs := by
      rw [List.append_assoc, ← hevents]
      rfl
    rw [hjournal, ← List.append_nil w.journal, h.clock_eq]
    refine .append_logs ?_ (by simp) hlogs
    unfold SendError.close?
    cases SendResult.openReader? (.error e) with
    | none => simpa using h.story
    | some body => exact .early allowed h.story w.clock body

/-- The first call closes the body of an error that the second one has closed. -/
theorem settle {e : SendError} (h : Alike sooner (e.close? w.clock) w w') :
    Alike sooner none (w.write e.closingEvents) w' where
  rest := by
    rw [h.rest]
    rfl
  story := by
    obtain ⟨logs, hlogs, hevents⟩ := e.closingEvents_eq w.clock
    have hjournal : (w.write e.closingEvents).journal =
        w.journal ++ (e.close? w.clock).toList ++ logs := by
      rw [List.append_assoc, ← hevents]
      rfl
    rw [hjournal, ← List.append_nil w'.journal]
    refine .append_logs ?_ hlogs (by simp)
    have hstory := h.story
    generalize e.close? w.clock = due at hstory ⊢
    cases due with
    | none => simpa using hstory
    | some entry => exact hstory.late

/-- Both calls wait. -/
theorem pause (h : Alike sooner due w w') (d : Duration) (cancellable : Bool) :
    ∃ outcome v v', pause d cancellable w = (outcome, v) ∧ pause d cancellable w' = (outcome, v') ∧
      Alike sooner due v v' := by
  have hclock := h.clock_eq
  have hcancelAt : w'.cancelAt = w.cancelAt := by rw [h.rest]
  have hisCancelled : w'.isCancelled = w.isCancelled := by
    rw [h.rest]
    rfl
  have hat : ∀ time cancelAt, Alike sooner due { w with clock := time, cancelAt := cancelAt }
      { w' with clock := time, cancelAt := cancelAt } :=
    fun time cancelAt => ⟨by rw [h.rest], h.story⟩
  have hmillis : w'.waitMillis d = w.waitMillis d := by
    rw [h.rest]
    rfl
  simp only [pause_apply, hisCancelled, hcancelAt, hclock, hmillis]
  split
  · exact ⟨_, w, w', rfl, rfl, h⟩
  · cases w.cancelAt with
    | none => exact ⟨_, _, _, rfl, rfl, hat _ none⟩
    | some t =>
      dsimp only
      split
      · exact ⟨_, _, _, rfl, rfl, hat t (some t)⟩
      · exact ⟨_, _, _, rfl, rfl, hat _ (some t)⟩

end World.Alike

/-! ## Ends -/

/-- Whether two calls come to the same: the same result, or an error that carries a body that has
    been closed in the second call already. -/
inductive SameEnd (sooner : Prop) : SendResult × World → SendResult × World → Prop
  | same {result : SendResult} {w w' : World} (h : w.Alike sooner none w') :
      SameEnd sooner (result, w) (result, w')
  | closed (allowed : sooner) {e : SendError} {w w' : World}
      (h : w.Alike sooner (e.close? w.clock) w') :
      SameEnd sooner (.error e, w) (.error e.closed, w')

/-- Whether calls of two senders with the same request come to the same, or both to nothing. -/
def Sender.Mirrors (sooner : Prop) (next next' : Sender) : Prop :=
  ∀ request w w', World.Alike sooner none w w' →
    Option.Rel (SameEnd sooner) (next request w) (next' request w')

section Senders

variable {sooner : Prop} {next next' : Sender}

/-- A service that is behind a gate is the same for two worlds that are alike. -/
theorem gated_mirrors (sooner : Prop) (isOpen : Nat → Bool) :
    Sender.Mirrors sooner (Sender.gated (fun v => isOpen v.sent) transport)
      (Sender.gated (fun v => isOpen v.sent) transport) := by
  intro request w w' h
  have hsent : w'.sent = w.sent := by rw [h.rest]
  have hgated : ∀ v, Sender.gated (fun v => isOpen v.sent) transport request v =
      if isOpen v.sent then transport request v else some (.error .cancelled, v) := fun _ => rfl
  rw [hgated, hgated, hsent]
  cases isOpen w.sent with
  | false => exact .some (.same h)
  | true =>
    rw [if_pos rfl, if_pos rfl, transport_apply, transport_apply]
    have hbrings : (w'.reply 0).answer.brings w'.readers = (w.reply 0).answer.brings w.readers := by
      rw [h.rest]
      rfl
    have hback : (w.exchanges request).Alike sooner none (w'.exchanges request) := by
      have hcancelled : w'.isCancelled = w.isCancelled := by
        rw [h.rest]
        rfl
      refine ⟨?_, ?_⟩
      · rw [h.rest]
        rfl
      · have hjournal : ∀ v : World, (v.exchanges request).journal =
            (v.write [.sent v.sent request v.isCancelled]).journal := fun _ => rfl
        rw [hjournal, hjournal, hsent, hcancelled]
        exact (h.write (.inl rfl)).story
    rw [hbrings]
    exact .some (.same hback)

theorem Sender.Mirrors.logged (h : Sender.Mirrors sooner next next') (title : String) :
    Sender.Mirrors sooner (logged title next) (logged title next') := by
  intro request w w' hw
  simp only [Courier.logged, Run.bind_apply, Run.lift_apply, log_apply, Option.bind_some]
  refine rel_bind (h request _ _ (hw.write (.inl rfl))) fun p q hend => ?_
  cases hend with
  | @same result v v' hv =>
    have hwrite : ∀ event, World.Alike sooner none (v.write [event]) (v'.write [event]) :=
      fun _ => hv.write (.inl rfl)
    cases result with
    | ok r => exact .some (.same (hwrite _))
    | error e => exact .some (.same (hwrite _))
  | @closed allowed e v v' hv =>
    dsimp only
    rw [SendError.message_closed]
    have hwrite : ∀ message, World.Alike sooner (e.close? v.clock)
        (v.write [.logged .info message]) (v'.write [.logged .info message]) :=
      fun _ => hv.write (.inr (by simp [Event.isSent]))
    exact .some (.closed allowed (hwrite _))

theorem Sender.Mirrors.probed (h : Sender.Mirrors sooner next next') (name : String) :
    Sender.Mirrors sooner (probed name next) (probed name next') := by
  intro request w w' hw
  simp only [Courier.probed, Run.bind_apply, Run.lift_apply, record_apply, Option.bind_some]
  refine rel_bind (h request _ _ (hw.write (.inl rfl))) fun p q hend => ?_
  cases hend with
  | @same result v v' hv =>
    have hwrite : ∀ event, World.Alike sooner none (v.write [event]) (v'.write [event]) :=
      fun _ => hv.write (.inl rfl)
    exact .some (.same (hwrite _))
  | @closed allowed e v v' hv =>
    dsimp only
    rw [SendError.kind_closed]
    have hwrite : World.Alike sooner (e.close? v.clock) (v.write [.left name (.error e.kind)])
        (v'.write [.left name (.error e.kind)]) := hv.write (.inr (by simp [Event.isSent]))
    exact .some (.closed allowed hwrite)

theorem Sender.Mirrors.checked (h : Sender.Mirrors sooner next next') (codes : List Status)
    (failOnMatch : Bool) :
    Sender.Mirrors sooner (checked codes failOnMatch next) (checked codes failOnMatch next') := by
  intro request w w' hw
  simp only [Courier.checked, Run.bind_apply]
  refine rel_bind (h request _ _ hw) fun p q hend => ?_
  cases hend with
  | @same result v v' hv =>
    cases result with
    | error e => exact .some (.same hv)
    | ok r =>
      dsimp only
      split
      · exact .some (.same hv)
      · exact .some (.same hv)
  | closed allowed hv => exact .some (.closed allowed hv)

theorem Sender.Mirrors.delayed (h : Sender.Mirrors sooner next next') (delay : Duration) :
    Sender.Mirrors sooner (delayed delay next) (delayed delay next') := by
  intro request w w' hw
  simp only [Courier.delayed, Run.bind_apply, Run.lift_apply, Option.bind_some]
  obtain ⟨outcome, v, v', hp, hp', hv⟩ := hw.pause delay request.cancellable
  rw [hp, hp']
  cases outcome with
  | cancelled => exact .some (.same hv)
  | finished => exact h request v v' hv

/-- A body that has been closed is not closed again. -/
theorem Sender.Mirrors.closing (h : Sender.Mirrors sooner next next') :
    Sender.Mirrors sooner (closing next) (closing next') := by
  intro request w w' hw
  simp only [Courier.closing, Run.bind_apply]
  refine rel_bind (h request _ _ hw) fun p q hend => ?_
  cases hend with
  | @same result v v' hv =>
    cases result with
    | ok r => exact .some (.same hv)
    | error e =>
      simp only [Run.bind_apply, Run.lift_apply, SendError.closeResponse_apply, Option.bind_some]
      exact .some (.same (hv.write (.inl rfl)))
  | @closed allowed e v v' hv =>
    simp only [Run.bind_apply, Run.lift_apply, SendError.closeResponse_apply, Option.bind_some,
      SendError.closed_closed, SendError.closingEvents_closed, World.write_nil]
    exact .some (.same hv.settle)

/-- The wait of a retry. -/
theorem sameTurn_afterRetryWait {w w' : World} (h : w.Alike sooner none w') (d : Duration)
    (cancellable : Bool) (attempts : Nat) :
    Run.SameTurn (World.Alike sooner none) (SameEnd sooner)
      (afterRetryWait attempts (pause d cancellable w))
      (afterRetryWait attempts (pause d cancellable w')) := by
  obtain ⟨outcome, v, v', hp, hp', hv⟩ := h.pause d cancellable
  rw [hp, hp']
  cases outcome with
  | finished => exact .goes hv
  | cancelled => exact .ends (.same hv)

/-- A retry closes the body of an error unless it has been closed, and goes on in the same way. -/
theorem retryTurn_rel (h : Sender.Mirrors sooner next next') (policy : RetryPolicy) (limit : Budget)
    (request : Request) (start attempts : Nat) {w w' : World} (hw : w.Alike sooner none w') :
    Option.Rel (Run.SameTurn (World.Alike sooner none) (SameEnd sooner))
      (retryTurn policy limit next request start attempts w)
      (retryTurn policy limit next' request start attempts w') := by
  simp only [retryTurn, Run.bind_apply, Run.lift_apply]
  refine rel_bind (h request _ _ hw) fun p q hend => .some ?_
  cases hend with
  | @same result v v' hv =>
    cases hlast : endsRetry limit (attempts + 1) (v.clock - start) result with
    | true =>
      have hlast' : endsRetry limit (attempts + 1) (v'.clock - start) result = true := by
        rw [hv.clock_eq, hlast]
      rw [retryAfter_last hlast, retryAfter_last hlast']
      exact .ends (.same hv)
    | false =>
      obtain ⟨e, rfl, -⟩ := exists_error_of_goes hlast
      have hlast' : endsRetry limit (attempts + 1) (v'.clock - start) (.error e) = false := by
        rw [hv.clock_eq, hlast]
      rw [retryAfter_again hlast, retryAfter_again hlast']
      exact sameTurn_afterRetryWait (hv.write (.inl rfl)) _ _ _
  | @closed allowed e v v' hv =>
    have hclosed : endsRetry limit (attempts + 1) (v'.clock - start) (.error e.closed) =
        endsRetry limit (attempts + 1) (v.clock - start) (.error e) := by
      rw [hv.clock_eq, endsRetry, endsRetry, SendError.isCancelled_closed]
    cases hlast : endsRetry limit (attempts + 1) (v.clock - start) (.error e) with
    | true =>
      rw [retryAfter_last hlast, retryAfter_last (hclosed.trans hlast)]
      exact .ends (.closed allowed hv)
    | false =>
      rw [retryAfter_again hlast, retryAfter_again (hclosed.trans hlast)]
      refine sameTurn_afterRetryWait ?_ _ _ _
      unfold World.putsAway retryMessage
      rw [SendError.closingEvents_closed, SendError.message_closed, List.nil_append,
        ← World.write_write]
      exact hv.settle.write (.inl rfl)

theorem Sender.Mirrors.retried (h : Sender.Mirrors sooner next next') (policy : RetryPolicy)
    (limit : Budget) :
    Sender.Mirrors sooner (retried policy limit next) (retried policy limit next') := by
  intro request w w' hw
  have hrun : ∀ (sender : Sender) (v : World), Courier.retried policy limit sender request v =
      Run.iterate (retryTurn policy limit sender request v.clock) 0 v := fun _ _ => rfl
  rw [hrun, hrun, hw.clock_eq]
  exact Run.iterate_rel (fun attempts v v' hv => retryTurn_rel h policy limit request _ attempts hv)
    hw

/-- Steps around senders that come to the same come to the same. -/
theorem Sender.Mirrors.decorateSender (h : Sender.Mirrors sooner next next')
    (steps : List SendStep) :
    Sender.Mirrors sooner (decorateSender steps next) (decorateSender steps next') := by
  induction steps with
  | nil => exact h
  | cons step rest ih =>
    cases step with
    | asIs => exact ih
    | logging title => exact ih.logged title
    | errorIf codes => exact ih.checked codes true
    | errorUnless codes => exact ih.checked codes false
    | closeIfError => exact ih.closing
    | afterDelay delay => exact ih.delayed delay
    | retry policy limit => exact ih.retried policy limit
    | probe name => exact ih.probed name

/-! ## Steps that are put in -/

/-- A sender and the same one with a step that logs come to the same. -/
theorem Sender.Mirrors.of_logged (h : Sender.Mirrors sooner next next') (title : String) :
    Sender.Mirrors sooner next (Courier.logged title next') := by
  intro request w w' hw
  have hlog : ∀ {due : Option Entry} {v v' : World} (message : String), v.Alike sooner due v' →
      v.Alike sooner due (v'.write [.logged .info message]) := by
    intro due v v' message hv
    rw [← v.write_nil]
    exact hv.log (by simp) (by simp [Event.isLog])
  simp only [Courier.logged, Run.bind_apply, Run.lift_apply, log_apply, Option.bind_some]
  rw [← Option.bind_fun_some (next request w)]
  refine rel_bind (h request _ _ (hlog _ hw)) fun p q hend => ?_
  cases hend with
  | @same result v v' hv =>
    cases result with
    | ok r => exact .some (.same (hlog _ hv))
    | error e => exact .some (.same (hlog _ hv))
  | closed allowed hv => exact .some (.closed allowed (hlog _ hv))

/-- A sender and the same one with a step that closes the bodies of errors come to the same, but the
    body of an error is closed sooner. -/
theorem Sender.Mirrors.of_closing (h : Sender.Mirrors True next next') :
    Sender.Mirrors True next (Courier.closing next') := by
  intro request w w' hw
  simp only [Courier.closing, Run.bind_apply]
  rw [← Option.bind_fun_some (next request w)]
  refine rel_bind (h request _ _ hw) fun p q hend => ?_
  cases hend with
  | @same result v v' hv =>
    cases result with
    | ok r => exact .some (.same hv)
    | error e =>
      simp only [Run.bind_apply, Run.lift_apply, SendError.closeResponse_apply, Option.bind_some]
      exact .some (.closed trivial (hv.close trivial e))
  | @closed allowed e v v' hv =>
    simp only [Run.bind_apply, Run.lift_apply, SendError.closeResponse_apply, Option.bind_some,
      SendError.closed_closed, SendError.closingEvents_closed, World.write_nil]
    exact .some (.closed trivial hv)

end Senders

/-- What a call comes to if one does not look at log messages. -/
def hushed (p : SendResult × World) : SendResult × World :=
  (p.1, { p.2 with journal := unlogged p.2.journal })

theorem SameEnd.hushed_eq {sooner : Prop} {p q : SendResult × World} (h : SameEnd sooner p q)
    (hnot : ¬sooner) : hushed q = hushed p := by
  cases h with
  | same hw =>
    unfold hushed
    rw [hw.story.unlogged_eq hnot, hw.rest]
  | closed allowed hw => exact absurd allowed hnot

theorem SameEnd.told_eq {sooner : Prop} {p q : SendResult × World} (h : SameEnd sooner p q) :
    told q.2.journal = told p.2.journal := by
  cases h with
  | same hw => exact hw.story.told_eq
  | closed allowed hw => exact hw.story.told_eq

/-- When the caller has let go of the result, every body has been closed as often. -/
theorem SameEnd.closes_drop {sooner : Prop} {p q : SendResult × World} (h : SameEnd sooner p q)
    (body : Nat) :
    (SendResult.drop q.1 q.2).2.closes body = (SendResult.drop p.1 p.2).2.closes body := by
  have hdrop : ∀ (result : SendResult) (w : World), (SendResult.drop result w).2.closes body =
      closesIn w.journal body + if SendResult.openReader? result = some body then 1 else 0 := by
    intro result w
    rw [SendResult.drop_apply, World.closes, World.write, closesIn_append,
      (SendResult.closesJust_droppingEvents result).closesIn_map]
  rw [hdrop, hdrop]
  cases h with
  | same hw => rw [hw.story.closesIn_eq, Option.toList_none, closesIn_nil, Nat.add_zero]
  | @closed allowed e w w' hw =>
    rw [hw.story.closesIn_eq, SendResult.openReader?_closed, SendError.close?]
    cases SendResult.openReader? (.error e) with
    | none => simp
    | some n => by_cases hn : n = body <;> simp [closesIn, hn]

/-- Whether a second call comes to the same as a first one, but for log messages and for bodies of
    errors that are closed sooner. -/
structure ClosesSooner (p q : SendResult × World) : Prop where
  ends : SameEnd True p q
  told : told q.2.journal = told p.2.journal
  closes : ∀ body,
    (SendResult.drop q.1 q.2).2.closes body = (SendResult.drop p.1 p.2).2.closes body

/-- **Steps that one sees through.** Whatever a service replies and whenever the caller cancels:
    wherever a step that does nothing is put into a stack, nothing changes at all; a step that logs
    changes nothing but the log; and with a step that closes the bodies of errors the same is sent
    at the same times, with the same result at the same time, and every body that is not closed at
    the same point of the story is that of an error and is closed sooner. If one call does not come
    back, neither does the other; what it has sent until then is seen by closing a gate in front of
    the service after some number of requests. -/
theorem steps_are_transparent (front back : List SendStep) (isOpen : Nat → Bool)
    (request : Request) (w : World) :
    let service := Sender.gated (fun v => isOpen v.sent) transport
    let plain := decorateSender (front ++ back) service request w
    let call := fun step => decorateSender (front ++ step :: back) service request w
    call .asIs = plain ∧
    (∀ title, (call (.logging title)).map hushed = plain.map hushed) ∧
    Option.Rel ClosesSooner plain (call .closeIfError) := by
  intro service plain call
  have hcall : ∀ step, call step =
      decorateSender front (step.decorate (decorateSender back service)) request w := by
    intro step
    show decorateSender (front ++ step :: back) service request w = _
    rw [decorateSender_append]
    rfl
  have hplain : plain = decorateSender front (decorateSender back service) request w := by
    show decorateSender (front ++ back) service request w = _
    rw [decorateSender_append]
  have hback : ∀ sooner, Sender.Mirrors sooner (decorateSender back service)
      (decorateSender back service) :=
    fun sooner => (gated_mirrors sooner isOpen).decorateSender back
  refine ⟨?_, fun title => ?_, ?_⟩
  · rw [hcall, hplain]
    rfl
  · have hends := (((hback False).of_logged title).decorateSender front) request w w (.refl False w)
    rw [hcall, hplain]
    show (decorateSender front (logged title (decorateSender back service)) request w).map _ = _
    generalize decorateSender front (decorateSender back service) request w = first at hends ⊢
    generalize decorateSender front (logged title _) request w = second at hends ⊢
    cases hends with
    | none => rfl
    | some hend => exact congrArg some (hend.hushed_eq not_false)
  · have hends := ((hback True).of_closing.decorateSender front) request w w (.refl True w)
    rw [hcall, hplain]
    show Option.Rel ClosesSooner _
      (decorateSender front (closing (decorateSender back service)) request w)
    generalize decorateSender front (decorateSender back service) request w = first at hends ⊢
    generalize decorateSender front (closing _) request w = second at hends ⊢
    cases hends with
    | none => exact .none
    | some hend => exact .some ⟨hend, hend.told_eq, hend.closes_drop⟩

end Courier
