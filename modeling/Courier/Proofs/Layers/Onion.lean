import Courier.Proofs.Retry.Attempts
import Mathlib.Algebra.Order.BigOperators.Group.List
import Mathlib.Algebra.Order.Group.Nat
import Mathlib.Data.List.Basic

set_option autoImplicit false

/-! # The order of layers

Steps lie around the transport like the layers of an onion: what passes an outer one passes the
inner ones, once or, if there is a retry in between, several times. What probes and the transport
record of a call is a word of brackets, and the onion says how such a word is nested.

The argument follows a call inwards. A step other than a probe turns one call into calls of the
sender that it wraps and records nothing itself, so a row of such steps does the same and their
limits multiply; a probe puts a bracket around one call. -/

namespace Courier

/-! ## Words -/

/-- Whether an event is that a request went out or passed a probe. -/
def Event.isPassage : Event → Bool
  | .sent _ _ _ => true
  | .entered _ => true
  | .left _ _ => true
  | _ => false

/-- The events of some entries that tell of requests going out or passing probes. -/
def passages (entries : List Entry) : List Event :=
  (entries.map Entry.event).filter Event.isPassage

@[simp] theorem passages_nil : passages [] = [] := rfl

@[simp] theorem passages_append (first rest : List Entry) :
    passages (first ++ rest) = passages first ++ passages rest := by
  simp [passages]

/-- What a call has recorded. -/
def Call.word (c : Call) : List Event := passages (c.back.since c.sent)

/-- What a probe records of the result of a call. -/
def Call.outcome (c : Call) : Except SendError.Kind Status :=
  match c.result with
  | .ok response => .ok response.status
  | .error e => .error e.kind

/-- What a probe around a call records together with it. -/
def Call.bracket (name : String) (c : Call) : List Event :=
  .entered name :: c.word ++ [.left name c.outcome]

/-! ## Silence -/

/-- Whether one world is a later moment of another one and nothing has been recorded in between. -/
structure World.Silent (w w' : World) : Prop where
  grows : w.journal <+: w'.journal
  nothing : passages (w'.since w) = []

theorem World.Silent.refl (w : World) : w.Silent w := ⟨List.prefix_refl _, by simp⟩

/-- What is written at once. -/
theorem passages_since_write (w : World) (events : List Event) :
    passages ((w.write events).since w) = events.filter Event.isPassage := by
  rw [World.since_write (List.prefix_refl w.journal), World.since_self, List.nil_append]
  simp [passages, Function.comp_def]

theorem World.Silent.write (w : World) {events : List Event}
    (h : ∀ event ∈ events, event.isPassage = false) : w.Silent (w.write events) := by
  refine ⟨List.prefix_append _ _, ?_⟩
  rw [passages_since_write, List.filter_eq_nil_iff]
  intro event he
  rw [h event he]
  exact Bool.false_ne_true

theorem World.Silent.trans {w v u : World} (h : w.Silent v) (h' : v.Silent u) : w.Silent u := by
  refine ⟨h.grows.trans h'.grows, ?_⟩
  rw [World.since_append h.grows h'.grows, passages_append, h.nothing, h'.nothing, List.append_nil]

/-- A wait is silent. -/
theorem World.Silent.pause {d : Duration} {cancellable : Bool} {w w' : World} {outcome : Pause}
    (h : pause d cancellable w = (outcome, w')) : w.Silent w' := by
  obtain ⟨t, ht⟩ := pause_world d cancellable w
  rw [h] at ht
  obtain rfl : w' = { w with clock := t } := ht
  exact ⟨List.prefix_refl _, by simp [World.since]⟩

/-- Closing a body is no passage. -/
theorem Body.isPassage_closingEvents (complaint : String) (b : Body) :
    ∀ event ∈ b.closingEvents complaint, event.isPassage = false := by
  intro event he
  rcases List.mem_append.1 he with he | he
  · obtain ⟨n, -, rfl⟩ := List.mem_map.1 he
    rfl
  · obtain ⟨e, -, rfl⟩ := List.mem_map.1 he
    rfl

theorem SendError.isPassage_closingEvents (e : SendError) :
    ∀ event ∈ e.closingEvents, event.isPassage = false := by
  unfold SendError.closingEvents Response.closingEvents
  cases e.response? with
  | none => simp
  | some r =>
    cases hb : r.body with
    | none => simp [hb]
    | some b => simpa [hb] using b.isPassage_closingEvents "Failed to close response body"

/-- A failed attempt is put away silently. -/
theorem World.Silent.putsAway (w : World) (policy : RetryPolicy) (request : Request)
    (attempts : Nat) (e : SendError) : w.Silent (w.putsAway policy request attempts e) := by
  refine .write w fun event he => ?_
  rcases List.mem_append.1 he with he | he
  · exact e.isPassage_closingEvents event he
  · rw [List.mem_singleton.1 he]
    rfl

/-! ## Stretches of calls -/

/-- Whether a call begins and ends between two moments. -/
structure Call.Between (d : Call) (w w' : World) : Prop where
  begins : w.journal <+: d.sent.journal
  ends : d.back.journal <+: w'.journal

/-- Whether all that is recorded between two moments is recorded by calls of a sender with one
    request, one after another. -/
structure Stretch (next : Sender) (request : Request) (w w' : World) (calls : List Call) :
    Prop where
  grows : w.journal <+: w'.journal
  called : ∀ d ∈ calls, next.call request d.sent = some d
  between : ∀ d ∈ calls, d.Between w w'
  word : passages (w'.since w) = calls.flatMap Call.word

namespace Stretch

variable {next : Sender} {request : Request} {w v u : World} {result : SendResult}

theorem silent (h : w.Silent u) : Stretch next request w u [] :=
  ⟨h.grows, by simp, by simp, h.nothing⟩

theorem one (grows : w.journal <+: u.journal) (h : next request w = some (result, u)) :
    Stretch next request w u [⟨request, w, result, u⟩] where
  grows := grows
  called := by
    rw [List.forall_mem_singleton]
    exact Sender.call_eq_some.2 ⟨rfl, rfl, h⟩
  between := by
    rw [List.forall_mem_singleton]
    exact ⟨List.prefix_refl _, List.prefix_refl _⟩
  word := by simp [Call.word]

/-- Two stretches one after another. -/
theorem append {calls more : List Call} (h : Stretch next request w v calls)
    (h' : Stretch next request v u more) : Stretch next request w u (calls ++ more) where
  grows := h.grows.trans h'.grows
  called d hd := (List.mem_append.1 hd).elim (h.called d) (h'.called d)
  between d hd := by
    rcases List.mem_append.1 hd with hd | hd
    · exact ⟨(h.between d hd).begins, (h.between d hd).ends.trans h'.grows⟩
    · exact ⟨h.grows.trans (h'.between d hd).begins, (h'.between d hd).ends⟩
  word := by
    rw [World.since_append h.grows h'.grows, passages_append, h.word, h'.word, List.flatMap_append]

/-- One call with silence around it. -/
theorem around {w' u' : World} (before : w'.Silent w) (grows : w.journal <+: u.journal)
    (h : next request w = some (result, u)) (after : u.Silent u') :
    Stretch next request w' u' [⟨request, w, result, u⟩] :=
  (silent before).append ((one grows h).append (silent after))

/-- A stretch of calls which are stretches of calls of another sender in turn. -/
theorem flatten {inner : Sender} {calls : List Call} (h : Stretch next request w u calls)
    (parts : Call → List Call)
    (hparts : ∀ d ∈ calls, Stretch inner request d.sent d.back (parts d)) :
    Stretch inner request w u (calls.flatMap parts) where
  grows := h.grows
  called d hd := by
    obtain ⟨b, hb, hd⟩ := List.mem_flatMap.1 hd
    exact (hparts b hb).called d hd
  between d hd := by
    obtain ⟨b, hb, hd⟩ := List.mem_flatMap.1 hd
    exact ⟨(h.between b hb).begins.trans ((hparts b hb).between d hd).begins,
      ((hparts b hb).between d hd).ends.trans (h.between b hb).ends⟩
  word := by
    rw [h.word, List.flatMap_assoc]
    exact List.flatMap_congr fun d hd => (hparts d hd).word

end Stretch

/-! ## Limits -/

/-- The name of a step that is a probe. -/
def SendStep.name? : SendStep → Option String
  | .probe name => some name
  | _ => none

/-- Whether there is no probe among some steps. -/
def Unprobed (steps : List SendStep) : Prop := ∀ step ∈ steps, step.name? = none

/-- How often a step at most calls the sender that it wraps, if a number limits it. A retry makes
    one attempt even if it is allowed none. -/
def SendStep.limit? : SendStep → Option Nat
  | .retry _ (.attempts n) => some (max n 1)
  | .retry _ (.duration _) => none
  | _ => some 1

/-- The limits of some steps multiplied, if numbers limit all of them. -/
def limit? : List SendStep → Option Nat
  | [] => some 1
  | step :: rest =>
    match step.limit?, limit? rest with
    | some m, some n => some (m * n)
    | _, _ => none

/-- Whether a number is within a limit, if there is one. -/
def IsWithin (limit : Option Nat) (n : Nat) : Prop := ∀ m, limit = some m → n ≤ m

/-- Calls that are made of calls in turn are within both limits multiplied. -/
theorem isWithin_flatMap {step : SendStep} {rest : List SendStep} {calls : List Call}
    {parts : Call → List Call} (h : IsWithin step.limit? calls.length)
    (hparts : ∀ d ∈ calls, IsWithin (limit? rest) (parts d).length) :
    IsWithin (limit? (step :: rest)) (calls.flatMap parts).length := by
  intro k hk
  unfold limit? at hk
  cases hm : step.limit? with
  | none => simp [hm] at hk
  | some m =>
    cases hn : limit? rest with
    | none => simp [hm, hn] at hk
    | some n =>
      obtain rfl : m * n = k := by simpa [hm, hn] using hk
      have hsum : (calls.map fun d => (parts d).length).sum ≤ calls.length • n := by
        have hle := List.sum_le_card_nsmul (calls.map fun d => (parts d).length) n fun x hx => by
          obtain ⟨d, hd, rfl⟩ := List.mem_map.1 hx
          exact hparts d hd n hn
        rwa [List.length_map] at hle
      calc (calls.flatMap parts).length = (calls.map fun d => (parts d).length).sum :=
            List.length_flatMap
        _ ≤ calls.length * n := hsum
        _ ≤ m * n := Nat.mul_le_mul_right n (h m hm)

/-! ## Steps -/

/-- A sender that only ever adds to the journal. -/
def Sender.Grows (next : Sender) : Prop :=
  ∀ request w result w', next request w = some (result, w') → w.journal <+: w'.journal

/-- A step that makes every call of its own into calls of the sender that it wraps, as many as its
    limit allows. -/
def SendStep.Passes (step : SendStep) (next : Sender) : Prop :=
  ∀ request w result w', step.decorate next request w = some (result, w') →
    ∃ calls, Stretch next request w w' calls ∧ IsWithin step.limit? calls.length

section Steps

variable {next : Sender}

/-- One call is within every limit. -/
theorem SendStep.isWithin_one (step : SendStep) : IsWithin step.limit? 1 := by
  intro m hm
  cases step with
  | retry policy limit =>
    cases limit with
    | attempts n =>
      obtain rfl := Option.some.inj hm
      exact Nat.le_max_right n 1
    | duration d => exact absurd hm (by simp [SendStep.limit?])
  | _ => exact Nat.le_of_eq (Option.some.inj hm)

theorem SendStep.passes_logging (h : next.Grows) (title : String) :
    (SendStep.logging title).Passes next := by
  intro request w result w' hrun
  obtain ⟨v, hnext, rfl⟩ := logged_eq_some_iff.1 hrun
  have hsilent : ∀ (u : World) (message : String), u.Silent (u.write [.logged .info message]) :=
    fun u _ => .write u (by simp [Event.isPassage])
  exact ⟨_, .around (hsilent w _) (h _ _ _ _ hnext) hnext (hsilent v _), SendStep.isWithin_one _⟩

theorem checked_stretch (h : next.Grows) {codes : List Status} {failOnMatch : Bool}
    {request : Request} {w w' : World} {result : SendResult}
    (hrun : checked codes failOnMatch next request w = some (result, w')) :
    ∃ d, Stretch next request w w' [d] := by
  obtain ⟨answer, hnext, -⟩ := checked_eq_some_iff.1 hrun
  exact ⟨_, .one (h _ _ _ _ hnext) hnext⟩

theorem SendStep.passes_closeIfError (h : next.Grows) : SendStep.closeIfError.Passes next := by
  intro request w result w' hrun
  rcases closing_eq_some_iff.1 hrun with ⟨r, hnext, -⟩ | ⟨e, v, hnext, -, rfl⟩
  · exact ⟨_, .one (h _ _ _ _ hnext) hnext, SendStep.isWithin_one _⟩
  · exact ⟨_, .around (.refl w) (h _ _ _ _ hnext) hnext (.write v e.isPassage_closingEvents),
      SendStep.isWithin_one _⟩

/-- A wait that is interrupted leads to no call. -/
theorem SendStep.passes_afterDelay (h : next.Grows) (delay : Duration) :
    (SendStep.afterDelay delay).Passes next := by
  intro request w result w' hrun
  rcases delayed_eq_some_iff.1 hrun with ⟨hwait, -⟩ | ⟨v, hwait, hnext⟩
  · exact ⟨[], .silent (.pause hwait), fun _ _ => Nat.zero_le _⟩
  · exact ⟨_, .around (.pause hwait) (h _ _ _ _ hnext) hnext (.refl w'),
      SendStep.isWithin_one _⟩

/-- The attempts of a retry from one on, of which `attempts` have been made before: there are no
    more than are left, and nothing is recorded between them. -/
theorem SendStep.passes_retry (h : next.Grows) (policy : RetryPolicy) (limit : Budget) :
    (SendStep.retry policy limit).Passes next := by
  intro request w result w' hrun
  have hloop := Run.iterate_from (fun attempts v _ w' => ∃ calls,
    Stretch next request v w' calls ∧
      ∀ n, limit = .attempts n → attempts < max n 1 → attempts + calls.length ≤ max n 1) ?_ ?_ hrun
  · obtain ⟨calls, hstretch, hlimit⟩ := hloop
    refine ⟨calls, hstretch, fun m hm => ?_⟩
    cases limit with
    | attempts n =>
      obtain rfl := Option.some.inj hm
      have hle := hlimit n rfl (by omega)
      omega
    | duration d => exact absurd hm (by simp [SendStep.limit?])
  · intro attempts v attempts' u result w' hturn hrest
    obtain ⟨calls, hstretch, hlimit⟩ := hrest
    cases retryTurn_eq_some_iff.1 hturn with
    | @again e back _ called goes waited =>
      have hquiet := (World.Silent.putsAway back policy request attempts e).trans (.pause waited)
      refine ⟨_ :: calls, .append (.around (.refl v) (h _ _ _ _ called) called hquiet) hstretch,
        fun n hn hlt => ?_⟩
      subst hn
      have hmore : attempts + 1 < max n 1 := Nat.lt_of_not_le fun hle =>
        (endsRetry_attempts_eq_false n attempts _ _).1 goes (.inr (.inr hle))
      have hle := hlimit n rfl hmore
      rw [List.length_cons]
      omega
  · intro attempts v result w' hturn
    have hfirst : ∀ n, limit = .attempts n → attempts < max n 1 → attempts + 1 ≤ max n 1 :=
      fun n _ hlt => hlt
    cases retryTurn_eq_some_iff.1 hturn with
    | last called ends => exact ⟨_, .one (h _ _ _ _ called) called, hfirst⟩
    | @interrupted e back _ called goes waited =>
      have hquiet := (World.Silent.putsAway back policy request attempts e).trans (.pause waited)
      exact ⟨_, .around (.refl v) (h _ _ _ _ called) called hquiet, hfirst⟩

/-- Every step but a probe makes each call into calls of the sender that it wraps. -/
theorem SendStep.passes (h : next.Grows) {step : SendStep} (hstep : step.name? = none) :
    step.Passes next := by
  have hchecked : ∀ {codes : List Status} {failOnMatch : Bool} {request : Request} {w w' : World}
      {result : SendResult}, checked codes failOnMatch next request w = some (result, w') →
      ∃ calls, Stretch next request w w' calls ∧ IsWithin (some 1) calls.length := by
    intro codes failOnMatch request w w' result hrun
    obtain ⟨d, hd⟩ := checked_stretch h hrun
    exact ⟨[d], hd, SendStep.isWithin_one .asIs⟩
  cases step with
  | asIs => exact fun request w result w' hrun => ⟨_, .one (h _ _ _ _ hrun) hrun,
      SendStep.isWithin_one .asIs⟩
  | logging title => exact SendStep.passes_logging h title
  | errorIf codes => exact fun request w result w' hrun => hchecked hrun
  | errorUnless codes => exact fun request w result w' hrun => hchecked hrun
  | closeIfError => exact SendStep.passes_closeIfError h
  | afterDelay delay => exact SendStep.passes_afterDelay h delay
  | retry policy limit => exact SendStep.passes_retry h policy limit
  | probe name => exact absurd hstep (by simp [SendStep.name?])

/-- A probe puts a bracket around a call. -/
theorem probed_call {name : String} {request : Request} {w w' : World} {result : SendResult}
    (h : next.Grows) (hrun : probed name next request w = some (result, w')) :
    ∃ d : Call, next.call request d.sent = some d ∧ d.Between w w' ∧
      w.journal <+: w'.journal ∧ passages (w'.since w) = d.bracket name := by
  obtain ⟨v, hnext, rfl⟩ := probed_eq_some_iff.1 hrun
  have hv := h request _ result v hnext
  have hbegins : w.journal <+: (w.write [.entered name]).journal := List.prefix_append _ _
  have hends : ∀ events, v.journal <+: (v.write events).journal := fun _ => List.prefix_append _ _
  refine ⟨⟨request, w.write [.entered name], result, v⟩, Sender.call_eq_some.2 ⟨rfl, rfl, hnext⟩,
    ⟨hbegins, hends _⟩, hbegins.trans (hv.trans (hends _)), ?_⟩
  rw [World.since_append hbegins (hv.trans (hends _)), World.since_append hv (hends _),
    passages_append, passages_append, passages_since_write, passages_since_write]
  rfl

theorem Sender.Grows.decorate (h : next.Grows) (step : SendStep) : (step.decorate next).Grows := by
  intro request w result w' hrun
  cases hname : step.name? with
  | none =>
    obtain ⟨calls, hcalls, -⟩ := SendStep.passes h hname request w result w' hrun
    exact hcalls.grows
  | some name =>
    cases step with
    | probe name' =>
      obtain ⟨-, -, -, hgrows, -⟩ := probed_call h hrun
      exact hgrows
    | _ => exact absurd hname (by simp [SendStep.name?])

theorem Sender.Grows.decorateSender (h : next.Grows) (steps : List SendStep) :
    (decorateSender steps next).Grows := by
  induction steps with
  | nil => exact h
  | cons step rest ih => exact ih.decorate step

/-- A row of steps without a probe makes every call into calls of the sender that it wraps, as many
    as the limits of the steps allow together. -/
theorem decorateSender_stretch (h : next.Grows) {steps : List SendStep} (hsteps : Unprobed steps)
    {request : Request} {w w' : World} {result : SendResult}
    (hrun : decorateSender steps next request w = some (result, w')) :
    ∃ calls, Stretch next request w w' calls ∧ IsWithin (limit? steps) calls.length := by
  induction steps generalizing w w' result with
  | nil => exact ⟨_, .one (h _ _ _ _ hrun) hrun, SendStep.isWithin_one .asIs⟩
  | cons step rest ih =>
    obtain ⟨hstep, hrest⟩ := List.forall_mem_cons.1 hsteps
    obtain ⟨calls, hcalls, hwithin⟩ :=
      SendStep.passes (h.decorateSender rest) hstep request w result w' hrun
    have hinner : ∀ d, ∃ parts, d ∈ calls →
        Stretch next request d.sent d.back parts ∧ IsWithin (limit? rest) parts.length := by
      intro d
      by_cases hd : d ∈ calls
      · obtain ⟨-, -, hcalled⟩ := Sender.call_eq_some.1 (hcalls.called d hd)
        obtain ⟨parts, hparts⟩ := ih hrest hcalled
        exact ⟨parts, fun _ => hparts⟩
      · exact ⟨[], fun hmem => absurd hmem hd⟩
    choose parts hparts using hinner
    exact ⟨calls.flatMap parts, hcalls.flatten parts fun d hd => (hparts d hd).1,
      isWithin_flatMap hwithin fun d hd => (hparts d hd).2⟩

end Steps

/-! ## Onions -/

/-- How what calls through a stack of steps record is nested. Without a probe they record the
    requests that go out. With one they record brackets of it, each with a call inside that goes
    through the steps behind the probe, that is nested in the same way and whose result closes the
    bracket. The steps in front limit how often the sender behind them is called. -/
inductive Onion : List SendStep → Call → Prop
  | core {steps : List SendStep} {c : Call} (unprobed : Unprobed steps)
      (sends : ∀ event ∈ c.word, ∃ number flag, event = .sent number c.request flag)
      (within : IsWithin (limit? steps) c.word.length) : Onion steps c
  | layer {steps inner : List SendStep} {name : String} {c : Call} (unprobed : Unprobed steps)
      (calls : List Call)
      (word : c.word = calls.flatMap (Call.bracket name))
      (within : IsWithin (limit? steps) calls.length)
      (between : ∀ d ∈ calls, d.Between c.sent c.back)
      (called : ∀ d ∈ calls, (decorateSender inner transport).call c.request d.sent = some d)
      (nested : ∀ d ∈ calls, Onion inner d) : Onion (steps ++ .probe name :: inner) c

theorem transport_grows : transport.Grows := by
  intro request w result w' hrun
  rw [transport_apply] at hrun
  obtain ⟨-, rfl⟩ := Prod.mk.inj (Option.some.inj hrun)
  exact List.prefix_append _ _

/-- The transport records that it has taken its request. -/
theorem Call.word_transport {request : Request} {c : Call} {w : World}
    (h : transport.call request w = some c) : c.word = [.sent w.sent request w.isCancelled] := by
  obtain ⟨-, rfl, hrun⟩ := Sender.call_eq_some.1 h
  rw [transport_apply] at hrun
  obtain ⟨-, hback⟩ := Prod.mk.inj (Option.some.inj hrun)
  have hsince : (c.sent.exchanges request).since c.sent =
      (c.sent.write [.sent c.sent.sent request c.sent.isCancelled]).since c.sent := rfl
  rw [Call.word, ← hback, hsince, passages_since_write]
  rfl

/-- A stack of steps has no probe, or a first one. -/
theorem unprobed_or_first (steps : List SendStep) :
    Unprobed steps ∨
      ∃ front name inner, steps = front ++ .probe name :: inner ∧ Unprobed front := by
  induction steps with
  | nil => exact .inl (by simp [Unprobed])
  | cons step rest ih =>
    cases hname : step.name? with
    | some name =>
      cases step with
      | probe name' => exact .inr ⟨[], name', rest, rfl, by simp [Unprobed]⟩
      | _ => exact absurd hname (by simp [SendStep.name?])
    | none =>
      rcases ih with hrest | ⟨front, name, inner, rfl, hfront⟩
      · exact .inl (List.forall_mem_cons.2 ⟨hname, hrest⟩)
      · exact .inr ⟨step :: front, name, inner, rfl, List.forall_mem_cons.2 ⟨hname, hfront⟩⟩

theorem decorateSender_append (front inner : List SendStep) (next : Sender) :
    decorateSender (front ++ inner) next = decorateSender front (decorateSender inner next) := by
  simp [decorateSender]

/-- Calls through a stack without a probe. -/
theorem onion_of_unprobed {steps : List SendStep} (hsteps : Unprobed steps) {request : Request}
    {w : World} {c : Call} (h : (decorateSender steps transport).call request w = some c) :
    Onion steps c := by
  obtain ⟨rfl, rfl, hrun⟩ := Sender.call_eq_some.1 h
  obtain ⟨calls, hcalls, hwithin⟩ := decorateSender_stretch transport_grows hsteps hrun
  have hword : c.word = calls.map fun d => .sent d.sent.sent c.request d.sent.isCancelled := by
    rw [List.map_eq_flatMap, ← List.flatMap_congr fun d hd =>
      Call.word_transport (hcalls.called d hd)]
    exact hcalls.word
  refine .core hsteps (fun event he => ?_) ?_
  · rw [hword] at he
    obtain ⟨d, -, rfl⟩ := List.mem_map.1 he
    exact ⟨_, _, rfl⟩
  · rw [hword, List.length_map]
    exact hwithin

/-- Calls through steps in front of a probe, if the calls behind it are nested. -/
theorem onion_of_probe {front inner : List SendStep} (hfront : Unprobed front) {name : String}
    (hinner : ∀ {request : Request} {w : World} {d : Call},
      (decorateSender inner transport).call request w = some d → Onion inner d)
    {request : Request} {w : World} {c : Call}
    (h : (decorateSender (front ++ .probe name :: inner) transport).call request w = some c) :
    Onion (front ++ .probe name :: inner) c := by
  obtain ⟨rfl, rfl, hrun⟩ := Sender.call_eq_some.1 h
  rw [decorateSender_append] at hrun
  have hgrows := transport_grows.decorateSender inner
  obtain ⟨calls, hcalls, hwithin⟩ :=
    decorateSender_stretch (hgrows.decorate (.probe name)) hfront hrun
  -- Inside the bracket that each call of the probe records there is a call of the steps behind it.
  have hbehind : ∀ b, ∃ d : Call, b ∈ calls →
      (decorateSender inner transport).call c.request d.sent = some d ∧ d.Between b.sent b.back ∧
        b.word = d.bracket name := by
    intro b
    by_cases hb : b ∈ calls
    · obtain ⟨-, -, hprobed⟩ := Sender.call_eq_some.1 (hcalls.called b hb)
      obtain ⟨d, hd, hbetween, -, hword⟩ := probed_call hgrows hprobed
      exact ⟨d, fun _ => ⟨hd, hbetween, hword⟩⟩
    · exact ⟨b, fun hmem => absurd hmem hb⟩
  choose behind hbehind using hbehind
  refine .layer hfront (calls.map behind) ?_ ?_ ?_ ?_ ?_
  · rw [List.flatMap_map, ← List.flatMap_congr fun b hb => (hbehind b hb).2.2]
    exact hcalls.word
  · rw [List.length_map]
    exact hwithin
  · intro d hd
    obtain ⟨b, hb, rfl⟩ := List.mem_map.1 hd
    exact ⟨(hcalls.between b hb).begins.trans (hbehind b hb).2.1.begins,
      (hbehind b hb).2.1.ends.trans (hcalls.between b hb).ends⟩
  · intro d hd
    obtain ⟨b, hb, rfl⟩ := List.mem_map.1 hd
    exact (hbehind b hb).1
  · intro d hd
    obtain ⟨b, hb, rfl⟩ := List.mem_map.1 hd
    exact hinner (hbehind b hb).1

/-- How calls through a stack of steps are nested. -/
theorem decorateSender_onion (steps : List SendStep) {request : Request} {w : World} {c : Call}
    (h : (decorateSender steps transport).call request w = some c) : Onion steps c := by
  generalize hn : steps.length = n
  induction n using Nat.strongRecOn generalizing steps request w c with
  | ind n ih =>
    rcases unprobed_or_first steps with hsteps | ⟨front, name, inner, rfl, hfront⟩
    · exact onion_of_unprobed hsteps h
    · refine onion_of_probe hfront (fun hd => ?_) h
      refine ih inner.length ?_ inner hd rfl
      rw [← hn, List.length_append, List.length_cons]
      omega

/-- **Probes see an onion.** Whatever a service replies and whenever the caller cancels: in every
    call through a stack of steps that comes back, the probes and the transport record a word of
    brackets that are nested in the order of the steps. Each bracket of a probe holds a call of the
    steps behind it and is closed by the result of this call; it lies directly inside a bracket of
    the probe before, as requests lie directly inside brackets of the last one. There is no more
    than one of them unless a retry stands between, and then no more than its attempts. -/
theorem calls_are_onions (steps : List SendStep) (request : Request) (w : World) (c : Call)
    (h : (decorateSender steps transport).call request w = some c) :
    c.sent.journal <+: c.back.journal ∧ Onion steps c := by
  obtain ⟨-, rfl, hrun⟩ := Sender.call_eq_some.1 h
  exact ⟨transport_grows.decorateSender steps _ _ _ _ hrun, decorateSender_onion steps h⟩

/-- A service that is busy once. -/
def onceBusyService : World :=
  World.start [⟨0, .response ⟨503⟩ [] none⟩] ⟨0, .response ⟨200⟩ [] none⟩

/-- A retry between two probes. -/
def probedRetry : List SendStep :=
  [.probe "outer", .retryAttempts 2 (.ofSeconds 1), .probe "inner", .errorIf [⟨503⟩]]

/-- The second attempt at that service succeeds. -/
theorem onceBusy_call : ∃ c,
    (decorateSender probedRetry transport).call Request.empty onceBusyService = some c ∧
    c.word = [.entered "outer",
      .entered "inner", .sent 0 Request.empty false, .left "inner" (.error .unexpectedStatus),
      .entered "inner", .sent 1 Request.empty false, .left "inner" (.ok ⟨200⟩),
      .left "outer" (.ok ⟨200⟩)] := by
  let policy := (RetryPolicy.exponential (.ofSeconds 1)).withMaxAttempts 2
  let inner := decorateSender [.probe "inner", .errorIf [⟨503⟩]] transport
  let begun := onceBusyService.write [.entered "outer"]
  obtain ⟨d, hd, hresult, hword⟩ : ∃ d,
      retryCall policy (.attempts 2) inner Request.empty begun 1 = some d ∧
      d.result = .ok ⟨⟨200⟩, [], none⟩ ∧
      passages d.back.journal = [.entered "outer",
        .entered "inner", .sent 0 Request.empty false, .left "inner" (.error .unexpectedStatus),
        .entered "inner", .sent 1 Request.empty false, .left "inner" (.ok ⟨200⟩)] :=
    ⟨_, rfl, rfl, rfl⟩
  have hends : endsRetry (.attempts 2) 2 (d.back.clock - begun.clock) d.result = true := by
    rw [hresult]
    rfl
  have hretry : retried policy (.attempts 2) inner Request.empty begun =
      some (.ok ⟨⟨200⟩, [], none⟩, d.back) :=
    retried_eq_some_iff.2 ⟨1, d, hd, .inl ⟨hends, hresult, rfl⟩⟩
  have hrun : decorateSender probedRetry transport Request.empty onceBusyService =
      some (.ok ⟨⟨200⟩, [], none⟩, d.back.write [.left "outer" (.ok ⟨200⟩)]) := by
    show probed "outer" (retried policy (.attempts 2) inner) Request.empty onceBusyService = _
    simp only [probed, Run.bind_apply, Run.lift_apply, record_apply, Option.bind_some]
    rw [hretry]
    rfl
  refine ⟨⟨_, _, _, _⟩, Sender.call_eq_some.2 ⟨rfl, rfl, hrun⟩, ?_⟩
  show passages (d.back.journal ++ [⟨d.back.clock, .left "outer" (.ok ⟨200⟩)⟩]) = _
  rw [passages_append, hword]
  rfl

/-- The outer probe's bracket holds two of the inner one, for there are two attempts. -/
theorem calls_are_onions_onceBusy : ∃ c,
    (decorateSender probedRetry transport).call Request.empty onceBusyService = some c ∧
    c.word = [.entered "outer",
      .entered "inner", .sent 0 Request.empty false, .left "inner" (.error .unexpectedStatus),
      .entered "inner", .sent 1 Request.empty false, .left "inner" (.ok ⟨200⟩),
      .left "outer" (.ok ⟨200⟩)] ∧
    Onion probedRetry c := by
  obtain ⟨c, hc, hword⟩ := onceBusy_call
  exact ⟨c, hc, hword, (calls_are_onions probedRetry Request.empty onceBusyService c hc).2⟩

end Courier
