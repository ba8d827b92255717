import Courier.Proofs.Polling.Calls

set_option autoImplicit false

/-! # Where polls go

A response may name the location of the next poll, relative to where the response came from. A loop
keeps the text that has been named last. After a response that names nothing it takes this text once
more, relative to where it has led, and so a location that adds to a path adds to it again. -/

namespace Courier

/-- Where a location leads from a URL. Without a location the URL stays. -/
def LeadsTo (url : Option Url) : Option String → Option Url → Prop
  | none, next => next = url
  | some text, next => ∃ u, Url.parseFrom url text = .ok u ∧ next = some u

/-- A location leads to one place. -/
theorem LeadsTo.unique {url next other : Option Url} {location : Option String}
    (h : LeadsTo url location next) (h' : LeadsTo url location other) : next = other := by
  cases location with
  | none => rw [show next = url from h, show other = url from h']
  | some text =>
    obtain ⟨u, hu, rfl⟩ := h
    obtain ⟨u', hu', rfl⟩ := h'
    rw [hu] at hu'
    rw [Except.ok.inj hu']

/-- A location leads back exactly if there is none or it leads back. -/
theorem LeadsTo.stays_iff {url next : Option Url} {location : Option String}
    (h : LeadsTo url location next) :
    next = url ↔ ∀ text, location = some text → LeadsTo url (some text) url := by
  cases location with
  | none => exact ⟨fun _ _ hnone => absurd hnone (by simp), fun _ => h⟩
  | some text =>
    constructor
    · rintro rfl text' htext
      rwa [← htext]
    · intro hback
      exact h.unique (hback text rfl)

section Calls

variable {sender : Sender} {plan : PollingPlan} {firstDelay : Duration} {request : Request}
  {w : World} {k : Nat} {c d : Call}

theorem Polling.leadsTo_of_requestAfter {p : Polling} {r : Response} {next : Request}
    (h : p.requestAfter r = .ok next) : LeadsTo p.request.url (p.location? r) next.url := by
  unfold Polling.requestAfter at h
  cases hl : p.location? r with
  | none =>
    simp only [hl, Except.ok.injEq] at h
    rw [← h]
    rfl
  | some text =>
    simp only [hl] at h
    obtain ⟨u, hu, rfl⟩ := Request.eq_of_follow h
    exact ⟨u, hu, rfl⟩

/-- A poll after one that brought no response goes to the same URL; one after a response goes where
    the location in force leads. -/
theorem pollCall_succ_url (hc : pollCall sender plan firstDelay request w k = some c)
    (hd : pollCall sender plan firstDelay request w (k + 1) = some d) :
    (∀ e, c.result = .error e → d.request.url = c.request.url) ∧
    ∀ r, c.result = .ok r → LeadsTo c.request.url
      (r.pollingLocation?.orElse fun _ =>
        locationBefore (pollCall sender plan firstDelay request w) k) d.request.url := by
  obtain ⟨q, u, hnext, hlater⟩ := pollCall_eq_some.1 hd
  obtain ⟨p, v, c', hreach, hcall, hafter⟩ := pollReach_succ_eq_some.1 hnext
  obtain rfl : c' = c :=
    Option.some.inj ((pollCall_eq_some.2 ⟨p, v, hreach, hcall⟩).symm.trans hc)
  rw [(Sender.callAfter_eq_some.1 hlater).2.1, (Sender.callAfter_eq_some.1 hcall).2.1]
  have hlocation := (pollReach_standing hreach).location
  generalize c'.result = answer at hafter ⊢
  cases hafter with
  | again => exact ⟨fun _ _ => rfl, fun _ h => absurd h (by simp)⟩
  | pending requires goes leads =>
    refine ⟨fun _ h => absurd h (by simp), fun r h => ?_⟩
    obtain rfl := Except.ok.inj h
    have hleads := Polling.leadsTo_of_requestAfter leads
    rwa [Polling.location?, hlocation] at hleads

/-- **Where each poll goes.** If a poll brings no response, the next one goes to the same URL. If a
    response names a location, the next poll goes where it leads from the URL of the response. If it
    names none, the next poll goes where the location that was named before leads from there, and
    stays if there is no such location. So the next poll goes where its own response says exactly if
    either there is nothing to take once more, or taking it once more leads back to the same URL. -/
theorem poll_location (hc : pollCall sender plan firstDelay request w k = some c)
    (hd : pollCall sender plan firstDelay request w (k + 1) = some d) :
    let remembered := locationBefore (pollCall sender plan firstDelay request w) k
    (∀ e, c.result = .error e → d.request.url = c.request.url) ∧
    (∀ r text, c.result = .ok r → r.pollingLocation? = some text →
      ∃ u, Url.parseFrom c.request.url text = .ok u ∧ d.request.url = some u) ∧
    (∀ r, c.result = .ok r → r.pollingLocation? = none →
      LeadsTo c.request.url remembered d.request.url) ∧
    (LeadsTo c.request.url c.location? d.request.url ↔
      ∀ r text, c.result = .ok r → r.pollingLocation? = none → remembered = some text →
        LeadsTo c.request.url (some text) c.request.url) := by
  intro remembered
  obtain ⟨hfailed, hanswered⟩ := pollCall_succ_url hc hd
  refine ⟨hfailed, ?_, ?_, ?_⟩
  · intro r text hr htext
    have hleads := hanswered r hr
    rwa [htext] at hleads
  · intro r hr hnone
    have hleads := hanswered r hr
    rwa [hnone] at hleads
  · cases hr : c.result with
    | error e =>
      rw [Call.location?_of_error hr]
      exact ⟨fun _ r _ h => absurd h (by simp), fun _ => hfailed e hr⟩
    | ok r =>
      rw [Call.location?_of_ok hr]
      have hleads := hanswered r hr
      cases htext : r.pollingLocation? with
      | some text =>
        rw [htext] at hleads
        refine ⟨fun _ r' text' h hnone => ?_, fun _ => hleads⟩
        obtain rfl := Except.ok.inj h
        rw [htext] at hnone
        exact absurd hnone (by simp)
      | none =>
        rw [htext] at hleads
        refine (LeadsTo.stays_iff hleads).trans ⟨fun hback r' text _ _ => hback text, ?_⟩
        intro hback text hremembered
        exact hback r text rfl htext hremembered

end Calls

/-! ## A location that is taken twice -/

/-- A service that answers with a location below the one that was asked for, then with no location,
    and that is then done. -/
def onceLocated : World :=
  World.start [⟨0, .response ⟨202⟩ [(⟨HeaderName.location⟩, ⟨Utf8.encode "x/"⟩)] none⟩,
    ⟨0, .response ⟨202⟩ [] none⟩] ⟨0, .response ⟨200⟩ [] none⟩

/-- A call of a loop of three polls, one second apart, of that service. -/
def onceLocatedCall (k : Nat) : Option Call :=
  pollCall transport ⟨.ofSeconds 1, .attempts 3, []⟩ (.ofSeconds 1)
    { Request.empty with url := (Url.parse "http://h/a/").toOption } onceLocated k

/-- The second response names no location, and the third poll goes below the second one. -/
theorem poll_location_below : ∃ c d, onceLocatedCall 1 = some c ∧ onceLocatedCall 2 = some d ∧
    c.request.urlText = "http://h/a/x/" ∧ d.request.urlText = "http://h/a/x/x/" ∧
    LeadsTo c.request.url (some "x/") d.request.url := by
  have hurls : (onceLocatedCall 1).map (fun c => c.request.urlText) = some "http://h/a/x/" ∧
      (onceLocatedCall 2).map (fun d => d.request.urlText) = some "http://h/a/x/x/" := by
    decide +kernel
  have hanswer : (onceLocatedCall 1).map (fun c => c.result) = some (.ok ⟨⟨202⟩, [], none⟩) := rfl
  have hremembered : locationBefore onceLocatedCall 1 = some "x/" := by decide +kernel
  obtain ⟨c, hc, hcurl⟩ := Option.map_eq_some_iff.1 hurls.1
  obtain ⟨d, hd, hdurl⟩ := Option.map_eq_some_iff.1 hurls.2
  rw [hc] at hanswer
  have hleads := (poll_location hc hd).2.2.1 _ (Option.some.inj hanswer) rfl
  exact ⟨c, d, hc, hd, hcurl, hdurl, hremembered ▸ hleads⟩

/-- It is not so that every poll goes where the response before it says, or stays if that says
    nothing. -/
theorem not_poll_location_of_response : ¬∀ (sender : Sender) (plan : PollingPlan)
    (firstDelay : Duration) (request : Request) (w : World) (k : Nat) (c d : Call),
    pollCall sender plan firstDelay request w k = some c →
    pollCall sender plan firstDelay request w (k + 1) = some d →
    LeadsTo c.request.url c.location? d.request.url := by
  intro h
  have hurls : (onceLocatedCall 1).map (fun c => c.request.urlText) = some "http://h/a/x/" ∧
      (onceLocatedCall 2).map (fun d => d.request.urlText) = some "http://h/a/x/x/" ∧
      (onceLocatedCall 1).map Call.location? = some none := by
    decide +kernel
  obtain ⟨c, hc, hcurl⟩ := Option.map_eq_some_iff.1 hurls.1
  obtain ⟨d, hd, hdurl⟩ := Option.map_eq_some_iff.1 hurls.2.1
  have hlocation : c.location? = none := by
    have hmap := hurls.2.2
    rw [hc] at hmap
    exact Option.some.inj hmap
  have hleads := h _ _ _ _ _ _ c d hc hd
  rw [hlocation] at hleads
  have hsame : d.request.urlText = c.request.urlText := by
    unfold Request.urlText
    rw [show d.request.url = c.request.url from hleads]
  rw [hcurl, hdurl] at hsame
  exact absurd hsame (by decide)

end Courier
