import Courier.Proofs.Exchange.Stages
import Courier.Proofs.Polling.Outcome

set_option autoImplicit false

/-! # How polls are prepared

A session prepares the request of its polls once, for the location that the accepted response names.
When a later response names another location, the URL is all that changes in the request: what the
steps of the session have put into the other parts stays, and what they do to a URL is not done to
the new one. -/

namespace Courier

section Calls

variable {sender : Sender} {plan : PollingPlan} {firstDelay : Duration} {request : Request}
  {w : World}

/-- No location is in force after a call only if none was before and the call names none. -/
theorem locationBefore_succ_eq_none {calls : Nat → Option Call} {k : Nat} {c : Call}
    (hc : calls k = some c) (h : locationBefore calls (k + 1) = none) :
    c.location? = none ∧ locationBefore calls k = none := by
  rw [locationBefore_succ hc] at h
  cases hl : c.location? with
  | none =>
    rw [hl] at h
    exact ⟨rfl, h⟩
  | some text =>
    rw [hl] at h
    exact absurd h (by simp)

/-- As long as no response has named a location, the request stays as it is. -/
theorem pollReach_request_of_none {k : Nat} {p : Polling} {v : World}
    (h : pollReach sender plan firstDelay request w k = some (p, v))
    (hnone : locationBefore (pollCall sender plan firstDelay request w) k = none) :
    p.request = request := by
  induction k generalizing p v with
  | zero =>
    obtain ⟨rfl, -⟩ := Prod.mk.inj (Option.some.inj h)
    rfl
  | succ k ih =>
    obtain ⟨q, u, c, hreach, hcall, hafter⟩ := pollReach_succ_eq_some.1 h
    obtain ⟨hown, hbefore⟩ := locationBefore_succ_eq_none
      (pollCall_eq_some.2 ⟨q, u, hreach, hcall⟩) hnone
    have hq := ih hreach hbefore
    have hlocation := (pollReach_standing hreach).location.trans hbefore
    obtain ⟨sent, asked, result, back⟩ := c
    cases hafter with
    | again => exact hq
    | @pending r next requires goes leads =>
      -- No location is in force, so the loop goes on with the request that it has.
      have hthere : q.location? r = none := by
        unfold Polling.location?
        rw [hlocation, show r.pollingLocation? = none from hown]
        rfl
      unfold Polling.requestAfter at leads
      rw [hthere] at leads
      rw [← hq]
      exact (Except.ok.inj leads).symm

/-- The request of a poll has a URL if the first one has. -/
theorem pollReach_url {k : Nat} {p : Polling} {v : World}
    (h : pollReach sender plan firstDelay request w k = some (p, v))
    (hurl : ∃ u, request.url = some u) : ∃ u, p.request.url = some u := by
  induction k generalizing p v with
  | zero =>
    obtain ⟨rfl, -⟩ := Prod.mk.inj (Option.some.inj h)
    exact hurl
  | succ k ih =>
    obtain ⟨q, u, c, hreach, hcall, hafter⟩ := pollReach_succ_eq_some.1 h
    have hq := ih hreach
    obtain ⟨sent, asked, result, back⟩ := c
    cases hafter with
    | again => exact hq
    | @pending r next requires goes leads =>
      unfold Polling.requestAfter at leads
      split at leads
      · obtain ⟨url, -, rfl⟩ := Request.eq_of_follow leads
        exact ⟨url, rfl⟩
      · rw [show (q.next plan r next).request = next from rfl, ← Except.ok.inj leads]
        exact hq

end Calls

/-! ## Sessions -/

/-- What a session polls with is prepared for the location that the accepted response names. -/
theorem Session.exists_home {s : Session} {cancellable : Bool} {r : Response} {w v : World}
    {request : Request} (h : s.preparePolling cancellable r w = (.ok request, v)) :
    ∃ text home, r.pollingLocation? = some text ∧ Url.parse text = .ok home ∧
      s.dressed cancellable home = .ok request := by
  have hresult := s.preparePolling_fst cancellable r w
  rw [h] at hresult
  unfold Session.pollingResult at hresult
  repeat' split at hresult
  all_goals cases hresult
  rename_i text hl _ home hu _ hd
  exact ⟨text, home, hl, hu, hd⟩

/-- Steps that prepare a request for one URL prepare one for every URL, and the two differ by their
    URLs alone. -/
theorem Session.dressed_at {s : Session} {cancellable : Bool} {home : Url} {request : Request}
    (h : s.dressed cancellable home = .ok request) :
    request.url = some (onUrl s.steps home) ∧
      ∀ u, s.dressed cancellable u = .ok { request with url := some (onUrl s.steps u) } :=
  prepared_at (r := (Request.get home).setCancellable cancellable) rfl h

/-- **How polls are prepared.** A session that polls after a response either fails for want of a
    request or polls with one that has been prepared for the location of that response. As long as
    no poll has named another location, this is the request of every poll. From then on, the request
    of a poll is the one that the steps of the session prepare for its URL, but for what they do to
    the URL: so it is that request exactly if they leave this URL as it is. -/
theorem pollAsNeeded_dressed (s : Session) (sender : Sender) (cancellable : Bool) {r : Response}
    (goes : s.shouldPoll r = true) (w : World) :
    let polled := s.pollAsNeeded sender r cancellable w
    (∃ e v, s.preparePolling cancellable r w = (.error e, v) ∧ polled = some (.error e, v)) ∨
    ∃ request v text home, s.preparePolling cancellable r w = (.ok request, v) ∧
      polled = poll sender s.plan (r.pollingDelay s.pollingDelay) request v ∧
      r.pollingLocation? = some text ∧ Url.parse text = .ok home ∧
      let call := pollCall sender s.plan (r.pollingDelay s.pollingDelay) request v
      ∀ k c, call k = some c →
        (locationBefore call k = none → s.dressed cancellable home = .ok c.request) ∧
        ∃ u d, c.request.url = some u ∧ s.dressed cancellable u = .ok d ∧
          c.request = { d with url := some u } ∧
          (s.dressed cancellable u = .ok c.request ↔ onUrl s.steps u = u) := by
  intro polled
  have hpolled : polled = _ := s.pollAsNeeded_apply sender r cancellable w
  rw [if_pos goes] at hpolled
  cases hp : s.preparePolling cancellable r w with
  | mk outcome v =>
    rw [hp] at hpolled
    cases outcome with
    | error e => exact .inl ⟨e, v, rfl, hpolled⟩
    | ok request =>
      obtain ⟨text, home, hl, hhome, hdressed⟩ := Session.exists_home hp
      obtain ⟨hurl, hat⟩ := Session.dressed_at hdressed
      refine .inr ⟨request, v, text, home, rfl, hpolled, hl, hhome, fun k c hc => ?_⟩
      obtain ⟨p, x, hreach, hcall⟩ := pollCall_eq_some.1 hc
      have hasked : c.request = p.request := (Sender.callAfter_eq_some.1 hcall).2.1
      refine ⟨fun hnone => ?_, ?_⟩
      · rw [hasked, pollReach_request_of_none hreach hnone]
        exact hdressed
      · obtain ⟨u, hu⟩ := pollReach_url hreach ⟨_, hurl⟩
        rw [← hasked] at hu
        have hrequest := pollCall_request hc
        rw [hu] at hrequest
        refine ⟨u, _, hu, hat u, hrequest, ?_⟩
        rw [hat u]
        constructor
        · intro h
          have hsame := congrArg Request.url (Except.ok.inj h)
          rw [hu] at hsame
          exact Option.some.inj hsame
        · intro h
          rw [h, ← hrequest]

/-! ## A service that moves an operation -/

/-- A session that adds a field to the query of every request. -/
def versioned : Session := { Session.standard with inspectors := [.query [("v", "1")]] }

/-- A response that has accepted an operation. -/
def accepted : Response := ⟨⟨202⟩, [(⟨HeaderName.location⟩, ⟨Utf8.encode "http://h/a"⟩)], none⟩

/-- A service that answers the first poll with another location, and the second with the end. -/
def movingService : World :=
  World.start [⟨0, .response ⟨202⟩ [(⟨HeaderName.location⟩, ⟨Utf8.encode "http://h/b"⟩)] none⟩]
    ⟨0, .response ⟨200⟩ [] none⟩

/-- A URL of that service. -/
def movingUrl (path : String) (query : Option String) : Url :=
  ⟨"http", some ⟨"", "", "h", none⟩, .rooted [path], false, query, none⟩

/-- The request that the session prepares for that service. -/
def versionedRequest : Request :=
  { Request.get (movingUrl "a" (some "v=1")) with
    headers := [(⟨"user-agent"⟩, ⟨Utf8.encode defaultUserAgent⟩)] }

theorem preparePolling_versioned : ∃ v,
    versioned.preparePolling false accepted movingService = (.ok versionedRequest, v) := by
  have hresult := versioned.preparePolling_fst false accepted movingService
  have hprepared : versioned.pollingResult false accepted = .ok versionedRequest :=
    eq_ok_of_toOption (by decide +kernel)
  cases hp : versioned.preparePolling false accepted movingService with
  | mk outcome v =>
    rw [hp] at hresult
    exact ⟨v, by rw [← hprepared, ← hresult]⟩

/-- A call of the polls of that session. -/
def versionedCall (k : Nat) : Option Call :=
  pollCall transport versioned.plan (accepted.pollingDelay versioned.pollingDelay) versionedRequest
    (versioned.preparePolling false accepted movingService).2 k

theorem versionedCall_eq : ∃ c d, versionedCall 0 = some c ∧ versionedCall 1 = some d ∧
    c.request = versionedRequest ∧ c.location? = some "http://h/b" ∧
    d.request.url = some (movingUrl "b" none) := by
  have hcalls : (versionedCall 0).map (fun c => (c.request, c.location?)) =
        some (versionedRequest, some "http://h/b") ∧
      (versionedCall 1).map (fun d => d.request.url) = some (some (movingUrl "b" none)) := by
    decide +kernel
  obtain ⟨c, hc, hfirst⟩ := Option.map_eq_some_iff.1 hcalls.1
  obtain ⟨d, hd, hsecond⟩ := Option.map_eq_some_iff.1 hcalls.2
  obtain ⟨hrequest, hlocation⟩ := Prod.mk.inj hfirst
  exact ⟨c, d, hc, hd, hrequest, hlocation, hsecond⟩

/-- The second of those polls does not carry the field, which the first one does. -/
theorem pollAsNeeded_dressed_versioned : versioned.shouldPoll accepted = true ∧
    ∃ c d, versionedCall 0 = some c ∧ versionedCall 1 = some d ∧
      versioned.dressed false (movingUrl "a" none) = .ok c.request ∧
      d.request.url = some (movingUrl "b" none) ∧
      versioned.dressed false (movingUrl "b" none) ≠ .ok d.request := by
  have goes : versioned.shouldPoll accepted = true := by decide
  obtain ⟨c, d, hc, hd, -, -, hurl⟩ := versionedCall_eq
  obtain ⟨v, hp⟩ := preparePolling_versioned
  refine ⟨goes, c, d, hc, hd, ?_⟩
  unfold versionedCall at hc hd
  rcases pollAsNeeded_dressed versioned transport false goes movingService with
    ⟨e, v', hfails, -⟩ | ⟨request, v', text, home, hprepared, -, hl, hhome, hcalls⟩
  · rw [hp] at hfails
    exact absurd (Prod.mk.inj hfails).1 (by simp)
  · rw [hp] at hprepared hc hd
    obtain ⟨hrequest, rfl⟩ := Prod.mk.inj hprepared
    obtain rfl := Except.ok.inj hrequest
    have hhere : text = "http://h/a" := by
      have h : accepted.pollingLocation? = some "http://h/a" := by decide +kernel
      exact Option.some.inj (hl.symm.trans h)
    have hthere : home = movingUrl "a" none := by
      have h : Url.parse "http://h/a" = .ok (movingUrl "a" none) :=
        eq_ok_of_toOption (by decide +kernel)
      rw [hhere] at hhome
      exact Except.ok.inj (hhome.symm.trans h)
    refine ⟨hthere ▸ (hcalls 0 c hc).1 rfl, hurl, fun hdressed => ?_⟩
    obtain ⟨-, u, -, hu, -, -, hiff⟩ := hcalls 1 d hd
    obtain rfl : u = movingUrl "b" none := Option.some.inj (hu.symm.trans hurl)
    exact absurd (hiff.1 hdressed) (by decide +kernel)

/-- It is not so that every poll after a response that names a location is the request that the
    session prepares for this location, even if its inspectors only set headers and add to the
    query. -/
theorem not_pollAsNeeded_dressed : ¬∀ (s : Session) (sender : Sender) (cancellable : Bool)
    (r : Response) (w v : World) (request : Request),
    (∀ step ∈ s.inspectors, (∃ name value, step = .header name value) ∨
      ∃ fields, step = .query fields) →
    s.preparePolling cancellable r w = (.ok request, v) →
    let call := pollCall sender s.plan (r.pollingDelay s.pollingDelay) request v
    ∀ k c d text u, call k = some c → call (k + 1) = some d → c.location? = some text →
      Url.parseFrom c.request.url text = .ok u → s.dressed cancellable u = .ok d.request := by
  intro h
  obtain ⟨v, hp⟩ := preparePolling_versioned
  obtain ⟨c, d, hc, hd, hrequest, hlocation, hurl⟩ := versionedCall_eq
  unfold versionedCall at hc hd
  rw [hp] at hc hd
  have hjoined : Url.parseFrom c.request.url "http://h/b" = .ok (movingUrl "b" none) := by
    rw [hrequest]
    exact eq_ok_of_toOption (by decide +kernel)
  have hinspectors : ∀ step ∈ versioned.inspectors,
      (∃ name value, step = .header name value) ∨ ∃ fields, step = .query fields := by
    intro step hstep
    exact .inr ⟨_, List.mem_singleton.1 hstep⟩
  have hdressed := h versioned transport false accepted movingService v versionedRequest
    hinspectors hp 0 c d _ _ hc hd hlocation hjoined
  have hquery : (versioned.dressed false (movingUrl "b" none)).toOption.map (fun r => r.url) =
      some (some (movingUrl "b" (some "v=1"))) := by decide +kernel
  rw [hdressed] at hquery
  have hsame : d.request.url = some (movingUrl "b" (some "v=1")) := Option.some.inj hquery
  rw [hurl] at hsame
  exact absurd hsame (by decide)

end Courier
