import Courier.Proofs.Preparing.Accepted
import Courier.Proofs.Settings.Fields

set_option autoImplicit false

/-! # What requests carry

A run makes one request of its settings and sends that with every attempt. Method, URL, body and
headers are those of the settings, but a session sets headers of its own after them, and setting a
header lets go of the values that it had. For the token and the client's id this is meant to be so.
The name of the program, though, is set in every case: it takes the place of the one that settings
give. -/

namespace Courier

/-! ## Setting headers -/

/-- The name of the header in which a program presents itself. -/
def HeaderName.userAgent : HeaderName := ⟨"user-agent"⟩

theorem PrepareStep.header_makes_ok {name value : String} {r r' : Request}
    (h : (PrepareStep.header name value).makes r = .ok r') :
    ∃ n v, Reads (name, value) (n, v) ∧ r' = { r with headers := r.headers.set n v } := by
  rw [PrepareStep.makes_eq_act (by simp)] at h
  dsimp only [PrepareStep.act] at h
  split at h
  · cases h
  · cases h
  · next n v hn hv => exact ⟨n, v, ⟨hn, hv⟩, (Except.ok.inj h).symm⟩

/-- Steps that set headers set them and leave the rest of a request alone. -/
theorem prepared_headerSteps_ok {headers : List (String × String)} {r r' : Request}
    (h : prepared (headerSteps headers) r = .ok r') :
    ∃ fields, List.Forall₂ Reads headers fields ∧
      r' = { r with headers := r.headers.setAll fields } := by
  induction headers generalizing r with
  | nil => exact ⟨[], .nil, (Except.ok.inj h).symm⟩
  | cons first rest ih =>
    rw [headerSteps, List.map_cons, prepared_cons] at h
    cases hfirst : (PrepareStep.header first.1 first.2).makes r with
    | error e =>
      rw [hfirst] at h
      cases h
    | ok r₁ =>
      rw [hfirst] at h
      obtain ⟨n, v, hreads, rfl⟩ := PrepareStep.header_makes_ok hfirst
      obtain ⟨fields, hfields, rfl⟩ := ih h
      exact ⟨(n, v) :: fields, .cons hreads hfields, rfl⟩

/-- A name with one value among some headers has that as its last one. -/
theorem lastValue?_eq_some {fields : Headers} {field : HeaderName × HeaderValue}
    (hmem : field ∈ fields) (hall : ∀ other ∈ fields, other.1 = field.1 → other = field) :
    lastValue? fields field.1 = some field.2 := by
  have hne : fields.values field.1 ≠ [] := by
    have hvalue : field.2 ∈ fields.values field.1 :=
      List.mem_map_of_mem (List.mem_filter.2 ⟨hmem, beq_self_eq_true _⟩)
    exact List.ne_nil_of_mem hvalue
  obtain ⟨value, hvalue⟩ := Option.isSome_iff_exists.1 (List.getLast?_isSome.2 hne)
  obtain ⟨other, hother, rfl⟩ := List.mem_map.1 (List.mem_of_getLast? hvalue)
  obtain ⟨hmem', hname⟩ := List.mem_filter.1 hother
  rw [hall other hmem' (beq_iff_eq.1 hname)] at hvalue
  exact hvalue

theorem exists_of_mem_of_forall₂ {α β : Type} {R : α → β → Prop} {as : List α} {bs : List β}
    (h : List.Forall₂ R as bs) :
    (∀ a ∈ as, ∃ b ∈ bs, R a b) ∧ ∀ b ∈ bs, ∃ a ∈ as, R a b := by
  induction h with
  | nil => simp
  | cons hhead _ ih =>
    refine ⟨List.forall_mem_cons.2 ⟨⟨_, List.mem_cons_self, hhead⟩, fun a ha => ?_⟩,
      List.forall_mem_cons.2 ⟨⟨_, List.mem_cons_self, hhead⟩, fun b hb => ?_⟩⟩
    · obtain ⟨b, hb, hab⟩ := ih.1 a ha
      exact ⟨b, List.mem_cons_of_mem _ hb, hab⟩
    · obtain ⟨a, ha, hab⟩ := ih.2 b hb
      exact ⟨a, List.mem_cons_of_mem _ ha, hab⟩

/-! ## Headers of a session -/

/-- Whether settings mean a header to be set by a run: the one for credentials if there are some,
and those for the client's id if there is one. -/
def Settings.Overrides (s : Settings) (name : HeaderName) : Prop :=
  s.credentials ≠ .absent ∧ name = ⟨"authorization"⟩ ∨
    s.clientRequestId.isSome = true ∧
      (name = ⟨HeaderName.clientId⟩ ∨ name = ⟨HeaderName.returnClientId⟩)

theorem Settings.mem_sessionHeaders {s : Settings} {header : String × String}
    (h : header ∈ s.sessionHeaders) : header = ("user-agent", defaultUserAgent) ∨
      ∀ name, HeaderName.parse? header.1 = some name → s.Overrides name := by
  have hnames : HeaderName.parse? "authorization" = some ⟨"authorization"⟩ ∧
      HeaderName.parse? HeaderName.clientId = some ⟨HeaderName.clientId⟩ ∧
      HeaderName.parse? HeaderName.returnClientId = some ⟨HeaderName.returnClientId⟩ := by
    decide +kernel
  obtain ⟨hauthorization, hid, hreturn⟩ := hnames
  unfold Settings.sessionHeaders at h
  rcases List.mem_append.1 h with h | h
  · split at h
    · next token hcredentials =>
      obtain rfl := List.mem_singleton.1 h
      refine .inr fun name hname => .inl ⟨by simp [hcredentials], ?_⟩
      exact Option.some.inj (hname.symm.trans hauthorization)
    · cases h
  · rcases List.mem_cons.1 h with rfl | h
    · exact .inl rfl
    · split at h
      · next id hsome =>
        have hgiven : s.clientRequestId.isSome = true := by rw [hsome]; rfl
        rcases List.mem_cons.1 h with rfl | h
        · exact .inr fun name hname =>
            .inr ⟨hgiven, .inl (Option.some.inj (hname.symm.trans hid))⟩
        · obtain rfl := List.mem_singleton.1 h
          exact .inr fun name hname =>
            .inr ⟨hgiven, .inr (Option.some.inj (hname.symm.trans hreturn))⟩
      · cases h

theorem Settings.userAgent_mem_sessionHeaders (s : Settings) :
    ("user-agent", defaultUserAgent) ∈ s.sessionHeaders :=
  List.mem_append_right _ List.mem_cons_self

theorem reads_userAgent :
    Reads ("user-agent", defaultUserAgent) (.userAgent, ⟨Utf8.encode defaultUserAgent⟩) :=
  ⟨by decide +kernel, by decide +kernel⟩

theorem Settings.not_overrides_userAgent (s : Settings) : ¬s.Overrides .userAgent := by
  rintro (⟨-, h⟩ | ⟨-, h | h⟩) <;> exact absurd h (by decide)

/-- What a session makes of a request differs from it in headers only: in those that the settings
mean to be set, and in the name of the program. -/
theorem Settings.prepared_session_ok {s : Settings} {step : PrepareStep}
    (h : s.credentials.Adds step) {r r' : Request}
    (hr : prepared (s.session step).steps r = .ok r') :
    r' = { r with headers := r'.headers } ∧
    (∀ name, ¬s.Overrides name → name ≠ .userAgent →
      r'.headers.values name = r.headers.values name) ∧
    r'.headers.values .userAgent = [⟨Utf8.encode defaultUserAgent⟩] := by
  rw [Settings.prepared_session h] at hr
  obtain ⟨fields, hfields, rfl⟩ := prepared_headerSteps_ok hr
  obtain ⟨hread, hfrom⟩ := exists_of_mem_of_forall₂ hfields
  have hcases : ∀ field ∈ fields,
      field = (.userAgent, ⟨Utf8.encode defaultUserAgent⟩) ∨ s.Overrides field.1 := by
    intro field hfield
    obtain ⟨header, hheader, hreads⟩ := hfrom field hfield
    rcases Settings.mem_sessionHeaders hheader with rfl | hown
    · exact .inl (hreads.eq reads_userAgent)
    · exact .inr (hown field.1 hreads.1)
  refine ⟨rfl, fun name hown hname => ?_, ?_⟩
  · have hnone : lastValue? fields name = none := by
      refine lastValue?_eq_none fun field hfield heq => ?_
      rcases hcases field hfield with rfl | h
      · exact hname heq.symm
      · exact hown (heq ▸ h)
    show (r.headers.setAll fields).values name = _
    rw [Headers.values_setAll, hnone]
    rfl
  · obtain ⟨field, hfield, hreads⟩ := hread _ s.userAgent_mem_sessionHeaders
    obtain rfl := hreads.eq reads_userAgent
    have hlast : lastValue? fields .userAgent = some ⟨Utf8.encode defaultUserAgent⟩ :=
      lastValue?_eq_some hfield fun other hother hname => (hcases other hother).resolve_right
        fun hown => s.not_overrides_userAgent (Eq.subst (motive := s.Overrides) hname hown)
    show (r.headers.setAll fields).values _ = _
    rw [Headers.values_setAll, hlast]
    rfl

/-! ## Credentials that have been loaded -/

theorem Credentials.authorizer_ok {c : Credentials} {files : FileTree} {now : Instant}
    {step : PrepareStep} {w v : World} (h : c.authorizer files now w = (.ok step, v)) :
    c = .absent ∧ step = .asIs ∨ c ≠ .absent ∧ ∃ token, step = .bearer token := by
  have houtcome := congrArg Prod.fst h
  cases c with
  | absent => exact .inl ⟨rfl, (Except.ok.inj houtcome).symm⟩
  | bearer token => exact .inr ⟨by simp, token, (Except.ok.inj houtcome).symm⟩
  | tokenFile path =>
    refine .inr ⟨by simp, ?_⟩
    dsimp only [Credentials.authorizer] at houtcome
    cases hload : Token.load path files with
    | error e =>
      rw [hload] at houtcome
      cases houtcome
    | ok token =>
      rw [hload] at houtcome
      dsimp only at houtcome
      generalize token.isExpired now = expired at houtcome
      refine ⟨token.accessToken, ?_⟩
      rcases expired with crash | _ | _ <;> exact (Except.ok.inj houtcome).symm

/-- The same for credentials that have been loaded, be it from a file. -/
theorem Settings.prepared_session_loaded {s : Settings} {files : FileTree} {now : Instant}
    {step : PrepareStep} {w v : World}
    (loads : s.credentials.authorizer files now w = (.ok step, v)) {r r' : Request}
    (hr : prepared (s.session step).steps r = .ok r') :
    r' = { r with headers := r'.headers } ∧
    (∀ name, ¬s.Overrides name → name ≠ .userAgent →
      r'.headers.values name = r.headers.values name) ∧
    r'.headers.values .userAgent = [⟨Utf8.encode defaultUserAgent⟩] := by
  rcases Credentials.authorizer_ok loads with ⟨habsent, rfl⟩ | ⟨hgiven, token, rfl⟩
  · exact Settings.prepared_session_ok (habsent ▸ .absent) hr
  · -- A token from a file is added as one that is given.
    obtain ⟨hrest, hheaders, hagent⟩ :=
      Settings.prepared_session_ok (s := { s with credentials := .bearer token }) (.bearer token) hr
    refine ⟨hrest, fun name hname => hheaders name fun hown => hname ?_, hagent⟩
    rcases hown with ⟨-, h⟩ | h
    · exact .inl ⟨hgiven, h⟩
    · exact .inr h

/-! ## Runs -/

/-- Whether a request is the one that settings describe, but for headers that a run sets. Its URL
is what the text of the address is read as, which is the address unless that hides a drive. -/
structure Request.Carries (r : Request) (s : Settings) : Prop where
  method : r.method = s.method
  url : ∃ u, r.url = some u ∧ Url.parse s.url.text = .ok u ∧ (¬s.url.HidesDrive → u = s.url)
  body : r.body = s.body.map Utf8.encode
  headers : ∀ name, ¬s.Overrides name → name ≠ .userAgent →
    r.headers.values name = s.headers.values name
  userAgent : r.headers.values .userAgent = [⟨Utf8.encode defaultUserAgent⟩]

/-- What a run does once its attempts have come to an end: it follows the response that they have
brought, if there is one, and concludes. -/
def Settings.goOn (s : Settings) (session : Session) (last : SendResult) (w : World) :
    Option (RunResult × World) :=
  ((SendResult.response? last).elim (some (last, w)) fun r => s.followed session r w).map
    fun p => s.conclude p.1 p.2

/-- A run whose address can be read again fails before it has sent anything, or all its attempts
send one request that carries the settings. -/
theorem perform_carries {s : Settings}
    (hread : ∃ u, Url.parse s.url.text = .ok u ∧ (¬s.url.HidesDrive → u = s.url))
    (files : FileTree) (now : Instant) (w : World) :
    (∃ result w', perform s files now transport w = some (result, w') ∧ w.Writes w') ∨
    ∃ authorizer request last x y, request.Carries s ∧ w.Writes x ∧
      s.attempts transport request x = some (last, y) ∧ World.SentOnly w request y ∧
      w.sent < y.sent ∧
      perform s files now transport w = s.goOn (s.session authorizer) last y := by
  obtain ⟨u, hurl, hsame⟩ := hread
  cases loads : s.credentials.authorizer files now w with
  | mk outcome v =>
    cases outcome with
    | error e =>
      have hwrites := s.credentials.authorizer_onlyWrites files now w
      rw [loads] at hwrites
      refine .inl ⟨.error (.token e), v, ?_, hwrites⟩
      rw [perform_apply, loads]
    | ok step =>
      obtain ⟨x, hwrites, hperform⟩ := perform_prepares files now loads hurl
      cases hprepared : prepared (s.session step).steps (s.plainRequest u) with
      | error e =>
        rw [hprepared] at hperform
        exact .inl ⟨_, x, hperform, hwrites⟩
      | ok request =>
        rw [hprepared] at hperform
        obtain ⟨hrest, hheaders, hagent⟩ := Settings.prepared_session_loaded loads hprepared
        obtain ⟨⟨last, y⟩, hattempts⟩ :=
          Option.isSome_iff_exists.1 (s.attempts_isSome request x)
        have honly := (Settings.attempts_keeps
          ((World.steady_sentOnly w request).write hwrites (.refl w request)) hattempts).1
        have hsent : w.sent < y.sent := by
          rw [← hwrites.sent]
          exact s.attempts_sends _ _ _ _ hattempts
        refine .inr ⟨step, request, last, x, y, ?_, hwrites, hattempts, honly, hsent, ?_⟩
        · rw [hrest]
          exact ⟨rfl, ⟨u, rfl, hurl, hsame⟩, rfl, hheaders, hagent⟩
        · rw [hperform]
          dsimp only
          rw [hattempts]
          unfold Settings.goOn
          dsimp only [Option.bind_some]
          cases SendResult.response? last with
          | none => rfl
          | some r => exact congrArg _ (s.follow_eq (s.session step) r y)

/-- The address of accepted settings is read again as it is, unless it hides a drive. -/
theorem parse_url_text {c : CommandLine} {file : Option SettingsFile} {s : Settings}
    (h : Settings.merge c file = .ok s) :
    ∃ u, Url.parse s.url.text = .ok u ∧ (¬s.url.HidesDrive → u = s.url) := by
  obtain ⟨text, -, hparse⟩ := ((Settings.merge_decides c file).describes h).url
  exact (Url.parse_sound hparse).parse_text

/-- **What requests carry.** A run of accepted settings fails before it has sent anything, or else
every request that it sends before it polls is the same one: the method, the URL and the body are
those of the settings, and so are the values of each header but for the credentials, the client's id
and the name of the program. The first two are set if the settings give them; the name of the
program is set always. -/
theorem settings_are_sent {c : CommandLine} {file : Option SettingsFile} {s : Settings}
    (h : Settings.merge c file = .ok s) (files : FileTree) (now : Instant) (w : World) :
    (∃ result w', perform s files now transport w = some (result, w') ∧ w.Writes w') ∨
    ∃ authorizer request last x y, request.Carries s ∧ w.Writes x ∧
      s.attempts transport request x = some (last, y) ∧ World.SentOnly w request y ∧
      w.sent < y.sent ∧
      perform s files now transport w = s.goOn (s.session authorizer) last y :=
  perform_carries (parse_url_text h) files now w

/-- A run that can add its headers does not fail before it has sent something. -/
theorem not_silent {c : CommandLine} {file : Option SettingsFile} {s : Settings}
    (h : Settings.merge c file = .ok s) {step : PrepareStep} (hadds : s.credentials.Adds step)
    (hfit : s.unsendable? = none) (files : FileTree) (now : Instant) (w : World) :
    ¬∃ result w', perform s files now transport w = some (result, w') ∧ w.Writes w' := by
  rintro ⟨result, w', hrun, hwrites⟩
  obtain ⟨u, hurl⟩ := exists_parse_url_text h
  have hsent := (perform_sends files now hadds hurl hfit hrun).1
  rw [hwrites.sent] at hsent
  exact Nat.lt_irrefl _ hsent

/-- A header of the settings is sent as it is, and so is the address. -/
theorem settings_are_sent_accept : ∃ s,
    Settings.merge (addressedLine.withHeaders ["Accept: text/plain"]) none = .ok s ∧
    ∃ request y, World.SentOnly acceptingService request y ∧ acceptingService.sent < y.sent ∧
      request.url = some s.url ∧
      request.headers.values ⟨"accept"⟩ = [⟨Utf8.encode "text/plain"⟩] := by
  have hmerged : (Settings.merge (addressedLine.withHeaders ["Accept: text/plain"])
      none).toOption.map (fun s => (s.url.scheme, s.credentials, s.clientRequestId, s.headers)) =
        some ("http", .absent, none, [(⟨"accept"⟩, ⟨Utf8.encode "text/plain"⟩)]) := by
    decide +kernel
  obtain ⟨s, h, hfacts⟩ := exists_merged hmerged
  simp only [Prod.mk.injEq] at hfacts
  obtain ⟨hscheme, hcredentials, hid, hheaders⟩ := hfacts
  have hdrive : ¬s.url.HidesDrive := by
    rintro ⟨hkind, -⟩
    rw [Url.kind, hscheme] at hkind
    exact absurd hkind (by decide)
  have hown : ¬s.Overrides ⟨"accept"⟩ := by
    rintro (⟨hgiven, -⟩ | ⟨hgiven, -⟩)
    · exact hgiven hcredentials
    · exact absurd hgiven (by simp [hid])
  have hadds : s.credentials.Adds .asIs := hcredentials ▸ .absent
  have hfit : s.unsendable? = none := by
    simp [Settings.unsendable?, Settings.addedHeaders, hcredentials, hid]
  obtain ⟨_, request, _, _, y, hcarries, -, -, honly, hsent, -⟩ :=
    (settings_are_sent h ⟨[]⟩ epoch acceptingService).resolve_left
      (not_silent h hadds hfit ⟨[]⟩ epoch acceptingService)
  obtain ⟨u, hu, -, hsame⟩ := hcarries.url
  refine ⟨s, h, request, y, honly, hsent, ?_, ?_⟩
  · rw [hu, hsame hdrive]
  · rw [hcarries.headers _ hown (by decide), hheaders]
    rfl

/-- The name that settings give for the program is not sent, though nothing in them means this
header to be set. -/
theorem not_settings_are_sent : ∃ s,
    Settings.merge (addressedLine.withHeaders ["User-Agent: mine"]) none = .ok s ∧
    s.headers.values .userAgent = [⟨Utf8.encode "mine"⟩] ∧ ¬s.Overrides .userAgent ∧
    ∃ authorizer request last y, World.SentOnly acceptingService request y ∧
      acceptingService.sent < y.sent ∧
      perform s ⟨[]⟩ epoch transport acceptingService = s.goOn (s.session authorizer) last y ∧
      request.headers.values .userAgent = [⟨Utf8.encode "restwire/0.1.0"⟩] := by
  have hmerged : (Settings.merge (addressedLine.withHeaders ["User-Agent: mine"])
      none).toOption.map (fun s => (s.credentials, s.clientRequestId, s.headers)) =
        some (.absent, none, [(.userAgent, ⟨Utf8.encode "mine"⟩)]) := by
    decide +kernel
  obtain ⟨s, h, hfacts⟩ := exists_merged hmerged
  simp only [Prod.mk.injEq] at hfacts
  obtain ⟨hcredentials, hid, hheaders⟩ := hfacts
  have hadds : s.credentials.Adds .asIs := hcredentials ▸ .absent
  have hfit : s.unsendable? = none := by
    simp [Settings.unsendable?, Settings.addedHeaders, hcredentials, hid]
  obtain ⟨authorizer, request, last, _, y, hcarries, -, -, honly, hsent, hgoes⟩ :=
    (perform_carries (parse_url_text h) ⟨[]⟩ epoch acceptingService).resolve_left
      (not_silent h hadds hfit ⟨[]⟩ epoch acceptingService)
  exact ⟨s, h, by rw [hheaders]; rfl, s.not_overrides_userAgent, authorizer, request, last, y,
    honly, hsent, hgoes, hcarries.userAgent⟩

end Courier
