import Courier.Proofs.Bodies.Responders
import Courier.Proofs.Exchange.Writing
import Courier.Proofs.Judgement.Verdict
import Courier.Proofs.Preparing.Steps

set_option autoImplicit false

/-! # Looking for the description of a failure

Whoever looks into a body for something that it may hold has to leave it to those who come after.
Two readers look into bodies in passing: the step that searches a response for the description of a
failure, and the one that asks it for the state of its operation. Both read the body into memory,
and so both keep to one law, `Response.Handed`: the reader of the body is closed once, and in its
place there is a body with the same unread content, which no later use takes away.

The main statement is `serviceErrorUnless_preserves`. -/

namespace Courier

/-! ## Later uses of a body -/

/-- Something that the holder of a body may do to it. -/
inductive BodyUse
  /-- Read up to some number of octets. -/
  | read (n : Nat)
  | close

/-- The octets that a body hands out over some uses, and what is left of it; a read that fails ends
    the uses. -/
def Body.used (b : Body) : List BodyUse → Except IoError Bytes × Body
  | [] => (.ok [], b)
  | .close :: uses => b.close.body.used uses
  | .read n :: uses =>
    match b.read n with
    | (.error e, b) => (.error e, b)
    | (.ok octets, b) => ((b.used uses).1.map (octets ++ ·), (b.used uses).2)

/-- Whether a body gives its content to its holder, whatever uses come first: no read fails, and
    what they hand out and what can be read after them make up the content. -/
def Body.Lasts (b : Body) (content : Bytes) : Prop :=
  ∀ uses, ∃ octets rest, (b.used uses).1 = .ok octets ∧ (b.used uses).2.readAll.1 = .ok rest ∧
    octets ++ rest = content

/-- A detached body lasts, be it open or closed. -/
theorem Body.lasts_of_detached (content : Bytes) (isOpen : Bool) :
    Body.Lasts ⟨.detached, content, isOpen⟩ content := by
  intro uses
  induction uses generalizing content isOpen with
  | nil => exact ⟨[], content, rfl, by cases isOpen <;> rfl, rfl⟩
  | cons use uses ih =>
    cases use with
    | close =>
      have hclosed : (Body.close ⟨.detached, content, isOpen⟩).body =
          ⟨.detached, content, false⟩ := by cases isOpen <;> rfl
      rw [Body.used, hclosed]
      exact ih content false
    | read n =>
      have hread : Body.read n ⟨.detached, content, isOpen⟩ =
          (.ok (content.take n), ⟨.detached, content.drop n, isOpen⟩) := by
        cases isOpen <;> rfl
      obtain ⟨octets, rest, hused, hleft, hall⟩ := ih (content.drop n) isOpen
      rw [Body.used, hread]
      refine ⟨content.take n ++ octets, rest, ?_, hleft, ?_⟩
      · simp [hused, Except.map]
      · rw [List.append_assoc, hall, List.take_append_drop]

/-! ## Handing a response on -/

/-- What has become of a response with a body `b` that holds `content` when somebody has looked into
    the body, from a world `w` to a world `w'`. -/
structure Response.Handed (r : Response) (b : Body) (content : Bytes) (w : World) (r' : Response)
    (w' : World) : Prop where
  /-- Nothing of the response has changed but its body, which has the same content and keeps it. -/
  response : ∃ b', r' = { r with body := some b' } ∧ b'.unread = content ∧ b'.Lasts content
  /-- The reader of the body has been closed once, and no other reader has been. -/
  closes : ∀ n, closesIn (w'.since w) n = if b.reader.number? = some n then 1 else 0
  /-- No time has passed, and no request has been sent. -/
  writes : w.Writes w'

/-- A body that can be read has not been closed, if it is backed by a reader that can be. -/
theorem Body.openReader?_of_readable {b : Body} {content : Bytes}
    (readable : b.readAll.1 = .ok content) : b.openReader? = b.reader.number? := by
  obtain ⟨reader, unread, isOpen⟩ := b
  cases isOpen with
  | true => rfl
  | false => cases reader <;> first | rfl | simp [Body.readAll, Body.readError?] at readable

section Handed

variable {r : Response} {b : Body} {content : Bytes} {w : World}

theorem Response.content_eq (body : r.body = some b) : r.content = b.readAll.1 := by
  unfold Response.content Response.readBody
  rw [body]

/-- Reading a body into memory leaves the events of closing it in the journal. -/
theorem Response.bufferBody_snd (body : r.body = some b) (readable : b.readAll.1 = .ok content)
    (w : World) : (r.bufferBody w).2 =
      w.write (b.readAll.2.closingEvents "Failed to close buffered response body") := by
  unfold Response.bufferBody
  rw [body]
  dsimp only
  generalize b.readAll = read at readable ⊢
  obtain ⟨outcome, b'⟩ := read
  obtain rfl : outcome = .ok content := readable
  simp [Body.shutLogging_apply]

/-- **Reading a body into memory** hands the response on. -/
theorem Response.bufferBody_handed (body : r.body = some b)
    (readable : b.readAll.1 = .ok content) (w : World) :
    ∃ r' w', r.bufferBody w = ((.ok content, r'), w') ∧ r.Handed b content w r' w' := by
  have hcontent : r.content = .ok content := (Response.content_eq body).trans readable
  refine ⟨r.buffered content, (r.bufferBody w).2, ?_, ?_, fun n => ?_, ?_⟩
  · exact Prod.ext (Response.bufferBody_ok hcontent w) rfl
  · refine ⟨Body.detached content, ?_, rfl, Body.lasts_of_detached content true⟩
    unfold Response.buffered
    rw [body]
    rfl
  · have hclosing := b.readAll.2.closesJust_closingEvents "Failed to close buffered response body"
    rw [b.openReader?_readAll, Body.openReader?_of_readable readable] at hclosing
    rw [Response.bufferBody_snd body readable, World.since_write (List.prefix_refl w.journal),
      World.since_self, List.nil_append]
    exact hclosing.closesIn_map w.clock n
  · exact r.bufferBody_onlyWrites w

/-- A message in the log is nothing to the response. -/
theorem Response.Handed.write_logged {r' : Response} {w' : World}
    (h : r.Handed b content w r' w') (level : LogLevel) (message : String) :
    r.Handed b content w r' (w'.write [.logged level message]) where
  response := h.response
  closes n := by
    have hgrows : w.journal <+: w'.journal := by
      rw [h.writes.eq]
      obtain ⟨events, hevents, -⟩ := h.writes
      rw [hevents]
      exact List.prefix_append _ _
    rw [World.since_write hgrows, closesIn_append, h.closes n]
    rfl
  writes := h.writes.trans (.one rfl w')

end Handed

/-! ## Descriptions -/

/-- What the content of a body describes, if anything: a failure with a code that is not empty, as
    the member `error` of an object, or else as an object of its own. -/
def Describes (content : Bytes) (service : ServiceError) : Prop :=
  service.code ≠ "" ∧
    (Json.decode ServiceError.readEnvelope content = .ok service ∨
      (∀ e, Json.decode ServiceError.readEnvelope content ≠ .ok e) ∧
        Json.decode ServiceError.readJson content = .ok service)

theorem ofBody?_eq_some_iff {content : Bytes} {service : ServiceError} :
    ServiceError.ofBody? content = some service ↔ Describes content service := by
  unfold ServiceError.ofBody? Describes
  cases henvelope : Json.decode ServiceError.readEnvelope content with
  | ok e =>
    simp only [Option.filter_eq_some_iff, Option.some.injEq, Except.ok.injEq]
    constructor
    · rintro ⟨rfl, hcode⟩
      exact ⟨by simpa using hcode, .inl rfl⟩
    · rintro ⟨hcode, rfl | ⟨hnone, -⟩⟩
      · exact ⟨rfl, by simpa using hcode⟩
      · exact absurd rfl (hnone e)
  | error f =>
    cases hbare : Json.decode ServiceError.readJson content with
    | ok e =>
      simp only [Except.toOption, Option.filter_eq_some_iff, Option.some.injEq, reduceCtorEq,
        false_or, ne_eq, not_false_eq_true, implies_true, true_and, Except.ok.injEq]
      constructor
      · rintro ⟨rfl, hcode⟩
        exact ⟨by simpa using hcode, rfl⟩
      · rintro ⟨hcode, rfl⟩
        exact ⟨rfl, by simpa using hcode⟩
    | error f' => simp [Except.toOption]

theorem ofBody?_eq_none_iff {content : Bytes} :
    ServiceError.ofBody? content = none ↔ ∀ service, ¬Describes content service := by
  rw [Option.eq_none_iff_forall_ne_some]
  exact forall_congr' fun service => not_congr ofBody?_eq_some_iff

/-- The wait that a response asks for is known exactly if the wait between polls does not depend on
    the usual one. -/
theorem Response.retryAfter?_eq_some_iff (r : Response) (d : Duration) :
    r.retryAfter? = some d ↔ ∀ usual, r.pollingDelay usual = d := by
  unfold Response.pollingDelay
  cases r.retryAfter? with
  | some hint =>
    constructor
    · rintro ⟨rfl⟩ usual
      rfl
    · intro h
      rw [← h .zero]
      rfl
  | none =>
    constructor
    · intro h
      exact absurd h (by simp)
    · intro h
      -- Two usual waits that differ cannot both be `d`.
      exact absurd ((h .zero).trans (h (.ofSeconds 1)).symm) (by decide)

/-- What a failed request tells that has been described in a response. -/
structure RequestError.Tells (e : RequestError) (r : Response) (service : ServiceError) : Prop where
  serviceError : e.report.serviceError = some service
  status : e.report.status = some r.status
  /-- The first of the ids, if it is a text. -/
  requestId : e.report.requestId =
    (r.headers.values ⟨"x-ms-request-id"⟩).head?.bind HeaderValue.text?
  retryAfter : ∀ d, e.report.retryAfter = some d ↔ ∀ usual, r.pollingDelay usual = d

/-- A description tells of a response what its headers and its status do, whatever its body is. -/
theorem RequestError.described_tells (r : Response) (body : Option Body) (service : ServiceError) :
    (RequestError.described { r with body } service).Tells r service :=
  ⟨rfl, rfl, rfl, r.retryAfter?_eq_some_iff⟩

/-! ## The step that searches for descriptions -/

/-- A response that is searched for a description is handed on, with or without a failure. -/
theorem describeFailure_handed {h : Handling} {b : Body} {content : Bytes}
    (body : h.response.body = some b) (readable : b.readAll.1 = .ok content) (w : World) :
    ∃ result r' w', describeFailure h w = ((result, { h with response := r' }), w') ∧
      h.response.Handed b content w r' w' ∧
      (∀ service, Describes content service →
        ∃ e, result = .error (.service e) ∧ e.Tells h.response service) ∧
      ((∀ service, ¬Describes content service) → result = .ok ()) := by
  obtain ⟨r', w', hbuffer, handed⟩ := Response.bufferBody_handed body readable w
  dsimp only [describeFailure, Act.bind_apply]
  rw [hbuffer]
  dsimp only
  cases hfound : ServiceError.ofBody? content with
  | some service =>
    have describes := ofBody?_eq_some_iff.1 hfound
    refine ⟨_, r', w', rfl, handed, fun other hother => ?_, fun hnone => ?_⟩
    · obtain rfl : other = service :=
        Option.some.inj ((ofBody?_eq_some_iff.2 hother).symm.trans hfound)
      obtain ⟨b', rfl, -⟩ := handed.response
      exact ⟨_, rfl, RequestError.described_tells h.response (some b') other⟩
    · exact absurd describes (hnone service)
  | none =>
    refine ⟨_, r', _, rfl, handed.write_logged _ _, fun service describes => ?_, fun _ => rfl⟩
    exact absurd describes (ofBody?_eq_none_iff.1 hfound service)

/-- The state of an operation that is asked of a response; the response is handed on. -/
theorem OperationStatus.ofResponse_handed {r : Response} {b : Body} {content : Bytes}
    (body : r.body = some b) (readable : b.readAll.1 = .ok content) (w : World) :
    ∃ status r' w', OperationStatus.ofResponse r w = ((.ok status, r'), w') ∧
      r.Handed b content w r' w' := by
  obtain ⟨r', w', hbuffer, handed⟩ := Response.bufferBody_handed body readable w
  dsimp only [OperationStatus.ofResponse, Act.bind_apply]
  rw [hbuffer]
  exact ⟨_, r', w', rfl, handed⟩

/-- **Searching for a description takes nothing away.** Of a response with a body that can be read,
    the step leaves everything to the steps inside it if the status is accepted. Otherwise it acts
    in their place and hands the response on: the reader is closed once, and the content can be read
    again whatever is done to the body from then on. It fails exactly if the content describes a
    failure with a code, and tells of it what the response does; a wait is told exactly if it is the
    one that polls would keep to whatever their usual wait is. Asking the response for the state of
    its operation hands it on in the same way. -/
theorem serviceErrorUnless_preserves (codes : List Status) {h : Handling} {b : Body}
    {content : Bytes} (body : h.response.body = some b) (readable : b.readAll.1 = .ok content)
    (w : World) :
    let search next := RespondStep.decorate (.serviceErrorUnless codes) next
    (h.response.status ∈ codes → ∀ next, search next h w = next h w) ∧
    (h.response.status ∉ codes → ∃ result r' w',
      (∀ next, search next h w = ((result, { h with response := r' }), w')) ∧
      h.response.Handed b content w r' w' ∧
      (∀ service, Describes content service →
        ∃ e, result = .error (.service e) ∧ e.Tells h.response service) ∧
      ((∀ service, ¬Describes content service) → result = .ok ())) ∧
    ∃ status r' w', OperationStatus.ofResponse h.response w = ((.ok status, r'), w') ∧
      h.response.Handed b content w r' w' := by
  refine ⟨fun accepted next => ?_, fun refused => ?_, ?_⟩
  · have hcontains : codes.contains h.response.status = true := by simpa using accepted
    dsimp only [RespondStep.decorate]
    rw [if_pos hcontains]
  · have hcontains : ¬codes.contains h.response.status = true := by simpa using refused
    obtain ⟨result, r', w', hdescribe, hrest⟩ := describeFailure_handed body readable w
    refine ⟨result, r', w', fun next => ?_, hrest⟩
    dsimp only [RespondStep.decorate]
    rw [if_neg hcontains, hdescribe]
  · exact OperationStatus.ofResponse_handed body readable w

/-! ## A description that has been read in part -/

/-- The body of a response that describes a failure. Two blanks before the description have been
    read, and closing the reader is going to fail. -/
def throttledBody : Body :=
  (Body.read 2 ⟨.closeFails 0,
    Utf8.encode "  \x7b\"error\":\x7b\"code\":\"Busy\"\x7d\x7d", true⟩).2

/-- What is left of the content of that body. -/
def throttledContent : Bytes := Utf8.encode "\x7b\"error\":\x7b\"code\":\"Busy\"\x7d\x7d"

/-- A response with that body. -/
def throttledResponse : Response :=
  ⟨⟨429⟩, [(⟨HeaderName.retryAfter⟩, ⟨Utf8.encode " 7"⟩),
    (⟨HeaderName.requestId⟩, ⟨Utf8.encode "r1"⟩)], some throttledBody⟩

/-- That response comes to a failure which tells its code, its id and the wait that it asks for. -/
theorem serviceErrorUnless_preserves_throttled :
    throttledResponse.body = some throttledBody ∧ throttledBody.readAll.1 = .ok throttledContent ∧
    ∃ e r' w', (∀ next, RespondStep.decorate (.serviceErrorUnless [⟨200⟩]) next
        ⟨throttledResponse, []⟩ World.quiet = ((.error (.service e), ⟨r', []⟩), w')) ∧
      e.report.serviceError.map ServiceError.code = some "Busy" ∧
      e.report.requestId = some "r1" ∧ e.report.retryAfter = some (.ofSeconds 7) ∧
      closesIn (w'.since World.quiet) 0 = 1 := by
  have readable : throttledBody.readAll.1 = .ok throttledContent :=
    eq_ok_of_toOption (by decide +kernel)
  have hfound : (ServiceError.ofBody? throttledContent).map ServiceError.code = some "Busy" := by
    decide +kernel
  obtain ⟨service, hservice, hcode⟩ := Option.map_eq_some_iff.1 hfound
  obtain ⟨-, hrefused, -⟩ := serviceErrorUnless_preserves [⟨200⟩] (h := ⟨throttledResponse, []⟩)
    (b := throttledBody) rfl readable World.quiet
  obtain ⟨result, r', w', hsearch, handed, hdescribes, -⟩ := hrefused (by decide)
  obtain ⟨e, rfl, tells⟩ := hdescribes service (ofBody?_eq_some_iff.1 hservice)
  refine ⟨rfl, readable, e, r', w', hsearch, ?_, ?_, ?_, ?_⟩
  · rw [tells.serviceError, Option.map_some, hcode]
  · rw [tells.requestId]
    decide +kernel
  · rw [tells.retryAfter]
    exact (Response.retryAfter?_eq_some_iff ..).1 (by decide +kernel)
  · rw [handed.closes 0]
    decide

end Courier
