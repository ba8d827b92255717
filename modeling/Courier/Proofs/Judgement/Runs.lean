import Courier.Proofs.Bodies.Runs
import Courier.Proofs.Exchange.Invariants
import Courier.Proofs.Judgement.Verdict
import Courier.Proofs.Retry.Attempts

set_option autoImplicit false

/-! # What a run comes to

A run that gets as far as sending comes to what its last response is judged to be: the last one of
its attempts, or of the polls that follow it. Without such a response it comes to the error of
sending. -/

namespace Courier

/-! ## Responses and requests of a run -/

/-- Whether a response is as the service has answered it. -/
def Response.IsAnswer (r : Response) : Prop :=
  ∃ (answer : Answer) (n : Nat), answer.brings n = .ok r

/-- Whether all requests that went out between two moments are the same one. -/
def World.SentOnly (start : World) (request : Request) (w : World) : Prop :=
  start.journal <+: w.journal ∧ ∀ entry ∈ w.since start, ∀ n sent isCancelled,
    entry.event = .sent n sent isCancelled → sent = request

theorem World.SentOnly.refl (start : World) (request : Request) :
    World.SentOnly start request start :=
  ⟨List.prefix_refl _, by simp⟩

theorem World.steady_sentOnly (start : World) (request : Request) :
    World.Steady (World.SentOnly start request) where
  write := by
    rintro w w' ⟨events, rfl, hquiet⟩ ⟨hgrows, honly⟩
    refine ⟨hgrows.trans (List.prefix_append _ _), fun entry hentry n sent isCancelled hsent => ?_⟩
    rw [World.since_write hgrows, List.mem_append] at hentry
    rcases hentry with hold | hnew
    · exact honly entry hold n sent isCancelled hsent
    · obtain ⟨event, hevent, rfl⟩ := List.mem_map.1 hnew
      have hnot := hquiet event hevent
      rw [show event = .sent n sent isCancelled from hsent] at hnot
      exact absurd hnot (by simp [Event.isSent])
  clock _ h := h

theorem isAnswer_brings {a : Answer} {n : Nat} {r : Response}
    (h : SendResult.response? (a.brings n) = some r) : r.IsAnswer := by
  refine ⟨a, n, ?_⟩
  cases a with
  | response status headers body => exact congrArg Except.ok (Option.some.inj h)
  | timeout => exact absurd h (by simp [Answer.brings, SendResult.response?, SendError.response?])
  | connection reason =>
    exact absurd h (by simp [Answer.brings, SendResult.response?, SendError.response?])
  | invalidUrl reason =>
    exact absurd h (by simp [Answer.brings, SendResult.response?, SendError.response?])

/-- The transport sends what it is asked to, and brings what the service answers. -/
theorem transport_keeps_sentOnly (start : World) (request : Request) :
    Sender.Keeps (· = request) (World.SentOnly start request) Response.IsAnswer transport := by
  rintro _ w result w' rfl ⟨hgrows, honly⟩ hrun
  rw [transport_apply] at hrun
  obtain ⟨rfl, rfl⟩ := Prod.mk.inj (Option.some.inj hrun)
  refine ⟨⟨hgrows.trans (List.prefix_append _ _), fun entry hentry n sent isCancelled hsent => ?_⟩,
    fun r hr => isAnswer_brings hr⟩
  rename_i request
  have hsince : (w.exchanges request).since start =
      w.since start ++ [⟨w.clock, .sent w.sent request w.isCancelled⟩] :=
    World.since_write hgrows [.sent w.sent request w.isCancelled]
  rw [hsince, List.mem_append, List.mem_singleton] at hentry
  rcases hentry with hold | rfl
  · exact honly entry hold n sent isCancelled hsent
  · exact (Event.sent.inj hsent).2.1.symm

/-- The transport brings what the service answers. -/
theorem transport_keeps_isAnswer :
    Sender.Keeps (fun _ => True) (fun _ => True) Response.IsAnswer transport := by
  rintro request w result w' - - hrun
  rw [transport_apply] at hrun
  obtain ⟨rfl, -⟩ := Prod.mk.inj (Option.some.inj hrun)
  exact ⟨trivial, fun r hr => isAnswer_brings hr⟩

/-! ## The attempts of a run -/

section Attempts

variable {s : Settings} {request : Request} {w : World}

/-- The attempts of a run come to an end. -/
theorem Settings.attempts_isSome (s : Settings) (request : Request) (w : World) :
    (s.attempts transport request w).isSome = true := by
  refine retried_attempts_isSome (fun v => ?_) w
  show (logged runTitle (checked retryableCodes true transport) request v).isSome = true
  simp only [logged, checked, Run.bind_apply, Run.lift_apply, log_apply, Option.bind_some,
    transport_apply]
  generalize (World.reply _ 0).answer.brings _ = answer
  cases answer with
  | error e => rfl
  | ok r =>
    dsimp only
    split <;> rfl

/-- The attempts of a run send its request and nothing else, and bring what the service answers. -/
theorem Settings.attempts_keeps {start w' : World} {result : SendResult}
    (hw : World.SentOnly start request w)
    (hrun : s.attempts transport request w = some (result, w')) :
    World.SentOnly start request w' ∧
      ∀ r, SendResult.response? result = some r → r.IsAnswer :=
  (transport_keeps_sentOnly start request).decorateSender (World.steady_sentOnly start request)
    (fun hmem => absurd hmem (by simp [SendStep.retryPolicy])) request w result w' rfl hw hrun

end Attempts

/-! ## Runs -/

/-- What a run follows the response of its attempts by: polls, if polling is on. -/
def Settings.followed (s : Settings) (session : Session) (r : Response) (w : World) :
    Option (SendResult × World) :=
  if s.polling.enabled then session.pollAsNeeded transport r true w else some (.ok r, w)

theorem Settings.follow_eq (s : Settings) (session : Session) (r : Response) (w : World) :
    s.follow session transport r w = s.followed session r w := by
  unfold Settings.follow Settings.followed
  cases s.polling.enabled <;> rfl

/-- What follows a response that the service has answered is such a response. -/
theorem Settings.followed_keeps {s : Settings} {session : Session} {r : Response} {w w' : World}
    {result : SendResult} (hr : r.IsAnswer)
    (hrun : s.followed session r w = some (result, w')) :
    ∀ r, SendResult.response? result = some r → r.IsAnswer := by
  unfold Settings.followed at hrun
  cases hp : s.polling.enabled with
  | true =>
    rw [hp, if_pos rfl] at hrun
    exact (transport_keeps_isAnswer.pollAsNeeded ⟨fun _ h => h, fun _ h => h⟩ session trivial hr
      hrun).2
  | false =>
    rw [hp, if_neg (by simp)] at hrun
    obtain ⟨rfl, rfl⟩ := Prod.mk.inj (Option.some.inj hrun)
    exact fun r' hr' => Option.some.inj hr' ▸ hr

/-- What a run concludes from its last response. -/
theorem Settings.conclude_verdict (s : Settings) (r : Response) (w : World) :
    Verdict s.expect r (s.conclude (.ok r) w).1 :=
  judge_verdict s.expect r (logIdentity r w).2

/-- A verdict brings no response. -/
theorem Verdict.openReader? {expect : List Status} {r : Response} {result : RunResult}
    (h : Verdict expect r result) : RunResult.openReader? result = none := by
  cases h <;> rfl

section Runs

variable {s : Settings} {files : FileTree} {now : Instant} {w v u x y z w' : World}
  {authorizer : PrepareStep} {request prepared : Request} {last : SendResult} {r : Response}
  {result : RunResult}

/-- A run that gets as far as sending comes to what it concludes from its exchanges. -/
theorem perform_eq_map (loads : s.credentials.authorizer files now w = (.ok authorizer, v))
    (asks : s.request v = (.ok request, u)) :
    perform s files now transport w =
      (s.sendIn (s.session authorizer) transport request u).map fun p => s.conclude p.1 p.2 := by
  rw [perform_apply, loads]
  dsimp only
  rw [asks]

/-- The exchanges of a run are its attempts and what follows the response that they bring. -/
theorem Settings.sendIn_eq {session : Session}
    (prepares : session.prepareRequest request u = (.ok prepared, x))
    (attempts : s.attempts transport prepared x = some (last, y)) :
    s.sendIn session transport request u =
      match SendResult.response? last with
      | some r => s.followed session r y
      | none => some (last, y) := by
  rw [Settings.sendIn_apply, prepares]
  dsimp only
  rw [attempts, Option.bind_some]
  cases SendResult.response? last with
  | none => rfl
  | some r => exact s.follow_eq session r y

/-- The reader of the last response has been closed once when the run comes back. -/
theorem closesIn_concluded (loads : s.credentials.authorizer files now w = (.ok authorizer, v))
    (asks : s.request v = (.ok request, u))
    (sends : s.sendIn (s.session authorizer) transport request u = some (.ok r, z))
    {b : Body} {n : Nat} (hb : r.body = some b) (hn : b.reader.number? = some n) :
    closesIn ((s.conclude (.ok r) z).2.since w) n = 1 := by
  have hrun : perform s files now transport w =
      some ((s.conclude (.ok r) z).1, (s.conclude (.ok r) z).2) := by
    rw [perform_eq_map loads asks, sends]
    rfl
  have hledger := perform_ledger s files now transport_careful (Ledger.refl w) hrun
  have hasked : Ledger w u none := by
    have hloaded := (Ledger.refl w).authorizer s.credentials files now
    rw [loads] at hloaded
    have hmade := hloaded.request s
    rwa [asks] at hmade
  have hz := s.sendIn_handover _ transport_careful hasked sends
  have hheld : SendResult.openReader? (.ok r) = some n := by
    show r.body.bind Body.openReader? = some n
    rw [hb, Option.bind_some, Body.openReader?, if_pos (hz.isUnclosed_of_ok b hb)]
    exact hn
  have hrange := hz.ledger.held_lt n hheld
  have hreaders : (s.conclude (.ok r) z).2.readers = z.readers := by
    rw [(s.conclude_onlyWrites (.ok r) z).eq]
  rw [hledger.closes n, (s.conclude_verdict r z).openReader?, hreaders,
    if_pos ⟨hrange.1, hrange.2, by simp⟩]

/-- **What a run comes to** that loads its credentials and prepares its request. Its attempts come
    to an end. If they bring no response, the run comes to their error. Otherwise the run follows
    the response, rejected or not, by polls if polling is on: it comes to nothing if they do, to
    their error if they fail, and to the verdict on their last response otherwise. That response is
    as the service has answered it, and its reader has been closed once. If polling is off, the
    requests of the run are those of its attempts. -/
theorem perform_verdict (loads : s.credentials.authorizer files now w = (.ok authorizer, v))
    (asks : s.request v = (.ok request, u))
    (prepares : (s.session authorizer).prepareRequest request u = (.ok prepared, x)) :
    let run := perform s files now transport w
    ∃ last y, s.attempts transport prepared x = some (last, y) ∧
      (SendResult.response? last = none →
        ∃ e, last = .error e ∧ run = some (.error (.send e), y)) ∧
      (∀ r, SendResult.response? last = some r →
        let followed := s.followed (s.session authorizer) r y
        (followed = none → run = none) ∧
        (∀ e z, followed = some (.error e, z) → run = some (.error (.send e), z)) ∧
        ∀ r z, followed = some (.ok r, z) →
          ∃ result w', run = some (result, w') ∧ Verdict s.expect r result ∧ r.IsAnswer ∧
            ∀ b n, r.body = some b → b.reader.number? = some n → closesIn (w'.since w) n = 1) ∧
      (s.polling.enabled = false → ∃ result w', run = some (result, w') ∧
        w'.sent = y.sent ∧ World.SentOnly w prepared w') := by
  intro run
  obtain ⟨⟨last, y⟩, attempts⟩ := Option.isSome_iff_exists.1 (s.attempts_isSome prepared x)
  have hrun : run = _ := perform_eq_map loads asks
  have hsends := Settings.sendIn_eq prepares attempts
  -- The world in which the attempts begin differs from the first one by what has been written.
  have hwrites : w.Writes x := by
    have hloads := s.credentials.authorizer_onlyWrites files now w
    have hasks := s.request_onlyWrites v
    have hprepares := (s.session authorizer).prepareRequest_onlyWrites request u
    rw [loads] at hloads
    rw [asks] at hasks
    rw [prepares] at hprepares
    exact (hloads.trans hasks).trans hprepares
  have hsteady := World.steady_sentOnly w prepared
  obtain ⟨hy, hanswers⟩ :=
    Settings.attempts_keeps (hsteady.write hwrites (.refl w prepared)) attempts
  refine ⟨last, y, attempts, ?_, ?_, ?_⟩
  · intro hnone
    rw [hrun, hsends, hnone]
    cases last with
    | ok r => exact absurd hnone (by simp [SendResult.response?])
    | error e => exact ⟨e, rfl, rfl⟩
  · intro r hr
    rw [hr] at hsends
    replace hsends : s.sendIn _ transport request u = s.followed _ r y := hsends
    refine ⟨fun hnone => ?_, fun e z hfails => ?_, fun r' z hbrings => ?_⟩
    · rw [hrun, hsends.trans hnone]
      rfl
    · rw [hrun, hsends.trans hfails]
      rfl
    · have hconcluded : run = some ((s.conclude (.ok r') z).1, (s.conclude (.ok r') z).2) := by
        rw [hrun, hsends.trans hbrings]
        rfl
      exact ⟨_, _, hconcluded, s.conclude_verdict r' z,
        Settings.followed_keeps (hanswers r hr) hbrings r' rfl,
        fun b n hb hn => closesIn_concluded loads asks (hsends.trans hbrings) hb hn⟩
  · intro hoff
    have hstays : s.sendIn (s.session authorizer) transport request u =
        some (match SendResult.response? last with | some r => .ok r | none => last, y) := by
      rw [hsends]
      cases SendResult.response? last with
      | none => rfl
      | some r =>
        show s.followed _ r y = _
        unfold Settings.followed
        rw [hoff, if_neg (by simp)]
    have hconcludes := s.conclude_onlyWrites
      (match SendResult.response? last with | some r => .ok r | none => last) y
    refine ⟨_, _, by rw [hrun, hstays]; rfl, ?_, hsteady.write hconcludes hy⟩
    rw [hconcludes.eq]

end Runs

/-! ## A service that stays busy -/

/-- A service that is not available, and says so in its own words. -/
def busyService : World :=
  World.start [] ⟨0, .response ⟨503⟩ [] (some (.tracked, Utf8.encode "busy"))⟩

/-- The response of that service. -/
def busyResponse : Response := ⟨⟨503⟩, [], some ⟨.tracked 0, Utf8.encode "busy", true⟩⟩

/-- Settings for a single attempt at that service, without polls. -/
def busySettings : Settings :=
  ⟨⟨"http", some ⟨"", "", "h", none⟩, .rooted ["a"], false, none, none⟩, .get, [], none, [⟨200⟩],
    none, .absent, RetryPolicy.standard.withMaxAttempts 1,
    ⟨false, .ofSeconds 1, .ofSeconds 1, []⟩, false⟩

theorem epoch_in_range : Instant.first ≤ 0 ∧ 0 ≤ Instant.last := by
  decide

/-- The beginning of 1970. -/
def epoch : Instant := ⟨0, 0, Instant.zero_lt_nanos, epoch_in_range⟩

/-- The attempt at that service is the last one, and its response is rejected. -/
theorem busy_attempts (request : Request) {x : World} (hx : busyService.Writes x) :
    ∃ y, busySettings.attempts transport request x =
      some (.error (.rejection request busyResponse), y) := by
  have hbrings : ∀ v, busyService.Writes v →
      (v.reply 0).answer.brings v.readers = .ok busyResponse := by
    intro v hv
    rw [hv.eq]
    rfl
  have hcall : ∃ y, logged runTitle (checked retryableCodes true transport) request x =
      some (.error (.rejection request busyResponse), y) := by
    simp only [logged, checked, Run.bind_apply, Run.lift_apply, log_apply, Option.bind_some,
      transport_apply]
    rw [hbrings _ (hx.trans (.one rfl x))]
    exact ⟨_, rfl⟩
  obtain ⟨y, called⟩ := hcall
  exact ⟨y, retried_eq_some_iff.2 ⟨0, ⟨request, x, _, y⟩, Sender.call_eq_some.2 ⟨rfl, rfl, called⟩,
    .inl ⟨(endsRetry_attempts ..).2 (.inr (.inr (Nat.le_refl 1))), rfl, rfl⟩⟩⟩

/-- Of the four verdicts on that response only the last one fits. -/
theorem busy_verdict {result : RunResult}
    (h : Verdict busySettings.expect busyResponse result) :
    result = .error (.unexpectedStatus ⟨503⟩ "busy") := by
  have hread : busyResponse.content = .ok (Utf8.encode "busy") := rfl
  have hother : ServiceError.ofBody? (Utf8.encode "busy") = none :=
    Option.isNone_iff_eq_none.1 (by decide +kernel)
  cases h with
  | unreadable read => exact absurd (hread.symm.trans read) (by simp)
  | expected _ accepted => exact absurd accepted (by decide)
  | described read _ describes =>
    obtain rfl := Except.ok.inj (hread.symm.trans read)
    exact absurd (hother.symm.trans describes) (by simp)
  | unexpected read =>
    obtain rfl := Except.ok.inj (hread.symm.trans read)
    have htext : Utf8.lossy (Utf8.encode "busy") = "busy" := by decide +kernel
    rw [htext]
    rfl

/-- The run comes to the status that was not expected and the text of its body, which is closed. -/
theorem perform_verdict_busy : ∃ v request u prepared x,
    busySettings.credentials.authorizer ⟨[]⟩ epoch busyService = (.ok .asIs, v) ∧
    busySettings.request v = (.ok request, u) ∧
    (busySettings.session .asIs).prepareRequest request u = (.ok prepared, x) ∧
    ∃ w', perform busySettings ⟨[]⟩ epoch transport busyService =
      some (.error (.unexpectedStatus ⟨503⟩ "busy"), w') ∧
        closesIn (w'.since busyService) 0 = 1 := by
  have hasked : (busySettings.request busyService).1 =
      .ok ((Request.get busySettings.url).setCancellable true) :=
    eq_ok_of_toOption (by decide +kernel)
  have hprepared : prepared (busySettings.session .asIs).steps
      ((Request.get busySettings.url).setCancellable true) =
        .ok { Request.get busySettings.url with
          headers := [(⟨"user-agent"⟩, ⟨Utf8.encode defaultUserAgent⟩)], cancellable := true } :=
    eq_ok_of_toOption (by decide +kernel)
  cases asks : busySettings.request busyService with
  | mk asked u =>
    obtain rfl : asked = _ := asks ▸ hasked
    rw [← (busySettings.session .asIs).prepareRequest_fst _ u] at hprepared
    cases prepares : (busySettings.session .asIs).prepareRequest
        ((Request.get busySettings.url).setCancellable true) u with
    | mk outcome x =>
      obtain rfl : outcome = _ := prepares ▸ hprepared
      have loads : busySettings.credentials.authorizer ⟨[]⟩ epoch busyService =
        (.ok .asIs, busyService) := rfl
      obtain ⟨last, y, attempts, -, hfollows, -⟩ := perform_verdict loads asks prepares
      have hwrites : busyService.Writes x := by
        have hmade := busySettings.request_onlyWrites busyService
        have hdressed := (busySettings.session .asIs).prepareRequest_onlyWrites
          ((Request.get busySettings.url).setCancellable true) u
        rw [asks] at hmade
        rw [prepares] at hdressed
        exact hmade.trans hdressed
      obtain ⟨z, hlast⟩ := busy_attempts _ hwrites
      obtain ⟨rfl, rfl⟩ := Prod.mk.inj (Option.some.inj (hlast.symm.trans attempts))
      obtain ⟨result, w', hrun, hverdict, -, hcloses⟩ :=
        (hfollows busyResponse rfl).2.2 busyResponse z rfl
      refine ⟨_, _, u, _, x, rfl, asks, prepares, w', ?_, hcloses _ 0 rfl rfl⟩
      rw [hrun, busy_verdict hverdict]

end Courier
