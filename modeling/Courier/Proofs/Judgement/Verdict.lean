import Courier.Perform
import Courier.Proofs.Exchange.Actions

set_option autoImplicit false

/-! # What a response is judged to be

The last response of a run is read, closed and judged: by whether its body can be read, by its
status, and by whether its content describes a failure. Reading a body into memory closes it, and
the copy that takes its place can be read again although it is closed in its turn; so the content
that is told in the end is the one that was read at first. -/

namespace Courier

/-! ## Verdicts -/

/-- The content of a response, if its body can be read to the end. -/
def Response.content (r : Response) : Except IoError Bytes := r.readBody.1

/-- What a run comes to with a response as its last one. The four ways exclude each other. -/
inductive Verdict (expect : List Status) (r : Response) : RunResult → Prop
  | unreadable {e : IoError} (read : r.content = .error e) :
      Verdict expect r (.error (.respond (.body e)))
  | expected {content : Bytes} (read : r.content = .ok content) (accepted : r.status ∈ expect) :
      Verdict expect r (.ok (Utf8.lossy content))
  | described {content : Bytes} {service : ServiceError} {e : RequestError}
      (read : r.content = .ok content) (refused : r.status ∉ expect)
      (describes : ServiceError.ofBody? content = some service)
      (status : e.report.status = some r.status) (requestId : e.report.requestId = r.requestId?)
      (retryAfter : e.report.retryAfter = r.retryAfter?)
      (serviceError : e.report.serviceError = some service) :
      Verdict expect r (.error (.respond (.service e)))
  | unexpected {content : Bytes} (read : r.content = .ok content) (refused : r.status ∉ expect)
      (other : ServiceError.ofBody? content = none) :
      Verdict expect r (.error (.unexpectedStatus r.status (Utf8.lossy content)))

/-- The verdict on an accepted response whose content can be read. -/
theorem Verdict.eq_of_accepted {expect : List Status} {r : Response} {result : RunResult}
    {content : Bytes} (h : Verdict expect r result) (read : r.content = .ok content)
    (accepted : r.status ∈ expect) : result = .ok (Utf8.lossy content) := by
  cases h with
  | unreadable unread => exact absurd (read.symm.trans unread) (by simp)
  | expected read' =>
    obtain rfl := Except.ok.inj (read.symm.trans read')
    rfl
  | described _ refused => exact absurd accepted refused
  | unexpected _ refused => exact absurd accepted refused

/-! ## Reading into memory -/

/-- A response whose body, if it has one, has been read into memory. -/
def Response.buffered (r : Response) (content : Bytes) : Response :=
  { r with body := r.body.map fun _ => Body.detached content }

theorem Response.bufferBody_ok {r : Response} {content : Bytes} (h : r.content = .ok content)
    (w : World) : (r.bufferBody w).1 = (.ok content, r.buffered content) := by
  obtain ⟨status, headers, body⟩ := r
  cases body with
  | none =>
    obtain rfl := Except.ok.inj h
    rfl
  | some b =>
    replace h : b.readAll.1 = .ok content := h
    dsimp only [Response.bufferBody]
    generalize b.readAll = read at h ⊢
    obtain ⟨outcome, b'⟩ := read
    obtain rfl : outcome = .ok content := h
    rfl

theorem Response.bufferBody_error {r : Response} {e : IoError} (h : r.content = .error e)
    (w : World) : ∃ r', (r.bufferBody w).1 = (.error e, r') := by
  obtain ⟨status, headers, body⟩ := r
  cases body with
  | none => exact absurd h (by simp [Response.content, Response.readBody])
  | some b =>
    replace h : b.readAll.1 = .error e := h
    dsimp only [Response.bufferBody]
    generalize b.readAll = read at h ⊢
    obtain ⟨outcome, b'⟩ := read
    obtain rfl : outcome = .error e := h
    exact ⟨_, rfl⟩

/-- A response that has been read into memory can be read again, also after it has been closed. -/
theorem Response.content_closed_buffered {r : Response} {content : Bytes}
    (h : r.content = .ok content) : (r.buffered content).closed.content = .ok content := by
  obtain ⟨status, headers, body⟩ := r
  cases body with
  | none => exact h
  | some b => rfl

/-! ## Steps -/

theorem RespondStep.act_keep_of_error {h : Handling} {e : IoError}
    (read : h.response.content = .error e) (i : Nat) (w : World) :
    (RespondStep.act h (.keep i) w).1.1 = .error (.body e) := by
  obtain ⟨r, hbuffer⟩ := Response.bufferBody_error read w
  dsimp only [RespondStep.act, Act.bind_apply]
  rw [hbuffer]
  rfl

theorem RespondStep.act_keep_of_ok {h : Handling} {content : Bytes}
    (read : h.response.content = .ok content) (i : Nat) (w : World) :
    (RespondStep.act h (.keep i) w).1 = (.ok (),
      ⟨h.response.buffered content, h.targets.set i (.content (Utf8.lossy content))⟩) := by
  dsimp only [RespondStep.act, Act.bind_apply]
  rw [Response.bufferBody_ok read]
  rfl

theorem describeFailure_of_error {h : Handling} {e : IoError}
    (read : h.response.content = .error e) (w : World) :
    (describeFailure h w).1.1 = .error (.body e) := by
  obtain ⟨r, hbuffer⟩ := Response.bufferBody_error read w
  dsimp only [describeFailure, Act.bind_apply]
  rw [hbuffer]
  rfl

theorem describeFailure_of_some {h : Handling} {content : Bytes} {service : ServiceError}
    (read : h.response.content = .ok content)
    (describes : ServiceError.ofBody? content = some service) (w : World) :
    (describeFailure h w).1.1 =
      .error (.service (.described (h.response.buffered content) service)) := by
  dsimp only [describeFailure, Act.bind_apply]
  rw [Response.bufferBody_ok read]
  dsimp only
  rw [describes]
  rfl

theorem describeFailure_of_none {h : Handling} {content : Bytes}
    (read : h.response.content = .ok content) (other : ServiceError.ofBody? content = none)
    (w : World) :
    (describeFailure h w).1 = (.ok (), { h with response := h.response.buffered content }) := by
  dsimp only [describeFailure, Act.bind_apply]
  rw [Response.bufferBody_ok read]
  dsimp only
  rw [other]
  rfl

/-- A step that closes acts when the steps inside it are done. -/
theorem RespondStep.decorate_closing_apply (next : Responder) (h : Handling) (w : World) :
    RespondStep.closing.decorate next h w = (((next h w).1.1,
      { (next h w).1.2 with response := (next h w).1.2.response.closed }),
      (next h w).2.write
        ((next h w).1.2.response.closingEvents "Failed to close response body")) := by
  simp only [RespondStep.decorate, Act.bind_apply, Response.closeBody_apply, Act.pure_apply]

/-- A step that closes leaves the result alone. -/
theorem RespondStep.decorate_closing (next : Responder) (h : Handling) (w : World) :
    (RespondStep.closing.decorate next h w).1 = ((next h w).1.1,
      { (next h w).1.2 with response := (next h w).1.2.response.closed }) := by
  rw [RespondStep.decorate_closing_apply]

/-- The last step of a handling is what it does itself. -/
theorem RespondStep.decorate_keep (i : Nat) (h : Handling) (w : World) :
    (RespondStep.keep i).decorate (fun h => pure (.ok (), h)) h w =
      RespondStep.act h (.keep i) w := by
  dsimp only [RespondStep.decorate, Act.bind_apply]
  generalize RespondStep.act h (.keep i) w = kept
  obtain ⟨⟨result, h'⟩, v⟩ := kept
  cases result <;> rfl

/-! ## Judgement -/

/-- Of a response with an accepted status the text is kept, and then its body is closed. -/
theorem respond_accepted {expect : List Status} {h : Handling}
    (accepted : h.response.status ∈ expect) (w : World) :
    (respond [.closing, .serviceErrorUnless expect, .keep 0] h w).1 =
      ((RespondStep.act h (.keep 0) w).1.1, { (RespondStep.act h (.keep 0) w).1.2 with
        response := (RespondStep.act h (.keep 0) w).1.2.response.closed }) := by
  simp only [respond, List.foldr_cons, List.foldr_nil, RespondStep.decorate_closing]
  rw [show RespondStep.decorate (.serviceErrorUnless expect) _ h = _ from
    if_pos (by simpa using accepted), RespondStep.decorate_keep]

/-- A response with another status is searched for a description, and then its body is closed. -/
theorem respond_refused {expect : List Status} {h : Handling}
    (refused : h.response.status ∉ expect) (w : World) :
    (respond [.closing, .serviceErrorUnless expect, .keep 0] h w).1 =
      ((describeFailure h w).1.1, { (describeFailure h w).1.2 with
        response := (describeFailure h w).1.2.response.closed }) := by
  simp only [respond, List.foldr_cons, List.foldr_nil, RespondStep.decorate_closing]
  rw [show RespondStep.decorate (.serviceErrorUnless expect) _ h = _ from
    if_neg (by simpa using refused)]

section Judge

variable {expect : List Status} {r : Response} {w : World}

/-- A run fails if the handling of its response does. -/
theorem judge_of_error {e : RespondError}
    (h : (respond [.closing, .serviceErrorUnless expect, .keep 0] ⟨r, [.content ""]⟩ w).1.1 =
      .error e) : (judge expect r w).1.1 = .error (.respond e) := by
  dsimp only [judge, Act.bind_apply]
  generalize respond _ _ w = handled at h ⊢
  obtain ⟨⟨result, h'⟩, v⟩ := handled
  obtain rfl : result = .error e := h
  rfl

/-- A run comes to the text that has been kept, if the status is accepted. -/
theorem judge_of_accepted {handled : Handling}
    (h : (respond [.closing, .serviceErrorUnless expect, .keep 0] ⟨r, [.content ""]⟩ w).1 =
      (.ok (), handled)) (accepted : handled.response.status ∈ expect) :
    (judge expect r w).1.1 = .ok ((handled.targets.head?.bind Target.content?).getD "") := by
  dsimp only [judge, Act.bind_apply]
  generalize respond _ _ w = answer at h ⊢
  obtain ⟨p, v⟩ := answer
  obtain rfl : p = _ := h
  dsimp only
  rw [if_pos (by simpa using accepted)]
  rfl

/-- A run reads the body once more if the status is not accepted. -/
theorem judge_of_refused {handled : Handling} {content : Bytes}
    (h : (respond [.closing, .serviceErrorUnless expect, .keep 0] ⟨r, [.content ""]⟩ w).1 =
      (.ok (), handled)) (refused : handled.response.status ∉ expect)
    (read : handled.response.content = .ok content) :
    (judge expect r w).1.1 =
      .error (.unexpectedStatus handled.response.status (Utf8.lossy content)) := by
  dsimp only [judge, Act.bind_apply]
  generalize respond _ _ w = answer at h ⊢
  obtain ⟨p, v⟩ := answer
  obtain rfl : p = _ := h
  dsimp only
  rw [if_neg (by simpa using refused)]
  dsimp only [Act.bind_apply]
  rw [Response.bufferBody_ok read]
  rfl

end Judge

/-- **The verdict of a run** on its last response follows from the response alone. -/
theorem judge_verdict (expect : List Status) (r : Response) (w : World) :
    Verdict expect r (judge expect r w).1.1 := by
  have haccepted := fun accepted : r.status ∈ expect =>
    respond_accepted (h := ⟨r, [.content ""]⟩) accepted w
  have hrefused := fun refused : r.status ∉ expect =>
    respond_refused (h := ⟨r, [.content ""]⟩) refused w
  cases read : r.content with
  | error e =>
    have hfails : (respond [.closing, .serviceErrorUnless expect, .keep 0]
        ⟨r, [.content ""]⟩ w).1.1 = .error (.body e) := by
      by_cases accepted : r.status ∈ expect
      · rw [haccepted accepted]
        exact RespondStep.act_keep_of_error read 0 w
      · rw [hrefused accepted]
        exact describeFailure_of_error read w
    rw [judge_of_error hfails]
    exact .unreadable read
  | ok content =>
    by_cases accepted : r.status ∈ expect
    · have hkept := haccepted accepted
      rw [RespondStep.act_keep_of_ok read] at hkept
      rw [judge_of_accepted hkept accepted]
      exact .expected read accepted
    · cases describes : ServiceError.ofBody? content with
      | some service =>
        have hfails := congrArg Prod.fst (hrefused accepted)
        rw [describeFailure_of_some read describes] at hfails
        rw [judge_of_error hfails]
        exact .described read accepted describes rfl rfl rfl rfl
      | none =>
        have hother := hrefused accepted
        rw [describeFailure_of_none read describes] at hother
        rw [judge_of_refused hother accepted (Response.content_closed_buffered read)]
        exact .unexpected read accepted describes

end Courier
