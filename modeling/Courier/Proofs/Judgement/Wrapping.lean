import Courier.Proofs.Judgement.Verdict

set_option autoImplicit false

/-! # Failures inside failures

Whoever handles an error asks whether a failed request is behind it, and goes through its chain for
an answer. An error that gives another one as its cause keeps it in the chain. An error that stands
for another one takes its place: the chain goes on with the causes of the inner error, and of that
itself there is only what can be recognised of the outer one. Of a respond error it can be recognised
that it holds a failed request. Of the error of a run nothing can be recognised, so a failed request
that it stands for is lost to the chain.

The main statement is `wrapped_isServiceError_iff`: a failed request is found behind an error
wherever there is one, unless such an error of a run hides it. -/

namespace Courier

/-! ## Errors of all kinds -/

/-- An error of one of the program's own types, or another one, of which the chain is known. -/
inductive Failure
  | foreign (chain : FailureChain)
  | request (e : RequestError)
  | transport (e : TransportError)
  | send (e : SendError)
  | respond (e : RespondError)
  | run (e : RunError)

/-- The chain that an error begins. -/
def Failure.chain : Failure → FailureChain
  | .foreign chain => chain
  | .request e => e.chain
  | .transport e => e.chain
  | .send e => e.chain
  | .respond e => e.chain
  | .run e => e.chain

/-- Whether a failed request is found behind an error. -/
def Failure.isServiceError (f : Failure) : Bool := f.chain.isServiceError

@[simp] theorem FailureChain.isServiceError_plain (message : String) (c : FailureChain) :
    FailureChain.isServiceError (.plain message :: c) = c.isServiceError := rfl

@[simp] theorem FailureChain.isServiceError_nil : FailureChain.isServiceError [] = false := rfl

/-- Messages alone tell of no failed request. -/
@[simp] theorem FailureChain.isServiceError_messages (messages : List String) :
    FailureChain.isServiceError (messages.map .plain) = false := by
  induction messages with
  | nil => rfl
  | cons message rest ih => exact ih

@[simp] theorem TokenError.isServiceError_chain (e : TokenError) :
    e.chain.isServiceError = false := rfl

/-! ## Failed requests in an error -/

/-- Whether some error of a chain is a failed request or holds one. -/
def FailureChain.HoldsRequest (c : FailureChain) : Prop := ∃ link ∈ c, link.kind ≠ .plain

/-- Whether a failed request occurs in a transport error. -/
def TransportError.HoldsRequest : TransportError → Prop
  | .connection cause => cause.HoldsRequest
  | _ => False

/-- Whether a failed request occurs in a send error. -/
def SendError.HoldsRequest : SendError → Prop
  | .transport e => e.HoldsRequest
  | _ => False

/-- Whether a failed request occurs in a respond error. -/
def RespondError.HoldsRequest : RespondError → Prop
  | .service _ => True
  | .body e => e.cause.HoldsRequest
  | _ => False

/-- Whether a failed request occurs in the error of a run. -/
def RunError.HoldsRequest : RunError → Prop
  | .send e => e.HoldsRequest
  | .respond e => e.HoldsRequest
  | .output e => e.cause.HoldsRequest
  | _ => False

/-- Whether a failed request occurs in an error, be it found behind it or not. -/
def Failure.HoldsRequest : Failure → Prop
  | .foreign chain => chain.HoldsRequest
  | .request _ => True
  | .transport e => e.HoldsRequest
  | .send e => e.HoldsRequest
  | .respond e => e.HoldsRequest
  | .run e => e.HoldsRequest

theorem FailureChain.holdsRequest_of_isServiceError {c : FailureChain}
    (h : c.isServiceError = true) : c.HoldsRequest := by
  obtain ⟨link, hmem, hkind⟩ := List.any_eq_true.1 h
  refine ⟨link, hmem, fun hplain => ?_⟩
  rw [hplain] at hkind
  exact absurd hkind (by simp)

theorem TransportError.holdsRequest_of_isServiceError {e : TransportError}
    (h : e.chain.isServiceError = true) : e.HoldsRequest := by
  cases e with
  | connection cause => exact FailureChain.holdsRequest_of_isServiceError h
  | timeout => exact absurd h (by simp [TransportError.chain])
  | invalidUrl reason => exact absurd h (by simp [TransportError.chain])

theorem SendError.holdsRequest_of_isServiceError {e : SendError}
    (h : e.chain.isServiceError = true) : e.HoldsRequest := by
  cases e with
  | transport e => exact TransportError.holdsRequest_of_isServiceError h
  | unexpectedStatus method url status response => exact absurd h (by simp [SendError.chain])
  | prepare e => exact absurd h (by simp [SendError.chain])
  | missingLocation status => exact absurd h (by simp [SendError.chain])
  | cancelled => exact absurd h (by simp [SendError.chain])

theorem RespondError.holdsRequest_of_isServiceError {e : RespondError}
    (h : e.chain.isServiceError = true) : e.HoldsRequest := by
  cases e with
  | service e => trivial
  | unexpectedStatus status => exact absurd h (by simp [RespondError.chain])
  | body e => exact FailureChain.holdsRequest_of_isServiceError h
  | decode fault => exact absurd h (by simp [RespondError.chain])

/-- What is found behind an error that stands for a respond error is found behind that as well. -/
theorem RespondError.isServiceError_of_drop {e : RespondError}
    (h : FailureChain.isServiceError (e.chain.drop 1) = true) : e.chain.isServiceError = true := by
  obtain ⟨link, hmem, hkind⟩ := List.any_eq_true.1 h
  exact List.any_eq_true.2 ⟨link, List.mem_of_mem_drop hmem, hkind⟩

/-- What is found behind an error occurs in it. -/
theorem Failure.holdsRequest_of_isServiceError {f : Failure} (h : f.isServiceError = true) :
    f.HoldsRequest := by
  cases f with
  | foreign chain => exact FailureChain.holdsRequest_of_isServiceError h
  | request e => trivial
  | transport e => exact TransportError.holdsRequest_of_isServiceError h
  | send e => exact SendError.holdsRequest_of_isServiceError h
  | respond e => exact RespondError.holdsRequest_of_isServiceError h
  | run e =>
    cases e with
    | token e => exact absurd h (by simp [Failure.isServiceError, Failure.chain, RunError.chain])
    | prepare e =>
      exact absurd h (by simp [Failure.isServiceError, Failure.chain, RunError.chain])
    | send e => exact SendError.holdsRequest_of_isServiceError h
    | respond e =>
      exact RespondError.holdsRequest_of_isServiceError (RespondError.isServiceError_of_drop h)
    | unexpectedStatus status body =>
      exact absurd h (by simp [Failure.isServiceError, Failure.chain, RunError.chain])
    | output e => exact FailureChain.holdsRequest_of_isServiceError h

/-! ## Wrapping -/

/-- The ways to put an error into another one. -/
inductive Wrapper
  /-- A failed request is what a response tells. -/
  | service
  /-- Any error is why there is no connection. -/
  | connection
  /-- A transport error is why nothing was sent. -/
  | transport
  /-- A respond error ends a run. -/
  | respond
  /-- A send error ends a run. -/
  | send
  /-- Any error is the cause of a failed request. -/
  | request (package method : String) (response : Option Response) (message : String)

/-- Whether a way of wrapping makes a failed request. -/
def Wrapper.isRequest : Wrapper → Bool
  | .request _ _ _ _ => true
  | _ => false

/-- Whether the outer error stands for the inner one. -/
def Wrapper.isTransparent : Wrapper → Bool
  | .service => true
  | .transport => true
  | .respond => true
  | _ => false

/-- What a way of wrapping makes of an error that it is meant for. -/
inductive Wrapper.Wraps : Wrapper → Failure → Failure → Prop
  | service (e : RequestError) : Wraps .service (.request e) (.respond (.service e))
  | connection (f : Failure) : Wraps .connection f (.transport (.connection f.chain))
  | transport (e : TransportError) : Wraps .transport (.transport e) (.send (.transport e))
  | respond (e : RespondError) : Wraps .respond (.respond e) (.run (.respond e))
  | send (e : SendError) : Wraps .send (.send e) (.run (.send e))
  | request (f : Failure) (package method : String) (response : Option Response)
      (message : String) : Wraps (.request package method response message) f
        (.request (.withCause f.chain package method response message))

/-- Whether an error is made of another one by wrapping it again and again, the innermost way
    first. -/
inductive Failure.WrappedBy (f : Failure) : List Wrapper → Failure → Prop
  | bare : WrappedBy f [] f
  | again {wrappers : List Wrapper} {wrapper : Wrapper} {g h : Failure}
      (inner : WrappedBy f wrappers g) (outer : wrapper.Wraps g h) :
      WrappedBy f (wrappers ++ [wrapper]) h

/-- An error that stands for another one has its wording and its causes. -/
theorem Wrapper.Wraps.transparent {wrapper : Wrapper} {f g : Failure} (wraps : wrapper.Wraps f g)
    (transparent : wrapper.isTransparent = true) :
    g.chain.message = f.chain.message ∧ g.chain.drop 1 = f.chain.drop 1 := by
  cases wraps with
  | service e => exact ⟨rfl, rfl⟩
  | transport e => exact ⟨rfl, rfl⟩
  | respond e => exact ⟨rfl, rfl⟩
  | connection f => exact absurd transparent (by simp [Wrapper.isTransparent])
  | send e => exact absurd transparent (by simp [Wrapper.isTransparent])
  | request f package method response message =>
    exact absurd transparent (by simp [Wrapper.isTransparent])

/-! ## Failed requests that are hidden -/

/-- Whether an error hides the failed request that occurs in it: it is the error of a run that
    stands for that request and has no other one among its causes, or it has such an error as its
    cause. -/
inductive Failure.Veiled : Failure → Prop
  | run {e : RequestError} (alone : e.cause.isServiceError = false) :
      Veiled (.run (.respond (.service e)))
  | connection {f : Failure} {chain : FailureChain} (inner : Veiled f)
      (same : chain = f.chain) : Veiled (.transport (.connection chain))
  | transport {e : TransportError} (inner : Veiled (.transport e)) :
      Veiled (.send (.transport e))
  | send {e : SendError} (inner : Veiled (.send e)) : Veiled (.run (.send e))

/-- Nothing is found behind an error that hides it. -/
theorem Failure.Veiled.isServiceError {f : Failure} (h : f.Veiled) : f.isServiceError = false := by
  induction h with
  | run alone => exact alone
  | connection inner same ih =>
    subst same
    exact ih
  | transport inner ih => exact ih
  | send inner ih => exact ih

/-- A layer that is seen through: what is found behind the inner error is found behind the outer
    one, and what the inner error hides the outer one hides as well. -/
theorem Wrapper.isServiceError_iff_of_passes {wrapper : Wrapper} {f g : Failure} {occurs : Prop}
    (inner : f.isServiceError = true ↔ occurs ∧ ¬f.Veiled) (other : wrapper.isRequest = false)
    (found : g.isServiceError = f.isServiceError) (hides : f.Veiled → g.Veiled) :
    g.isServiceError = true ↔ (occurs ∨ wrapper.isRequest = true) ∧ ¬g.Veiled := by
  rw [other, found]
  constructor
  · intro h
    refine ⟨.inl (inner.1 h).1, fun hveiled => ?_⟩
    rw [← found, hveiled.isServiceError] at h
    exact absurd h (by simp)
  · rintro ⟨hoccurs | hrequest, hshown⟩
    · exact inner.2 ⟨hoccurs, fun hveiled => hshown (hides hveiled)⟩
    · exact absurd hrequest (by simp)

/-- **One layer.** If what occurs in the inner error is found behind it unless it is hidden, then so
    it is with the outer one. -/
theorem Wrapper.Wraps.isServiceError_iff {wrapper : Wrapper} {f g : Failure} {occurs : Prop}
    (wraps : wrapper.Wraps f g) (inner : f.isServiceError = true ↔ occurs ∧ ¬f.Veiled) :
    g.isServiceError = true ↔ (occurs ∨ wrapper.isRequest = true) ∧ ¬g.Veiled := by
  cases wraps with
  | service e => exact ⟨fun _ => ⟨.inl (inner.1 rfl).1, nofun⟩, fun _ => rfl⟩
  | request f package method response message => exact ⟨fun _ => ⟨.inr rfl, nofun⟩, fun _ => rfl⟩
  | connection f => exact isServiceError_iff_of_passes inner rfl rfl fun h => .connection h rfl
  | transport e => exact isServiceError_iff_of_passes inner rfl rfl .transport
  | send e => exact isServiceError_iff_of_passes inner rfl rfl .send
  | respond e =>
    cases e with
    | service r =>
      -- The request itself is lost. What is found is what its causes bring.
      refine ⟨fun h => ⟨.inl (inner.1 rfl).1, fun hveiled => ?_⟩, fun ⟨_, hshown⟩ => ?_⟩
      · rw [hveiled.isServiceError] at h
        exact absurd h (by simp)
      · exact Bool.of_not_eq_false fun alone => hshown (.run alone)
    | unexpectedStatus status => exact isServiceError_iff_of_passes inner rfl rfl nofun
    | body e => exact isServiceError_iff_of_passes inner rfl rfl nofun
    | decode fault => exact isServiceError_iff_of_passes inner rfl rfl nofun

/-- **All layers.** A failed request is found behind an error that has been wrapped again and again
    exactly if one occurs in it and is not hidden. -/
theorem Failure.WrappedBy.isServiceError_iff {f g : Failure} {wrappers : List Wrapper}
    (built : f.WrappedBy wrappers g) :
    g.isServiceError = true ↔
      (f.isServiceError = true ∨ ∃ wrapper ∈ wrappers, wrapper.isRequest = true) ∧ ¬g.Veiled := by
  induction built with
  | bare =>
    refine ⟨fun h => ⟨.inl h, fun hveiled => ?_⟩, ?_⟩
    · rw [hveiled.isServiceError] at h
      exact absurd h (by simp)
    · rintro ⟨h | ⟨wrapper, hmem, -⟩, -⟩
      · exact h
      · exact absurd hmem List.not_mem_nil
  | again inner outer ih =>
    rw [outer.isServiceError_iff ih]
    simp only [List.mem_append, List.mem_singleton, or_and_right, exists_or, exists_eq_left, or_assoc]

/-- **Failures inside failures.** A failed request is found behind an error that has been wrapped
    again and again exactly if it was found behind the innermost error, or one of the layers made
    it, and no error of a run hides it. If no failed request occurs in the innermost error and no
    layer makes one, none is found. A layer that stands for what it wraps has its wording and its
    causes. -/
theorem wrapped_isServiceError_iff {f g : Failure} {wrappers : List Wrapper}
    (built : f.WrappedBy wrappers g) :
    (g.isServiceError = true ↔
      (f.isServiceError = true ∨ ∃ wrapper ∈ wrappers, wrapper.isRequest = true) ∧ ¬g.Veiled) ∧
    (¬f.HoldsRequest → (∀ wrapper ∈ wrappers, wrapper.isRequest = false) →
      g.isServiceError = false) ∧
    ∀ wrapper h, Wrapper.Wraps wrapper g h → wrapper.isTransparent = true →
      h.chain.message = g.chain.message ∧ h.chain.drop 1 = g.chain.drop 1 := by
  refine ⟨built.isServiceError_iff, fun hnone hother => ?_, fun _ _ wraps => wraps.transparent⟩
  refine Bool.of_not_eq_true fun hfound => ?_
  rcases (built.isServiceError_iff.1 hfound).1 with hinner | ⟨wrapper, hmem, hrequest⟩
  · exact hnone (Failure.holdsRequest_of_isServiceError hinner)
  · rw [hother wrapper hmem] at hrequest
    exact absurd hrequest (by simp)

/-- A failed request for want of a connection. -/
def resetRequest : RequestError :=
  .withCause [.plain "connection reset"] "jobs" "get" none "request failed"

/-- A connection that is reset is the cause of a failed request, which a response tells of, which is
    why there is no connection: the request is found behind the error of the run. -/
theorem wrapped_isServiceError_iff_reset :
    (Failure.foreign [.plain "connection reset"]).WrappedBy
      [.request "jobs" "get" none "request failed", .service, .connection, .transport, .send]
      (.run (.send (.transport (.connection (RespondError.service resetRequest).chain)))) ∧
    ¬(Failure.foreign [.plain "connection reset"]).HoldsRequest ∧
    (Failure.run (.send (.transport (.connection
      (RespondError.service resetRequest).chain)))).isServiceError = true := by
  have built : (Failure.foreign [.plain "connection reset"]).WrappedBy
      [.request "jobs" "get" none "request failed", .service, .connection, .transport, .send]
      (.run (.send (.transport (.connection (RespondError.service resetRequest).chain)))) :=
    .again (.again (.again (.again (.again .bare (.request _ _ _ _ _)) (.service resetRequest))
      (.connection _)) (.transport _)) (.send _)
  refine ⟨built, ?_, (wrapped_isServiceError_iff built).1.2 ⟨.inr ⟨_, List.mem_cons_self, rfl⟩, ?_⟩⟩
  · rintro ⟨link, hmem, hkind⟩
    rw [List.mem_singleton.1 hmem] at hkind
    exact hkind rfl
  · intro hveiled
    exact absurd hveiled.isServiceError (by decide)

/-- It is not so that a failed request that is found behind an error is found behind all that is
    wrapped around the error. -/
theorem not_wrapped_isServiceError : ¬∀ (f g : Failure) (wrappers : List Wrapper),
    f.WrappedBy wrappers g → f.isServiceError = true → g.isServiceError = true := by
  intro h
  have built : (Failure.request resetRequest).WrappedBy [.service, .respond]
      (.run (.respond (.service resetRequest))) :=
    .again (.again .bare (.service _)) (.respond _)
  exact absurd (h _ _ _ built rfl) (by decide)

/-- A failure that the service describes ends a run with an error behind which no failed request is
    found, although there is one behind the respond error that it stands for. -/
theorem judge_hides_description {expect : List Status} {r : Response} {content : Bytes}
    {service : ServiceError} (read : r.content = .ok content) (refused : r.status ∉ expect)
    (describes : ServiceError.ofBody? content = some service) (w : World) :
    ∃ e : RespondError, (judge expect r w).1.1 = .error (.respond e) ∧
      (Failure.respond e).isServiceError = true ∧
      (Failure.run (.respond e)).isServiceError = false := by
  have hfails := congrArg Prod.fst (respond_refused (h := ⟨r, [.content ""]⟩) refused w)
  rw [describeFailure_of_some read describes] at hfails
  exact ⟨_, judge_of_error hfails, rfl, rfl⟩

end Courier
