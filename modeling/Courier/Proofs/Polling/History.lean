import Courier.Proofs.Bodies.Uses
import Courier.Proofs.Polling.Schedule
import Mathlib.Data.List.Basic

set_option autoImplicit false

/-! # The progress of an operation, response by response

The progress of an operation keeps the last response and what can be read off it. Recording one more
response closes the body of the one before and replaces everything but the location, which stays if
the new response names none. So what the progress tells is a matter of the responses alone, and what
recording does to the world is a matter of the bodies that it closes: the two are computed apart from
each other, and each over the whole history by induction on it.

The main statement is `progress_over_history`. -/

namespace Courier

/-! ## Locations that are named -/

/-- Whether a header of a response names a location: its value is text and not blank. Blanks at the
    ends of the text do not count. -/
def Response.Names (r : Response) (header location : String) : Prop :=
  ∃ text, r.header? header = some text ∧ location = Blank.trim text ∧ location ≠ ""

/-- Whether a response names a location: in the header that says where the outcome of an operation
    will be or, if that one names none, in the header that says where a resource is. -/
inductive Response.Locates (r : Response) : String → Prop
  | asyncOperation {location : String} (named : r.Names "azure-asyncoperation" location) :
      Locates r location
  | location {location : String} (unnamed : ∀ other, ¬r.Names "azure-asyncoperation" other)
      (named : r.Names "location" location) : Locates r location

/-- Whether a location has been named by the last response of a history that names one. -/
def LastLocated (history : List Response) (location : String) : Prop :=
  ∃ past r rest, history = past ++ r :: rest ∧ r.Locates location ∧
    ∀ q ∈ rest, ∀ other, ¬q.Locates other

/-- The location that a header names. -/
def Response.named? (r : Response) (header : String) : Option String :=
  ((r.header? header).map Blank.trim).filter fun text => !text.isEmpty

theorem Response.named?_eq_some_iff {r : Response} {header location : String} :
    r.named? header = some location ↔ r.Names header location := by
  unfold Response.named? Response.Names
  rw [Option.filter_eq_some_iff, Option.map_eq_some_iff]
  constructor
  · rintro ⟨⟨text, htext, rfl⟩, hsome⟩
    exact ⟨text, htext, rfl, by simpa using hsome⟩
  · rintro ⟨text, htext, rfl, hsome⟩
    exact ⟨⟨text, htext, rfl⟩, by simpa using hsome⟩

/-- The first of two candidates that will do. -/
theorem find?_filterMap_pair {α β : Type} (f : β → Option α) (p : α → Bool) (x y : β) :
    ([x, y].filterMap f).find? p = ((f x).filter p).orElse fun _ => (f y).filter p := by
  cases hx : f x with
  | none =>
    cases hy : f y with
    | none => simp [hx, hy]
    | some b => cases hp : p b <;> simp [hx, hy, hp, Option.filter_some]
  | some a =>
    cases hp : p a with
    | true => simp [List.filterMap_cons, hx, hp, Option.filter_some]
    | false => cases hy : f y <;> simp [hx, hy, hp, Option.filter_some]

theorem Response.pollingLocation?_eq (r : Response) :
    r.pollingLocation? =
      (r.named? "azure-asyncoperation").orElse fun _ => r.named? "location" :=
  find?_filterMap_pair ..

/-- The location that is read off a response is the one that it names. -/
theorem Response.pollingLocation?_eq_some_iff {r : Response} {location : String} :
    r.pollingLocation? = some location ↔ r.Locates location := by
  rw [Response.pollingLocation?_eq]
  constructor
  · intro h
    cases hfirst : r.named? "azure-asyncoperation" with
    | some other =>
      rw [hfirst] at h
      obtain rfl : other = location := Option.some.inj h
      exact .asyncOperation (Response.named?_eq_some_iff.1 hfirst)
    | none =>
      rw [hfirst] at h
      refine .location (fun other hother => ?_) (Response.named?_eq_some_iff.1 h)
      exact absurd (hfirst.symm.trans (Response.named?_eq_some_iff.2 hother)) (by simp)
  · rintro (hnamed | ⟨hunnamed, hnamed⟩)
    · rw [Response.named?_eq_some_iff.2 hnamed]
      rfl
    · have hfirst : r.named? "azure-asyncoperation" = none :=
        Option.eq_none_iff_forall_ne_some.2 fun other hother =>
          hunnamed other (Response.named?_eq_some_iff.1 hother)
      rw [hfirst]
      exact Response.named?_eq_some_iff.2 hnamed

/-- The last location of a history is found from its end. -/
theorem lastLocated_iff {history : List Response} {location : String} :
    history.reverse.findSome? Response.pollingLocation? = some location ↔
      LastLocated history location := by
  have hnone : ∀ q : Response, q.pollingLocation? = none ↔ ∀ other, ¬q.Locates other := by
    intro q
    simp only [← Response.pollingLocation?_eq_some_iff, Option.eq_none_iff_forall_ne_some, ne_eq]
  rw [List.findSome?_eq_some_iff]
  constructor
  · rintro ⟨rest, r, past, heq, hr, hrest⟩
    refine ⟨past.reverse, r, rest.reverse, ?_, Response.pollingLocation?_eq_some_iff.1 hr, ?_⟩
    · simpa using congrArg List.reverse heq
    · exact fun q hq => (hnone q).1 (hrest q (List.mem_reverse.1 hq))
  · rintro ⟨past, r, rest, rfl, hr, hrest⟩
    refine ⟨rest.reverse, r, past.reverse, by simp, Response.pollingLocation?_eq_some_iff.2 hr, ?_⟩
    exact fun q hq => (hnone q).2 (hrest q (List.mem_reverse.1 hq))

/-! ## Recording -/

/-- The progress after responses that are recorded one after another. -/
def PollingState.recordAll (s : PollingState) (later : List Response) (usual : Duration)
    (codes : List Status) : Act PollingState :=
  later.foldlM (fun s r => s.record r usual codes) s

/-- What closing the bodies of responses leaves in the journal. -/
def closingEventsOf (responses : List Response) : List Event :=
  responses.flatMap (Response.closingEvents "Failed to close response body")

/-- Recording responses closes the bodies of all but the last one. -/
theorem PollingState.recordAll_apply (s : PollingState) (later : List Response) (usual : Duration)
    (codes : List Status) (w : World) :
    s.recordAll later usual codes w =
      (later.foldl (fun s r => s.after r usual codes) s,
        w.write (closingEventsOf (s.last :: later).dropLast)) := by
  induction later generalizing s w with
  | nil => simp [PollingState.recordAll, closingEventsOf]
  | cons r rest ih =>
    show (s.record r usual codes >>= fun s => s.recordAll rest usual codes) w = _
    rw [Act.bind_apply, PollingState.record_apply, ih, World.write_write]
    rfl

/-! ## What the progress tells -/

/-- What the progress of an operation tells of the responses so far: of the last one what can be
    read off it, and of all of them the location that has been named last. -/
structure PollingState.Tells (s : PollingState) (history : List Response) (usual : Duration)
    (codes : List Status) : Prop where
  last : history.getLast? = some s.last
  status : s.status = (PollingState.ofResponse s.last usual codes).status
  delay : s.delay = s.last.pollingDelay usual
  url : s.url = history.reverse.findSome? Response.pollingLocation?

theorem PollingState.tells_ofResponse (r : Response) (usual : Duration) (codes : List Status) :
    (PollingState.ofResponse r usual codes).Tells [r] usual codes where
  last := rfl
  status := rfl
  delay := rfl
  url := by simp [PollingState.ofResponse]

/-- A response tells that its operation goes on exactly if it asks for more polls. -/
theorem PollingState.status_ofResponse_eq_inProgress_iff {r : Response} {usual : Duration}
    {codes : List Status} :
    (PollingState.ofResponse r usual codes).status = .inProgress ↔
      r.requiresPolling codes = true := by
  rw [← Bool.not_eq_false', ← PollingState.isTerminal_ofResponse r usual codes]
  simp [OperationStatus.isTerminal]

/-- **One response.** -/
theorem PollingState.Tells.after {s : PollingState} {history : List Response} {usual : Duration}
    {codes : List Status} (h : s.Tells history usual codes) (r : Response) :
    (s.after r usual codes).Tells (history ++ [r]) usual codes where
  last := by simp [PollingState.after, PollingState.ofResponse]
  status := rfl
  delay := rfl
  url := by
    rw [List.reverse_append, List.reverse_singleton, List.singleton_append, List.findSome?_cons,
      ← h.url]
    unfold PollingState.after
    cases r.pollingLocation? <;> rfl

/-- **All responses.** -/
theorem PollingState.Tells.foldl_after {s : PollingState} {history : List Response}
    {usual : Duration} {codes : List Status} (h : s.Tells history usual codes)
    (later : List Response) :
    (later.foldl (fun s r => s.after r usual codes) s).Tells (history ++ later) usual codes := by
  induction later generalizing s history with
  | nil => simpa using h
  | cons r rest ih => simpa using ih (h.after r)

/-! ## Readers -/

/-- The reader that the body of a response is backed by, be it open or closed. -/
def Response.reader? (r : Response) : Option Nat := r.body.bind fun b => b.reader.number?

/-- Whether responses have the readers of their bodies for themselves: no two of them share one, and
    a reader has been closed once if the body has, and not at all if the body is open. -/
structure World.Lends (w : World) (responses : List Response) : Prop where
  apart : (responses.filterMap Response.reader?).Nodup
  closes : ∀ r ∈ responses, ∀ n, r.reader? = some n → w.closes n = if r.bodyIsOpen then 0 else 1

theorem Response.openReader?_eq (r : Response) :
    r.openReader? = if r.bodyIsOpen then r.reader? else none := by
  unfold Response.openReader? Response.bodyIsOpen Response.reader?
  cases r.body with
  | none => rfl
  | some b => rfl

/-- What is open is backed by a reader of its own. -/
theorem Response.reader?_of_openReader? {r : Response} {n : Nat} (h : r.openReader? = some n) :
    r.reader? = some n := by
  rw [Response.openReader?_eq] at h
  split at h
  · exact h
  · exact absurd h (by simp)

/-- Closing the bodies of responses closes each reader once for each open body that it backs. -/
theorem closesIn_closingEventsOf (responses : List Response) (time n : Nat) :
    closesIn ((closingEventsOf responses).map fun event => ⟨time, event⟩) n =
      responses.countP fun r => r.openReader? = some n := by
  induction responses with
  | nil => rfl
  | cons r rest ih =>
    have hr := (r.closesJust_closingEvents "Failed to close response body").closesIn_map time n
    rw [show closingEventsOf (r :: rest) = _ ++ closingEventsOf rest from List.flatMap_cons,
      List.map_append, closesIn_append, hr, ih, List.countP_cons, Nat.add_comm]
    simp

/-- A reader that backs no body is open in none. -/
theorem countP_openReader?_eq_zero {responses : List Response} {n : Nat}
    (h : ∀ r ∈ responses, r.reader? ≠ some n) :
    (responses.countP fun r => r.openReader? = some n) = 0 := by
  refine List.countP_eq_zero.2 fun r hr hopen => ?_
  exact h r hr (Response.reader?_of_openReader? (by simpa using hopen))

/-- Of responses that share no reader only the one that has it can have it open. -/
theorem countP_openReader? {responses : List Response} {r : Response} {n : Nat}
    (apart : (responses.filterMap Response.reader?).Nodup) (hmem : r ∈ responses)
    (hreader : r.reader? = some n) :
    (responses.countP fun r => r.openReader? = some n) = if r.bodyIsOpen then 1 else 0 := by
  induction responses with
  | nil => exact absurd hmem List.not_mem_nil
  | cons q rest ih =>
    rw [List.countP_cons]
    have hrest : (rest.filterMap Response.reader?).Nodup :=
      apart.sublist (List.Sublist.filterMap _ (List.sublist_cons_self q rest))
    have hother : q.reader? = some n → ∀ p ∈ rest, p.reader? ≠ some n := by
      intro hq p hp hsame
      rw [List.filterMap_cons_some hq] at apart
      exact (List.nodup_cons.1 apart).1 (List.mem_filterMap.2 ⟨p, hp, hsame⟩)
    rcases List.mem_cons.1 hmem with rfl | hr
    · rw [countP_openReader?_eq_zero (hother hreader), Response.openReader?_eq, hreader]
      cases r.bodyIsOpen <;> simp
    · have hq : q.openReader? ≠ some n := fun hopen =>
        hother (Response.reader?_of_openReader? hopen) r hr hreader
      simpa [hq] using ih hrest hr

/-- Closing the bodies of responses that have their readers for themselves leaves each of these
    readers closed once, and no other one is closed. -/
theorem World.Lends.closes_write {w : World} {responses : List Response} (lent : w.Lends responses)
    (n : Nat) :
    (∀ r ∈ responses, r.reader? = some n → (w.write (closingEventsOf responses)).closes n = 1) ∧
    ((∀ r ∈ responses, r.reader? ≠ some n) →
      (w.write (closingEventsOf responses)).closes n = w.closes n) := by
  rw [World.closes_write, closesIn_closingEventsOf]
  constructor
  · intro r hr hreader
    rw [countP_openReader? lent.apart hr hreader, lent.closes r hr n hreader]
    cases r.bodyIsOpen <;> rfl
  · intro hnone
    rw [countP_openReader?_eq_zero hnone, Nat.add_zero]

/-- The responses but the last have their readers for themselves as well, and the last one's is none
    of those. -/
theorem World.Lends.dropLast {w : World} {responses : List Response} {last : Response}
    (lent : w.Lends responses) (hlast : responses.getLast? = some last) :
    w.Lends responses.dropLast ∧
      ∀ n, last.reader? = some n → ∀ r ∈ responses.dropLast, r.reader? ≠ some n := by
  have apart := lent.apart
  rw [← List.dropLast_append_getLast? last hlast, List.filterMap_append, List.nodup_append] at apart
  refine ⟨⟨apart.1, fun r hr => lent.closes r (List.dropLast_subset _ hr)⟩, ?_⟩
  intro n hn r hr hsame
  exact apart.2.2 n (List.mem_filterMap.2 ⟨r, hr, hsame⟩) n (by simp [hn]) rfl

/-- **The progress over a history.** Whatever responses have been recorded, each with a reader of its
    own, the reader of every one but the last has been closed exactly once; the last one is kept as
    it came, its reader is left alone, and so are all others. The status and the wait are those of
    the last response alone: the operation goes on exactly if this one asks for more polls, and
    has succeeded or failed by its code otherwise. The location is the one that has been named last. -/
theorem progress_over_history (first : Response) (later : List Response) (usual : Duration)
    (codes : List Status) {w : World} (lent : w.Lends (first :: later)) :
    ∃ s w', (PollingState.ofResponse first usual codes).recordAll later usual codes w = (s, w') ∧
      (first :: later).getLast? = some s.last ∧
      (∀ r ∈ (first :: later).dropLast, ∀ n, r.reader? = some n → w'.closes n = 1) ∧
      (∀ n, s.last.reader? = some n → w'.closes n = w.closes n) ∧
      (∀ n, (∀ r ∈ (first :: later).dropLast, r.reader? ≠ some n) → w'.closes n = w.closes n) ∧
      (s.status = .inProgress ↔ StillPending codes s.last) ∧
      (¬StillPending codes s.last → s.status =
        if 200 ≤ s.last.status.code ∧ s.last.status.code ≤ 299 then .succeeded else .failed) ∧
      s.last.CallsFor usual s.delay ∧
      ∀ location, s.url = some location ↔ LastLocated (first :: later) location := by
  have told := (PollingState.tells_ofResponse first usual codes).foldl_after later
  rw [List.singleton_append] at told
  obtain ⟨lentBefore, lastApart⟩ := lent.dropLast told.last
  refine ⟨_, _, PollingState.recordAll_apply _ later usual codes w, told.last,
    fun r hr n hn => (lentBefore.closes_write n).1 r hr hn,
    fun n hn => (lentBefore.closes_write n).2 (lastApart n hn),
    fun n hn => (lentBefore.closes_write n).2 hn, ?_, ?_, ?_, ?_⟩
  · rw [told.status, ← requiresPolling_iff]
    exact PollingState.status_ofResponse_eq_inProgress_iff
  · intro hended
    rw [told.status, PollingState.ofResponse, (requiresPolling_eq_false_iff codes _).2 hended]
    simp [OperationStatus.ofCode, Status.isSuccess]
  · rw [told.delay]
    exact Response.callsFor_pollingDelay _ usual
  · intro location
    rw [told.url]
    exact lastLocated_iff

/-- An operation that is accepted and says where it can be asked about, goes on without a location
    that could be read, and ends well: the readers of its first two responses are closed, although
    closing one of them fails, the third response is kept as it came, and the location is still the
    first one. -/
theorem progress_over_history_accepted :
    let accepted : Response :=
      ⟨⟨202⟩, [(⟨HeaderName.asyncOperation⟩, ⟨Utf8.encode " "⟩),
        (⟨HeaderName.location⟩, ⟨Utf8.encode "http://h/op"⟩)], some ⟨.tracked 0, [], true⟩⟩
    let goesOn : Response :=
      ⟨⟨202⟩, [(⟨HeaderName.location⟩, ⟨[255]⟩)], some ⟨.closeFails 1, [], true⟩⟩
    let ended : Response := ⟨⟨200⟩, [], some ⟨.tracked 2, Utf8.encode "done", true⟩⟩
    World.quiet.Lends [accepted, goesOn, ended] ∧
    ∃ s w', (PollingState.ofResponse accepted defaultPollingDelay []).recordAll [goesOn, ended]
        defaultPollingDelay [] World.quiet = (s, w') ∧
      s.last = ended ∧ w'.closes 0 = 1 ∧ w'.closes 1 = 1 ∧ w'.closes 2 = 0 ∧
      s.status = .succeeded ∧ s.url = some "http://h/op" := by
  intro accepted goesOn ended
  have lent : World.quiet.Lends [accepted, goesOn, ended] := ⟨by decide, by decide⟩
  obtain ⟨s, w', hrun, hlast, hclosed, hkept, -, -, hended, -, hurl⟩ :=
    progress_over_history accepted [goesOn, ended] defaultPollingDelay [] lent
  have hkeeps : s.last = ended := (Option.some.inj hlast).symm
  rw [hkeeps] at hkept hended
  have hlocated : LastLocated [accepted, goesOn, ended] "http://h/op" :=
    lastLocated_iff.1 (by decide +kernel)
  refine ⟨lent, s, w', hrun, hkeeps, hclosed accepted (by decide) 0 rfl,
    hclosed goesOn (by decide) 1 rfl, hkept 2 rfl, ?_, (hurl _).2 hlocated⟩
  exact hended (fun h => h.1 rfl)

end Courier
