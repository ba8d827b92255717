import Courier.Proofs.Exchange.Actions

set_option autoImplicit false

/-! # A ledger of readers

What a call does to the readers of bodies is read off the entries that it writes into the journal. A
`Ledger` says where the books stand: since the start, every reader that the service has handed out
was closed once, except for the one that is still held, and whenever a request went out nothing was
held. Each action keeps the books in order; this file has those that all others are made of. -/

namespace Courier

/-! ## Entries of a journal -/

/-- The entries that have been written since an earlier moment. -/
def World.since (w start : World) : List Entry := w.journal.drop start.journal.length

/-- Whether an event is that the transport took a request. -/
def Event.isSent : Event → Bool
  | .sent _ _ _ => true
  | _ => false

/-- The number of requests that entries tell of. -/
def sendsIn (entries : List Entry) : Nat := entries.countP fun entry => entry.event.isSent

/-- Whether an event is neither a request nor the closing of a reader. -/
def Event.isQuiet : Event → Bool
  | .sent _ _ _ => false
  | .closed _ => false
  | _ => true

@[simp] theorem closesIn_append (first rest : List Entry) (n : Nat) :
    closesIn (first ++ rest) n = closesIn first n + closesIn rest n :=
  List.countP_append

@[simp] theorem sendsIn_append (first rest : List Entry) :
    sendsIn (first ++ rest) = sendsIn first + sendsIn rest :=
  List.countP_append

@[simp] theorem closesIn_nil (n : Nat) : closesIn [] n = 0 := rfl

@[simp] theorem sendsIn_nil : sendsIn [] = 0 := rfl

/-- Fewer entries tell of fewer closes. -/
theorem closesIn_le_of_beginning {past entries : List Entry} (h : past <+: entries) (n : Nat) :
    closesIn past n ≤ closesIn entries n :=
  h.sublist.countP_le

theorem closesIn_quiet {event : Event} (h : event.isQuiet = true) (time n : Nat) :
    closesIn [⟨time, event⟩] n = 0 := by
  cases event <;> first | rfl | simp [Event.isQuiet] at h

theorem isSent_of_isQuiet {event : Event} (h : event.isQuiet = true) : event.isSent = false := by
  cases event <;> first | rfl | simp [Event.isQuiet] at h

/-- What is written is all that is new. -/
theorem World.since_write {start w : World} (h : start.journal <+: w.journal)
    (events : List Event) :
    (w.write events).since start = w.since start ++ events.map fun event => ⟨w.clock, event⟩ := by
  unfold World.since World.write
  exact List.drop_append_of_le_length h.length_le

/-- What is new since a moment is what was new at a later moment, and what is new since then. -/
theorem World.since_append {w v u : World} (h : w.journal <+: v.journal)
    (h' : v.journal <+: u.journal) : u.since w = v.since w ++ u.since v := by
  obtain ⟨first, hv⟩ := h
  obtain ⟨rest, hu⟩ := h'
  unfold World.since
  rw [← hu, ← hv, List.append_assoc]
  simp

@[simp] theorem World.since_self (w : World) : w.since w = [] := by
  simp [World.since]

/-! ## Readers that are handed out -/

/-- The number of the next reader after some more replies. -/
def World.readersAfter (start : World) (replies : Nat) : Nat :=
  start.readers + (List.range replies).countP fun i => (start.reply i).answer.hasReader

theorem World.readersAfter_succ (start : World) (replies : Nat) :
    start.readersAfter (replies + 1) =
      start.readersAfter replies + (start.reply replies).answer.hasReader.toNat := by
  unfold World.readersAfter
  rw [List.range_succ, List.countP_append, List.countP_singleton]
  cases (start.reply replies).answer.hasReader <;> rfl

/-! ## The ledger -/

/-- Where the books on readers stand since `start`, if `held` is the reader that is still open. -/
structure Ledger (start w : World) (held : Option Nat) : Prop where
  grows : start.journal <+: w.journal
  /-- Every request has used up one reply. -/
  replies : ∀ i, w.reply i = start.reply (sendsIn (w.since start) + i)
  readers : w.readers = start.readersAfter (sendsIn (w.since start))
  closes : ∀ n, closesIn (w.since start) n =
    if start.readers ≤ n ∧ n < w.readers ∧ held ≠ some n then 1 else 0
  /-- When a request went out, all readers of the replies before it had been closed. -/
  settled : ∀ past entry, past ++ [entry] <+: w.since start → entry.event.isSent = true →
    ∀ n, start.readers ≤ n → n < start.readersAfter (sendsIn past) → closesIn past n = 1
  held_lt : ∀ n, held = some n → start.readers ≤ n ∧ n < w.readers

namespace Ledger

variable {start w : World} {held : Option Nat}

/-- At the start nothing has been handed out. -/
theorem refl (start : World) : Ledger start start none where
  grows := List.prefix_refl _
  replies i := by simp [World.since]
  readers := by simp [World.since, World.readersAfter]
  closes n := by
    have hnone : ¬(start.readers ≤ n ∧ n < start.readers ∧ none ≠ some n) := by omega
    rw [if_neg hnone]
    simp [World.since]
  settled past entry h := by
    simp [World.since] at h
  held_lt n h := by simp at h

/-- The clock does not matter. -/
theorem clock (h : Ledger start w held) (time : Nat) :
    Ledger start { w with clock := time } held :=
  ⟨h.grows, h.replies, h.readers, h.closes, h.settled, h.held_lt⟩

/-- Any event but a request keeps the books in order if its closes are accounted for. -/
theorem write_one (h : Ledger start w held) {event : Event} {held' : Option Nat}
    (hs : event.isSent = false)
    (hc : ∀ n, closesIn (w.since start) n + closesIn [⟨w.clock, event⟩] n =
      if start.readers ≤ n ∧ n < w.readers ∧ held' ≠ some n then 1 else 0)
    (hh : ∀ n, held' = some n → start.readers ≤ n ∧ n < w.readers) :
    Ledger start (w.write [event]) held' := by
  have hsince := World.since_write h.grows [event]
  have hsends : sendsIn ((w.write [event]).since start) = sendsIn (w.since start) := by
    simp [hsince, sendsIn, hs]
  constructor
  · exact h.grows.trans (List.prefix_append _ _)
  · intro i
    rw [hsends]
    exact h.replies i
  · rw [hsends]
    exact h.readers
  · intro n
    rw [hsince, closesIn_append, List.map_singleton]
    exact hc n
  · intro past entry hpast hsent
    rw [hsince, List.map_singleton, List.prefix_concat_iff] at hpast
    rcases hpast with heq | hpre
    · -- The last entry is the new one, which is no request.
      obtain ⟨-, hentry⟩ := List.append_inj' heq rfl
      rw [List.singleton_inj.1 hentry, hs] at hsent
      exact absurd hsent (by simp)
    · exact h.settled past entry hpre hsent
  · exact hh

/-- A quiet event changes nothing. -/
theorem write_quiet_one (h : Ledger start w held) (event : Event) (hq : event.isQuiet = true) :
    Ledger start (w.write [event]) held := by
  refine h.write_one (isSent_of_isQuiet hq) (fun n => ?_) h.held_lt
  rw [closesIn_quiet hq, Nat.add_zero]
  exact h.closes n

/-- Quiet events change nothing. -/
theorem write_quiet (h : Ledger start w held) {events : List Event}
    (hq : ∀ event ∈ events, event.isQuiet = true) : Ledger start (w.write events) held := by
  induction events generalizing w with
  | nil => simpa using h
  | cons event rest ih =>
      have hone := h.write_quiet_one event (hq event List.mem_cons_self)
      have hrest := ih hone fun e he => hq e (List.mem_cons_of_mem _ he)
      rwa [World.write_write] at hrest

/-- Closing the reader that is held leaves nothing held. -/
theorem write_closed {n : Nat} (h : Ledger start w (some n)) :
    Ledger start (w.write [.closed n]) none := by
  have hrange := h.held_lt n rfl
  refine h.write_one rfl (fun m => ?_) (fun m hm => absurd hm (by simp))
  have hone : closesIn [⟨w.clock, .closed n⟩] m = if n = m then 1 else 0 := by
    by_cases hnm : n = m <;> simp [closesIn, hnm]
  rw [hone, h.closes m]
  by_cases hnm : n = m
  · subst hnm
    simp [hrange]
  · simp [hnm]

end Ledger

/-! ## Bodies that are let go -/

/-- Events that close a reader, if there is one, and are quiet otherwise. -/
def ClosesJust (reader : Option Nat) (events : List Event) : Prop :=
  ∃ quiet, events = reader.toList.map .closed ++ quiet ∧ ∀ event ∈ quiet, event.isQuiet = true

/-- The reader that stays open as long as a body does. -/
def Body.openReader? (b : Body) : Option Nat := if b.isOpen then b.reader.number? else none

/-- The reader that stays open as long as the body of a response does. -/
def Response.openReader? (r : Response) : Option Nat := r.body.bind Body.openReader?

/-- The reader that stays open as long as the response of a result does. -/
def SendResult.openReader? (result : SendResult) : Option Nat :=
  (SendResult.response? result).bind Response.openReader?

/-- Closing a body closes the reader that it holds open, and no other. -/
theorem Body.closed_close (b : Body) : b.close.closed = b.openReader? := by
  unfold Body.openReader? Body.close
  split <;> rfl

theorem ClosesJust.nil : ClosesJust none [] := ⟨[], rfl, by simp⟩

theorem ClosesJust.append_quiet {reader : Option Nat} {events : List Event} {event : Event}
    (h : ClosesJust reader events) (hq : event.isQuiet = true) :
    ClosesJust reader (events ++ [event]) := by
  obtain ⟨quiet, rfl, hquiet⟩ := h
  refine ⟨quiet ++ [event], by simp, ?_⟩
  intro e he
  rcases List.mem_append.1 he with he | he
  · exact hquiet e he
  · rw [List.mem_singleton.1 he]
    exact hq

/-- Events that close a reader tell of one close of it and of no other. -/
theorem ClosesJust.closesIn_map {reader : Option Nat} {events : List Event}
    (h : ClosesJust reader events) (time n : Nat) :
    closesIn (events.map fun event => ⟨time, event⟩) n = if reader = some n then 1 else 0 := by
  obtain ⟨quiet, rfl, hq⟩ := h
  have hquiet : closesIn (quiet.map fun event => ⟨time, event⟩) n = 0 := by
    refine List.countP_eq_zero.2 fun entry hentry => ?_
    obtain ⟨event, he, rfl⟩ := List.mem_map.1 hentry
    have hevent := hq event he
    cases event <;> simp [Event.isQuiet] at hevent ⊢
  rw [List.map_append, closesIn_append, hquiet, Nat.add_zero]
  cases reader with
  | none => rfl
  | some m => by_cases hmn : m = n <;> simp [closesIn, hmn]

theorem Body.closesJust_closingEvents (complaint : String) (b : Body) :
    ClosesJust b.openReader? (b.closingEvents complaint) := by
  rw [← Body.closed_close]
  refine ⟨_, rfl, ?_⟩
  intro event he
  obtain ⟨_, -, rfl⟩ := List.mem_map.1 he
  rfl

theorem Response.closesJust_closingEvents (complaint : String) (r : Response) :
    ClosesJust r.openReader? (r.closingEvents complaint) := by
  unfold Response.openReader? Response.closingEvents
  cases r.body with
  | none => exact ClosesJust.nil
  | some b => exact b.closesJust_closingEvents complaint

theorem SendError.closesJust_closingEvents (e : SendError) :
    ClosesJust (e.response?.bind Response.openReader?) e.closingEvents := by
  unfold SendError.closingEvents
  cases e.response? with
  | none => exact ClosesJust.nil
  | some r => exact r.closesJust_closingEvents _

theorem SendResult.closesJust_droppingEvents (result : SendResult) :
    ClosesJust (SendResult.openReader? result) (SendResult.droppingEvents result) := by
  unfold SendResult.openReader? SendResult.droppingEvents
  cases SendResult.response? result with
  | none => exact ClosesJust.nil
  | some r => exact r.closesJust_closingEvents _

/-- A closed body holds no reader open. -/
@[simp] theorem Body.openReader?_close (b : Body) : b.close.body.openReader? = none := by
  rw [← Body.closed_close, Body.close_close]

@[simp] theorem Response.openReader?_closed (r : Response) : r.closed.openReader? = none := by
  unfold Response.openReader? Response.closed
  cases r.body <;> simp

@[simp] theorem SendResult.openReader?_closed (e : SendError) :
    SendResult.openReader? (.error e.closed) = none := by
  cases e <;> simp [SendResult.openReader?, SendResult.response?, SendError.response?,
    SendError.closed]

/-- The reader of a body that an answer brings is the next one. -/
theorem openReader?_brings (a : Answer) (n : Nat) :
    SendResult.openReader? (a.brings n) = if a.hasReader then some n else none := by
  cases a with
  | response status headers body =>
    cases body with
    | none => rfl
    | some b =>
      obtain ⟨kind, content⟩ := b
      cases kind <;> rfl
  | timeout => rfl
  | connection reason => rfl
  | invalidUrl reason => rfl

namespace Ledger

variable {start w : World} {held : Option Nat}

/-- Letting go of what is held leaves nothing held. -/
theorem write_closing (h : Ledger start w held) {events : List Event}
    (hc : ClosesJust held events) : Ledger start (w.write events) none := by
  obtain ⟨quiet, rfl, hq⟩ := hc
  cases held with
  | none => exact h.write_quiet hq
  | some n =>
    have hclosed := h.write_closed.write_quiet hq
    rwa [World.write_write] at hclosed

/-! ## Exchanges -/

/-- An exchange begins with nothing held and ends with the body of its reply held. -/
theorem exchanges (h : Ledger start w none) (request : Request) :
    Ledger start (w.exchanges request)
      (SendResult.openReader? ((w.reply 0).answer.brings w.readers)) := by
  rw [openReader?_brings]
  have hsince : (w.exchanges request).since start =
      w.since start ++ [⟨w.clock, .sent w.sent request w.isCancelled⟩] :=
    World.since_write h.grows [.sent w.sent request w.isCancelled]
  have hsends : sendsIn ((w.exchanges request).since start) = sendsIn (w.since start) + 1 := by
    rw [hsince, sendsIn_append]
    rfl
  have hreply : start.reply (sendsIn (w.since start)) = w.reply 0 := (h.replies 0).symm
  have hreaders : (w.exchanges request).readers =
      w.readers + (w.reply 0).answer.hasReader.toNat := rfl
  constructor
  · exact h.grows.trans (List.prefix_append _ _)
  · intro i
    have htail : (w.exchanges request).reply i = w.reply (i + 1) := by
      show w.script.tail.getD i w.fallback = w.script.getD (i + 1) w.fallback
      cases w.script <;> simp
    rw [htail, h.replies (i + 1), hsends]
    congr 1
    omega
  · rw [hreaders, hsends, World.readersAfter_succ, hreply, h.readers]
  · intro n
    have hcloses : closesIn ((w.exchanges request).since start) n = closesIn (w.since start) n := by
      rw [hsince, closesIn_append]
      rfl
    rw [hcloses, h.closes n, hreaders]
    have hle : start.readers ≤ w.readers := by
      rw [h.readers]
      exact Nat.le_add_right _ _
    cases (w.reply 0).answer.hasReader with
    | false => simp
    | true =>
      simp only [Bool.toNat_true, if_true, ne_eq, reduceCtorEq, not_false_eq_true, and_true,
        Option.some.injEq]
      congr 1
      simp only [eq_iff_iff]
      omega
  · intro past entry hpast hsent n hn hlt
    rw [hsince, List.prefix_concat_iff] at hpast
    rcases hpast with heq | hpre
    · -- This is the request itself: all that was handed out before has been closed.
      obtain ⟨rfl, -⟩ := List.append_inj' heq rfl
      rw [← h.readers] at hlt
      rw [h.closes n, if_pos ⟨hn, hlt, by simp⟩]
    · exact h.settled past entry hpre hsent n hn hlt
  · intro n hn
    rw [hreaders]
    have hle : start.readers ≤ w.readers := by
      rw [h.readers]
      exact Nat.le_add_right _ _
    cases hr : (w.reply 0).answer.hasReader with
    | false => simp [hr] at hn
    | true =>
      simp only [hr, if_true, Option.some.injEq] at hn
      simp only [Bool.toNat_true]
      omega

end Ledger

end Courier
