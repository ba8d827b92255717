import Courier.Proofs.Exchange.Writing

set_option autoImplicit false

/-! # Waits and passages

A part of a call is a passage from one world to another: time goes by, requests go out and are
answered, and the caller may cancel. This file has what is true of every passage, and what becomes
of a wait that the caller can cancel. -/

namespace Courier

/-! ## Cancellation -/

/-- The caller has cancelled by the moment that is set for it. -/
theorem isCancelled_of_le {w : World} {c : Nat} (hc : w.cancelAt = some c) (hle : c ≤ w.clock) :
    w.isCancelled = true := by
  unfold World.isCancelled
  rw [hc]
  exact decide_eq_true hle

theorem exists_of_isCancelled {w : World} (h : w.isCancelled = true) :
    ∃ c, w.cancelAt = some c ∧ c ≤ w.clock := by
  unfold World.isCancelled at h
  cases hc : w.cancelAt with
  | none => simp [hc] at h
  | some c =>
    rw [hc] at h
    exact ⟨c, rfl, of_decide_eq_true h⟩

/-! ## Waits -/

/-- A wait that the caller can cancel: the world in which it has begun, and its span. -/
structure Wait where
  begun : World
  span : Duration

/-- The millisecond in which a wait ends by itself. -/
def Wait.finish (x : Wait) : Nat := x.begun.clock + x.begun.waitMillis x.span

/-- The world in which a wait is over. -/
def Wait.over (x : Wait) : World := (pause x.span true x.begun).2

/-- Whether a wait is cut short, or does not begin. -/
def Wait.IsCut (x : Wait) : Prop := (pause x.span true x.begun).1 = .cancelled

/-- A wait is cut short if the caller cancels before it ends, and does not begin if the caller has
    cancelled. -/
theorem Wait.isCut_iff (x : Wait) : x.IsCut ↔
    ∃ c, x.begun.cancelAt = some c ∧ (c ≤ x.begun.clock ∨ c < x.finish) := by
  unfold Wait.IsCut Wait.finish pause
  simp only [Act.bind_apply, Act.get_apply]
  cases hc : x.begun.cancelAt with
  | none => simp [World.isCancelled, hc]
  | some c =>
    by_cases hpast : c ≤ x.begun.clock
    · simp [World.isCancelled, hc, hpast]
    · by_cases hlate : c < x.begun.clock + x.begun.waitMillis x.span
      · simp [World.isCancelled, hc, hpast, hlate]
      · simp [World.isCancelled, hc, hpast, hlate]

/-- A wait that is cut short ends when the caller cancels, or where it would have begun. -/
theorem Wait.over_of_cut {x : Wait} (h : x.IsCut) : ∃ c, x.begun.cancelAt = some c ∧
    x.over = { x.begun with clock := max x.begun.clock c } := by
  unfold Wait.IsCut at h
  rcases pause_cases x.span true x.begun with hp | ⟨-, c, hc, -, hp⟩
  · rw [hp] at h
    exact absurd h (by simp)
  · exact ⟨c, hc, congrArg Prod.snd hp⟩

theorem Wait.over_of_not_cut {x : Wait} (h : ¬x.IsCut) : x.over = x.begun.wait x.span := by
  unfold Wait.IsCut at h
  rcases pause_cases x.span true x.begun with hp | ⟨-, c, hc, -, hp⟩
  · exact congrArg Prod.snd hp
  · exact absurd (congrArg Prod.fst hp) h

theorem Wait.over_clock_of_not_cut {x : Wait} (h : ¬x.IsCut) : x.over.clock = x.finish :=
  congrArg World.clock (x.over_of_not_cut h)

/-- A wait that is not cut short has begun before the moment of the cancellation, if there is one,
    and ends by then. -/
theorem Wait.finish_le_of_not_cut {x : Wait} (h : ¬x.IsCut) {c : Nat}
    (hc : x.begun.cancelAt = some c) : x.begun.clock < c ∧ x.finish ≤ c := by
  have hnot : ¬(c ≤ x.begun.clock ∨ c < x.finish) := fun hle => h (x.isCut_iff.2 ⟨c, hc, hle⟩)
  omega

/-- Who has cancelled cuts every wait short. -/
theorem Wait.isCut_of_isCancelled {x : Wait} (h : x.begun.isCancelled = true) : x.IsCut := by
  obtain ⟨c, hc, hle⟩ := exists_of_isCancelled h
  exact x.isCut_iff.2 ⟨c, hc, .inl hle⟩

/-- A wait does not move the cancellation. -/
theorem Wait.over_cancelAt (x : Wait) : x.over.cancelAt = x.begun.cancelAt := by
  by_cases h : x.IsCut
  · obtain ⟨c, -, hover⟩ := x.over_of_cut h
    rw [hover]
  · rw [x.over_of_not_cut h]
    rfl

/-! ## Passages -/

/-- Whether an event is a request that went out although the caller had cancelled. -/
def Event.isLate : Event → Bool
  | .sent _ _ isCancelled => isCancelled
  | _ => false

theorem Event.isSent_of_isLate {event : Event} (h : event.isLate = true) : event.isSent = true := by
  cases event <;> first | rfl | simp [Event.isLate] at h

section Writes

variable {w w' : World}

/-- What has been written has been written at once, and is no request. -/
theorem World.Writes.entries (h : w.Writes w') :
    ∀ entry ∈ w'.since w, entry.time = w.clock ∧ entry.event.isSent = false := by
  obtain ⟨events, rfl, hquiet⟩ := h
  intro entry hentry
  rw [World.since_write (List.prefix_refl w.journal), World.since_self, List.nil_append] at hentry
  obtain ⟨event, hevent, rfl⟩ := List.mem_map.1 hentry
  exact ⟨rfl, hquiet event hevent⟩

theorem World.Writes.sends (h : w.Writes w') : sendsIn (w'.since w) = 0 :=
  List.countP_eq_zero.2 fun entry hentry => by simp [(h.entries entry hentry).2]

/-- Writing does not cancel. -/
theorem World.Writes.isCancelled (h : w.Writes w') : w'.isCancelled = w.isCancelled := by
  obtain ⟨events, rfl, -⟩ := h
  rfl

end Writes

/-- What is true of the part of a call between any two moments. -/
structure Passage (w w' : World) : Prop where
  grows : w.journal <+: w'.journal
  clock : w.clock ≤ w'.clock
  /-- Every request has used up one reply. -/
  replies : ∀ i, w'.reply i = w.reply (sendsIn (w'.since w) + i)
  /-- The caller cancels once, -/
  kept : ∀ c, w.cancelAt = some c → w'.cancelAt = some c
  /-- and not for a moment that has passed. -/
  later : ∀ c, w'.cancelAt = some c → w.cancelAt = some c ∨ w.clock ≤ c
  times : ∀ entry ∈ w'.since w, w.clock ≤ entry.time ∧ entry.time ≤ w'.clock
  /-- Requests are known to be late. -/
  flags : ∀ entry ∈ w'.since w, entry.event.isSent = true → ∀ c, w'.cancelAt = some c →
    c < entry.time → entry.event.isLate = true

namespace Passage

variable {w v w' : World}

theorem refl (w : World) : Passage w w where
  grows := List.prefix_refl _
  clock := Nat.le_refl _
  replies i := by simp
  kept _ h := h
  later _ h := .inl h
  times := by simp
  flags := by simp

theorem trans (h : Passage w v) (h' : Passage v w') : Passage w w' where
  grows := h.grows.trans h'.grows
  clock := Nat.le_trans h.clock h'.clock
  replies i := by
    rw [h'.replies, h.replies, World.since_append h.grows h'.grows, sendsIn_append, Nat.add_assoc]
  kept c hc := h'.kept c (h.kept c hc)
  later c hc := by
    rcases h'.later c hc with hc | hle
    · exact h.later c hc
    · exact .inr (Nat.le_trans h.clock hle)
  times entry hentry := by
    rw [World.since_append h.grows h'.grows, List.mem_append] at hentry
    rcases hentry with hfirst | hrest
    · exact ⟨(h.times entry hfirst).1, Nat.le_trans (h.times entry hfirst).2 h'.clock⟩
    · exact ⟨Nat.le_trans h.clock (h'.times entry hrest).1, (h'.times entry hrest).2⟩
  flags entry hentry hsent c hc hlt := by
    rw [World.since_append h.grows h'.grows, List.mem_append] at hentry
    rcases hentry with hfirst | hrest
    · -- A cancellation that the later part has brought about cannot lie before the first one.
      rcases h'.later c hc with hv | hle
      · exact h.flags entry hfirst hsent c hv hlt
      · have hbefore := (h.times entry hfirst).2
        omega
    · exact h'.flags entry hrest hsent c hc hlt

/-- Who has cancelled stays so. -/
theorem isCancelled (h : Passage w w') (hw : w.isCancelled = true) : w'.isCancelled = true := by
  obtain ⟨c, hc, hle⟩ := exists_of_isCancelled hw
  exact isCancelled_of_le (h.kept c hc) (Nat.le_trans hle h.clock)

/-- Writing into the journal. -/
theorem of_writes (h : w.Writes w') : Passage w w' := by
  have hentries := h.entries
  have hsends := h.sends
  obtain ⟨events, rfl, -⟩ := h
  constructor
  · exact List.prefix_append _ _
  · exact Nat.le_refl _
  · intro i
    rw [hsends, Nat.zero_add]
    rfl
  · exact fun _ h => h
  · exact fun _ h => .inl h
  · intro entry hentry
    rw [(hentries entry hentry).1]
    exact ⟨Nat.le_refl _, Nat.le_refl _⟩
  · intro entry hentry hsent
    rw [(hentries entry hentry).2] at hsent
    exact absurd hsent (by simp)

/-- The clock going on. -/
theorem of_clock {time : Nat} (h : w.clock ≤ time) : Passage w { w with clock := time } where
  grows := List.prefix_refl _
  clock := h
  replies i := by simp [World.since, World.reply]
  kept _ h := h
  later _ h := .inl h
  times := by simp [World.since]
  flags := by simp [World.since]

end Passage

/-- A wait. -/
theorem Wait.passage (x : Wait) : Passage x.begun x.over := by
  by_cases h : x.IsCut
  · obtain ⟨c, -, hover⟩ := x.over_of_cut h
    rw [hover]
    exact .of_clock (Nat.le_max_left _ _)
  · rw [x.over_of_not_cut h]
    exact .of_clock (Nat.le_add_right _ _)

/-- What is new after an exchange. -/
theorem World.since_exchanges (w : World) (request : Request) :
    (w.exchanges request).since w = [⟨w.clock, .sent w.sent request w.isCancelled⟩] := by
  have h : (w.exchanges request).since w = w.since w ++ _ :=
    World.since_write (List.prefix_refl w.journal) [.sent w.sent request w.isCancelled]
  rwa [World.since_self] at h

/-- An exchange; the caller may cancel while the service has the request. -/
theorem passage_exchanges (w : World) (request : Request) : Passage w (w.exchanges request) := by
  have hsince := w.since_exchanges request
  have hcancel : (w.exchanges request).cancelAt =
    if w.cancelDuring = some w.sent ∧ w.cancelAt = none then some w.clock else w.cancelAt := rfl
  have hlater : ∀ c, (w.exchanges request).cancelAt = some c →
      w.cancelAt = some c ∨ w.clock ≤ c := by
    intro c hc
    rw [hcancel] at hc
    split at hc
    · exact .inr (Nat.le_of_eq (Option.some.inj hc))
    · exact .inl hc
  constructor
  · exact List.prefix_append _ _
  · exact Nat.le_add_right _ _
  · intro i
    rw [hsince, show sendsIn [⟨w.clock, .sent w.sent request w.isCancelled⟩] = 1 from rfl,
      Nat.add_comm]
    show w.script.tail.getD i w.fallback = w.script.getD (i + 1) w.fallback
    cases w.script <;> simp
  · intro c hc
    rw [hcancel, if_neg (by simp [hc]), hc]
  · exact hlater
  · intro entry hentry
    rw [hsince, List.mem_singleton] at hentry
    rw [hentry]
    exact ⟨Nat.le_refl _, Nat.le_add_right _ _⟩
  · intro entry hentry _ c hc hlt
    rw [hsince, List.mem_singleton] at hentry
    subst hentry
    replace hlt : c < w.clock := hlt
    have hset : w.cancelAt = some c := (hlater c hc).resolve_right (Nat.not_le.2 hlt)
    exact isCancelled_of_le hset (Nat.le_of_lt hlt)

end Courier
