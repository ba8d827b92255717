import Courier.Proofs.Cancellation.Passage

set_option autoImplicit false

/-! # How a call conducts itself when it is cancelled

What a part of a call does after the caller has cancelled: it lets no request out but the first one,
and it comes back as soon as no request is in flight. This is kept when one part follows another,
provided that the later one begins with a wait that the caller can cancel. -/

namespace Courier

/-! ## Conduct -/

/-- Whether the caller cancels in the very millisecond in which a wait ends by itself. -/
def Coincides (waits : Wait → Prop) (w : World) : Prop :=
  ∃ x, waits x ∧ ¬x.IsCut ∧ w.cancelAt = some x.finish

/-- Whether a request went out in a passage, after some entries and before the rest of them. -/
structure SentBetween (w w' : World) (past : List Entry) (entry : Entry) (rest : List Entry) :
    Prop where
  since : w'.since w = past ++ entry :: rest
  sent : entry.event.isSent = true

/-- The millisecond in which the reply to a request is there that went out after some entries. -/
def answeredAt (w : World) (past : List Entry) (entry : Entry) : Nat :=
  entry.time + (w.reply (sendsIn past)).latencyMillis

/-- Whether a request was in flight at some moment. -/
def InFlight (w w' : World) (time : Nat) : Prop :=
  ∃ past entry rest, SentBetween w w' past entry rest ∧ entry.time ≤ time ∧
    time < answeredAt w past entry

/-- Whether a passage ends with the reply to its last request, which went out by some moment. -/
def EndsAnswered (w w' : World) (time : Nat) : Prop :=
  ∃ past entry rest, SentBetween w w' past entry rest ∧ sendsIn rest = 0 ∧ entry.time ≤ time ∧
    w'.clock = answeredAt w past entry

/-- How a part of a call conducts itself that has made some waits and then come back, cancelled or
    not. -/
structure Conduct (waits : Wait → Prop) (w w' : World) (cancelled : Prop) : Prop
    extends Passage w w' where
  /-- Only the first request may go out late, and only if the caller had cancelled before. -/
  requests : ∀ past entry, past ++ [entry] <+: w'.since w → entry.event.isLate = true →
    sendsIn past = 0 ∧ w.isCancelled = true ∨ Coincides waits w'
  returns : ∀ c, w'.cancelAt = some c → max w.clock c < w'.clock →
    EndsAnswered w w' (max w.clock c)
  within : ∀ x, waits x → Passage w x.begun ∧ Passage x.over w'
  /-- At every moment there is a wait or a request in flight. -/
  busy : ∀ time, w.clock ≤ time → time < w'.clock →
    (∃ x, waits x ∧ x.begun.clock ≤ time ∧ time < x.over.clock) ∨ InFlight w w' time
  interrupted : cancelled ↔ ∃ x, waits x ∧ x.IsCut

/-- A part that begins with a wait, or does nothing that takes time, sends nothing if the caller has
    cancelled before. -/
structure Guarded (waits : Wait → Prop) (w w' : World) (cancelled : Prop) : Prop
    extends Conduct waits w w' cancelled where
  stops : w.isCancelled = true → sendsIn (w'.since w) = 0 ∧ w'.clock = w.clock

/-! ## One part after another -/

/-- A beginning of two lists ends in the first one or in the second one. -/
theorem prefix_append_cases {α : Type} {past first rest : List α} {a : α}
    (h : past ++ [a] <+: first ++ rest) :
    past ++ [a] <+: first ∨ ∃ later, past = first ++ later ∧ later ++ [a] <+: rest := by
  rcases Nat.lt_or_ge past.length first.length with hlt | hge
  · refine .inl (List.prefix_of_prefix_length_le h (List.prefix_append _ _) ?_)
    rw [List.length_append, List.length_singleton]
    exact hlt
  · have hfirst : first <+: past :=
      List.prefix_of_prefix_length_le (List.prefix_append _ _)
        ((List.prefix_append _ _).trans h) hge
    obtain ⟨later, rfl⟩ := hfirst
    rw [List.append_assoc] at h
    exact .inr ⟨later, rfl, (List.prefix_append_right_inj first).1 h⟩

section SentBetween

variable {w v w' : World} {past rest : List Entry} {entry : Entry} {time : Nat}

theorem SentBetween.of_rest (h : Passage w v) (h' : Passage v w')
    (hs : SentBetween v w' past entry rest) :
    SentBetween w w' (v.since w ++ past) entry rest ∧
      answeredAt w (v.since w ++ past) entry = answeredAt v past entry := by
  refine ⟨⟨?_, hs.sent⟩, ?_⟩
  · rw [World.since_append h.grows h'.grows, hs.since, List.append_assoc]
  · unfold answeredAt
    rw [h.replies, sendsIn_append]

theorem SentBetween.of_first (h : Passage w v) (h' : Passage v w')
    (hs : SentBetween w v past entry rest) :
    SentBetween w w' past entry (rest ++ w'.since v) := by
  refine ⟨?_, hs.sent⟩
  rw [World.since_append h.grows h'.grows, hs.since, List.append_assoc]
  rfl

theorem InFlight.of_rest (h : Passage w v) (h' : Passage v w') (hf : InFlight v w' time) :
    InFlight w w' time := by
  obtain ⟨past, entry, rest, hs, hbegun, hends⟩ := hf
  obtain ⟨hsent, hanswered⟩ := hs.of_rest h h'
  exact ⟨_, entry, rest, hsent, hbegun, hanswered ▸ hends⟩

theorem InFlight.of_first (h : Passage w v) (h' : Passage v w') (hf : InFlight w v time) :
    InFlight w w' time := by
  obtain ⟨past, entry, rest, hs, hbegun, hends⟩ := hf
  exact ⟨past, entry, _, hs.of_first h h', hbegun, hends⟩

theorem EndsAnswered.of_rest (h : Passage w v) (h' : Passage v w')
    (hf : EndsAnswered v w' time) : EndsAnswered w w' time := by
  obtain ⟨past, entry, rest, hs, hlast, hbegun, hends⟩ := hf
  obtain ⟨hsent, hanswered⟩ := hs.of_rest h h'
  exact ⟨_, entry, rest, hsent, hlast, hbegun, hends.trans hanswered.symm⟩

theorem EndsAnswered.of_first (h : Passage w v) (h' : Passage v w') (hf : EndsAnswered w v time)
    (hsends : sendsIn (w'.since v) = 0) (hclock : w'.clock = v.clock) : EndsAnswered w w' time := by
  obtain ⟨past, entry, rest, hs, hlast, hbegun, hends⟩ := hf
  refine ⟨past, entry, _, hs.of_first h h', ?_, hbegun, hclock.trans hends⟩
  rw [sendsIn_append, hlast, hsends]

end SentBetween

theorem Coincides.mono {waits waits' : Wait → Prop} {w w' : World} (h : Passage w w')
    (hwaits : ∀ x, waits x → waits' x) (hc : Coincides waits w) : Coincides waits' w' := by
  obtain ⟨x, hx, hcut, hcancel⟩ := hc
  exact ⟨x, hwaits x hx, hcut, h.kept _ hcancel⟩

namespace Conduct

variable {waits waits' : Wait → Prop} {w v w' : World} {cancelled cancelled' : Prop}

/-- A part of a call is told by its waits and by whether it was cancelled. -/
theorem congr (h : Conduct waits w w' cancelled) (hwaits : ∀ x, waits' x ↔ waits x)
    (hcancelled : cancelled' ↔ cancelled) : Conduct waits' w w' cancelled' := by
  obtain rfl : waits' = waits := funext fun x => propext (hwaits x)
  obtain rfl : cancelled' = cancelled := propext hcancelled
  exact h

/-- One part after another one, if the later one begins with a wait. -/
theorem followed (h : Conduct waits w v cancelled) (h' : Guarded waits' v w' cancelled') :
    Conduct (fun x => waits x ∨ waits' x) w w' (cancelled ∨ cancelled') where
  toPassage := h.toPassage.trans h'.toPassage
  requests past entry hpast hlate := by
    rw [World.since_append h.grows h'.grows] at hpast
    rcases prefix_append_cases hpast with hfirst | ⟨past', rfl, hrest⟩
    · rcases h.requests past entry hfirst hlate with hbegin | hcoincides
      · exact .inl hbegin
      · exact .inr (hcoincides.mono h'.toPassage fun x hx => .inl hx)
    · rcases h'.requests past' entry hrest hlate with ⟨-, hcancelled⟩ | hcoincides
      · -- The later part sends nothing if it begins late.
        have hsent : sendsIn [entry] = 1 := by
          simp [sendsIn, Event.isSent_of_isLate hlate]
        have hle : sendsIn (past' ++ [entry]) ≤ sendsIn (w'.since v) := hrest.sublist.countP_le
        rw [(h'.stops hcancelled).1, sendsIn_append, hsent] at hle
        omega
      · exact .inr (hcoincides.mono (.refl w') fun x hx => .inr hx)
  returns c hc hlt := by
    rcases Nat.lt_or_ge c v.clock with hbefore | hafter
    · -- The caller has cancelled before the later part begins, so that does nothing.
      have hv : v.cancelAt = some c := (h'.later c hc).resolve_right (Nat.not_le.2 hbefore)
      obtain ⟨hsends, hclock⟩ := h'.stops (isCancelled_of_le hv (Nat.le_of_lt hbefore))
      rw [hclock] at hlt
      exact (h.returns c hv hlt).of_first h.toPassage h'.toPassage hsends hclock
    · have hw : max w.clock c = c := Nat.max_eq_right (Nat.le_trans h.clock hafter)
      have hv : max v.clock c = c := Nat.max_eq_right hafter
      rw [hw] at hlt ⊢
      have hflight := h'.returns c hc (by rwa [hv])
      rw [hv] at hflight
      exact hflight.of_rest h.toPassage h'.toPassage
  within x hx := by
    rcases hx with hx | hx
    · exact ⟨(h.within x hx).1, (h.within x hx).2.trans h'.toPassage⟩
    · exact ⟨h.toPassage.trans (h'.within x hx).1, (h'.within x hx).2⟩
  busy time hbegun hends := by
    rcases Nat.lt_or_ge time v.clock with hfirst | hrest
    · rcases h.busy time hbegun hfirst with ⟨x, hx, htime⟩ | hflight
      · exact .inl ⟨x, .inl hx, htime⟩
      · exact .inr (hflight.of_first h.toPassage h'.toPassage)
    · rcases h'.busy time hrest hends with ⟨x, hx, htime⟩ | hflight
      · exact .inl ⟨x, .inr hx, htime⟩
      · exact .inr (hflight.of_rest h.toPassage h'.toPassage)
  interrupted := by
    rw [h.interrupted, h'.interrupted]
    constructor
    · rintro (⟨x, hx, hcut⟩ | ⟨x, hx, hcut⟩)
      · exact ⟨x, .inl hx, hcut⟩
      · exact ⟨x, .inr hx, hcut⟩
    · rintro ⟨x, hx | hx, hcut⟩
      · exact .inl ⟨x, hx, hcut⟩
      · exact .inr ⟨x, hx, hcut⟩

/-- Writing before the first part. -/
theorem after_writes (h : w.Writes v) (h' : Conduct waits v w' cancelled) :
    Conduct waits w w' cancelled := by
  have hpassage := Passage.of_writes h
  have hclock : v.clock = w.clock := by rw [h.eq]
  refine ⟨hpassage.trans h'.toPassage, ?_, ?_, ?_, ?_, h'.interrupted⟩
  · intro past entry hpast hlate
    rw [World.since_append hpassage.grows h'.grows] at hpast
    rcases prefix_append_cases hpast with hfirst | ⟨past', rfl, hrest⟩
    · have hquiet := (h.entries entry (hfirst.subset (by simp))).2
      rw [Event.isSent_of_isLate hlate] at hquiet
      exact absurd hquiet (by simp)
    · rw [sendsIn_append, h.sends, Nat.zero_add, ← h.isCancelled]
      exact h'.requests past' entry hrest hlate
  · intro c hc hlt
    rw [← hclock] at hlt ⊢
    exact (h'.returns c hc hlt).of_rest hpassage h'.toPassage
  · intro x hx
    exact ⟨hpassage.trans (h'.within x hx).1, (h'.within x hx).2⟩
  · intro time hbegun hends
    rw [← hclock] at hbegun
    exact (h'.busy time hbegun hends).imp_right fun hf => hf.of_rest hpassage h'.toPassage

end Conduct

namespace Guarded

variable {waits waits' : Wait → Prop} {w v w' : World} {cancelled cancelled' : Prop}

theorem congr (h : Guarded waits w w' cancelled) (hwaits : ∀ x, waits' x ↔ waits x)
    (hcancelled : cancelled' ↔ cancelled) : Guarded waits' w w' cancelled' :=
  ⟨h.toConduct.congr hwaits hcancelled, h.stops⟩

/-- A part that does nothing but write. -/
theorem of_writes (h : w.Writes w') : Guarded (fun _ => False) w w' False := by
  have hclock : w'.clock = w.clock := by rw [h.eq]
  refine ⟨⟨.of_writes h, ?_, ?_, by simp, ?_, by simp⟩, fun _ => ⟨h.sends, hclock⟩⟩
  · intro past entry hpast hlate
    have hquiet := (h.entries entry (hpast.subset (by simp))).2
    rw [Event.isSent_of_isLate hlate] at hquiet
    exact absurd hquiet (by simp)
  · intro c _ hlt
    rw [hclock] at hlt
    exact absurd hlt (Nat.not_lt.2 (Nat.le_max_left _ _))
  · intro time hbegun hends
    omega

/-- Writing before the first part. -/
theorem after_writes (h : w.Writes v) (h' : Guarded waits v w' cancelled) :
    Guarded waits w w' cancelled := by
  refine ⟨h'.toConduct.after_writes h, fun hcancelled => ?_⟩
  have hclock : v.clock = w.clock := by rw [h.eq]
  rw [← h.isCancelled] at hcancelled
  obtain ⟨hsends, hstays⟩ := h'.stops hcancelled
  rw [World.since_append (Passage.of_writes h).grows h'.grows, sendsIn_append, h.sends, hsends]
  exact ⟨rfl, hstays.trans hclock⟩

/-- A wait that is cut short, or does not begin. -/
theorem of_cut {x : Wait} (h : x.IsCut) : Guarded (· = x) x.begun x.over True := by
  obtain ⟨c, hc, hover⟩ := x.over_of_cut h
  have hsince : x.over.since x.begun = [] := by
    rw [hover]
    simp [World.since]
  have hcancel : x.over.cancelAt = some c := by rw [hover, hc]
  have hclock : x.over.clock = max x.begun.clock c := by rw [hover]
  refine ⟨⟨x.passage, ?_, ?_, ?_, ?_, ?_⟩, fun hcancelled => ?_⟩
  · intro past entry hpast
    rw [hsince, List.prefix_nil] at hpast
    exact absurd hpast (by simp)
  · intro c' hc' hlt
    obtain rfl : c = c' := Option.some.inj (hcancel.symm.trans hc')
    omega
  · rintro _ rfl
    exact ⟨.refl _, .refl _⟩
  · exact fun time hbegun hends => .inl ⟨x, rfl, hbegun, hends⟩
  · exact iff_of_true trivial ⟨x, rfl, h⟩
  · obtain ⟨c', hc', hle⟩ := exists_of_isCancelled hcancelled
    obtain rfl : c = c' := Option.some.inj (hc.symm.trans hc')
    rw [hsince, hclock, Nat.max_eq_left hle]
    exact ⟨rfl, rfl⟩

/-- A wait that ends by itself, and what comes after it. -/
theorem of_wait {x : Wait} (h : ¬x.IsCut) (h' : Conduct waits x.over w' cancelled) :
    Guarded (fun y => y = x ∨ waits y) x.begun w' cancelled := by
  have hover := x.over_of_not_cut h
  have hsince : w'.since x.begun = w'.since x.over := by
    rw [World.since_append x.passage.grows h'.grows, hover]
    simp [World.since, World.wait]
  have hfinish := x.over_clock_of_not_cut h
  refine ⟨⟨x.passage.trans h'.toPassage, ?_, ?_, ?_, ?_, ?_⟩, fun hcancelled => ?_⟩
  · intro past entry hpast hlate
    rw [hsince] at hpast
    rcases h'.requests past entry hpast hlate with ⟨-, hcancelled⟩ | hcoincides
    · -- A first request can be late only if the wait ends in the moment of the cancellation.
      obtain ⟨c, hc, hle⟩ := exists_of_isCancelled hcancelled
      have hfinishes := (x.finish_le_of_not_cut h (x.over_cancelAt ▸ hc)).2
      obtain rfl : c = x.finish := by omega
      exact .inr ⟨x, .inl rfl, h, h'.kept _ hc⟩
    · exact .inr (hcoincides.mono (.refl w') fun y hy => .inr hy)
  · intro c hc hlt
    -- The wait has not been cut short, so the cancellation does not fall into it.
    have hlate : x.over.clock ≤ c := by
      rcases h'.later c hc with hbefore | hle
      · rw [hfinish]
        exact (x.finish_le_of_not_cut h (x.over_cancelAt ▸ hbefore)).2
      · exact hle
    have hw : max x.begun.clock c = c := Nat.max_eq_right (Nat.le_trans x.passage.clock hlate)
    have hv : max x.over.clock c = c := Nat.max_eq_right hlate
    rw [hw] at hlt ⊢
    have hflight := h'.returns c hc (by rwa [hv])
    rw [hv] at hflight
    exact hflight.of_rest x.passage h'.toPassage
  · rintro y (rfl | hy)
    · exact ⟨.refl _, h'.toPassage⟩
    · exact ⟨x.passage.trans (h'.within y hy).1, (h'.within y hy).2⟩
  · intro time hbegun hends
    rcases Nat.lt_or_ge time x.over.clock with hwaiting | hrest
    · exact .inl ⟨x, .inl rfl, hbegun, hwaiting⟩
    · rcases h'.busy time hrest hends with ⟨y, hy, htime⟩ | hflight
      · exact .inl ⟨y, .inr hy, htime⟩
      · exact .inr (hflight.of_rest x.passage h'.toPassage)
  · rw [h'.interrupted]
    constructor
    · rintro ⟨y, hy, hcut⟩
      exact ⟨y, .inr hy, hcut⟩
    · rintro ⟨y, rfl | hy, hcut⟩
      · exact absurd hcut h
      · exact ⟨y, hy, hcut⟩
  · exact absurd (x.isCut_of_isCancelled hcancelled) h

/-- One part that begins with a wait after another. -/
theorem followed (h : Guarded waits w v cancelled) (h' : Guarded waits' v w' cancelled') :
    Guarded (fun x => waits x ∨ waits' x) w w' (cancelled ∨ cancelled') := by
  refine ⟨h.toConduct.followed h', fun hcancelled => ?_⟩
  obtain ⟨hsends, hclock⟩ := h.stops hcancelled
  obtain ⟨hsends', hclock'⟩ := h'.stops (h.isCancelled hcancelled)
  rw [World.since_append h.grows h'.grows, sendsIn_append, hsends, hsends']
  exact ⟨rfl, hclock'.trans hclock⟩

end Guarded

/-- Writing after the last part. -/
theorem Conduct.then_writes {waits : Wait → Prop} {w v w' : World} {cancelled : Prop}
    (h : Conduct waits w v cancelled) (h' : v.Writes w') : Conduct waits w w' cancelled :=
  (h.followed (.of_writes h')).congr (fun x => by simp) (by simp)

/-- An exchange is no wait and cannot be cancelled. -/
theorem conduct_exchanges (w : World) (request : Request) :
    Conduct (fun _ => False) w (w.exchanges request) False := by
  have hsince := w.since_exchanges request
  refine ⟨passage_exchanges w request, ?_, ?_, by simp, ?_, by simp⟩
  · intro past entry hpast hlate
    rw [hsince] at hpast
    have hlength := hpast.length_le
    rw [List.length_append] at hlength
    obtain rfl : past = [] := List.eq_nil_of_length_eq_zero (by simpa using hlength)
    obtain rfl := List.mem_singleton.1 (hpast.subset (List.mem_singleton_self entry))
    exact .inl ⟨rfl, hlate⟩
  · intro c _ _
    exact ⟨[], _, [], ⟨hsince, rfl⟩, rfl, Nat.le_max_left _ _, rfl⟩
  · intro time hbegun hends
    exact .inr ⟨[], _, [], ⟨hsince, rfl⟩, hbegun, hends⟩

end Courier
