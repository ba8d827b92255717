import Courier.Exchange.World

set_option autoImplicit false

/-! # Loops of turns

A loop is known by its turns. Three ways to reason about `Run.iterate` are given: an invariant that
each turn keeps, the states that the turns reach one after another, and a second loop that goes
along turn by turn. The last two also speak about a loop that never ends. -/

namespace Courier

variable {σ α : Type}

/-! ## Single turns -/

theorem Run.iterate_next {turn : σ → Run (σ ⊕ α)} {s s' : σ} {w w' : World}
    (h : turn s w = some (.inl s', w')) : Run.iterate turn s w = Run.iterate turn s' w' := by
  unfold Run.iterate
  rw [World.takeTurns, h]

theorem Run.iterate_done {turn : σ → Run (σ ⊕ α)} {s : σ} {a : α} {w w' : World}
    (h : turn s w = some (.inr a, w')) : Run.iterate turn s w = some (a, w') := by
  unfold Run.iterate
  rw [World.takeTurns, h]

/-! ## Invariants -/

/-- **A loop from its end.** What every last turn brings about, and what is carried back over every
    turn before it, is brought about by the loop. -/
theorem Run.iterate_from {turn : σ → Run (σ ⊕ α)} (P : σ → World → α → World → Prop)
    (next : ∀ s w s' v a w', turn s w = some (.inl s', v) → P s' v a w' → P s w a w')
    (last : ∀ s w a w', turn s w = some (.inr a, w') → P s w a w')
    {s : σ} {a : α} {w w' : World} (run : Run.iterate turn s w = some (a, w')) : P s w a w' := by
  have key := World.takeTurns.partial_correctness turn (motive := fun w s r => P s w r.1 r.2)
  refine key ?_ w s (a, w') run
  intro loop ih w s r h
  -- The turn leaves no world, goes on from a state to which `ih` applies, or brings the result.
  cases ht : turn s w with
  | none => simp [ht] at h
  | some p =>
    obtain ⟨outcome, v⟩ := p
    cases outcome with
    | inl s' =>
      simp only [ht] at h
      exact next s w s' v r.1 r.2 ht (ih v s' r h)
    | inr b =>
      simp only [ht, Option.some.injEq] at h
      subst h
      exact last s w b v ht

/-- **A loop with an invariant.** What every turn keeps and every last turn turns into `Post` holds
    of whatever the loop comes to. -/
theorem Run.iterate_keeps {turn : σ → Run (σ ⊕ α)} (Inv : σ → World → Prop)
    (Post : α → World → Prop)
    (next : ∀ s w s' w', Inv s w → turn s w = some (.inl s', w') → Inv s' w')
    (last : ∀ s w a w', Inv s w → turn s w = some (.inr a, w') → Post a w')
    {s : σ} {a : α} {w w' : World} (start : Inv s w)
    (run : Run.iterate turn s w = some (a, w')) : Post a w' := by
  refine Run.iterate_from (fun s w a w' => Inv s w → Post a w') ?_ ?_ run start
  · intro s w s' v a w' hturn hrest hinv
    exact hrest (next s w s' v hinv hturn)
  · intro s w a w' hturn hinv
    exact last s w a w' hinv hturn

/-- **A loop with a measure.** A loop in which every turn that goes on uses up some of what is left
    comes to something. -/
theorem Run.iterate_ends {turn : σ → Run (σ ⊕ α)} (Inv : σ → World → Prop)
    (Post : α → World → Prop) (left : σ → World → Nat)
    (step : ∀ s w, Inv s w →
      (∃ s' w', turn s w = some (.inl s', w') ∧ Inv s' w' ∧ left s' w' < left s w) ∨
      ∃ a w', turn s w = some (.inr a, w') ∧ Post a w')
    {s : σ} {w : World} (start : Inv s w) :
    ∃ a w', Run.iterate turn s w = some (a, w') ∧ Post a w' := by
  generalize hn : left s w = n
  induction n using Nat.strongRecOn generalizing s w with
  | ind n ih =>
    rcases step s w start with ⟨s', w', hturn, hinv, hless⟩ | ⟨a, w', hturn, hpost⟩
    · rw [Run.iterate_next hturn]
      exact ih (left s' w') (hn ▸ hless) hinv rfl
    · exact ⟨a, w', Run.iterate_done hturn, hpost⟩

/-! ## The states that are reached -/

/-- The state and the world after a number of turns, if the loop goes on that long. -/
def Run.reach (turn : σ → Run (σ ⊕ α)) (s : σ) (w : World) : Nat → Option (σ × World)
  | 0 => some (s, w)
  | k + 1 =>
    match Run.reach turn s w k with
    | none => none
    | some (s', v) =>
      match turn s' v with
      | some (.inl s'', v') => some (s'', v')
      | _ => none

/-- One more turn has been taken exactly if the one before it ends in a state to go on from. -/
theorem Run.reach_succ_eq_some {turn : σ → Run (σ ⊕ α)} {s s' : σ} {w w' : World} {k : Nat} :
    Run.reach turn s w (k + 1) = some (s', w') ↔
      ∃ t v, Run.reach turn s w k = some (t, v) ∧ turn t v = some (.inl s', w') := by
  rw [Run.reach]
  cases hk : Run.reach turn s w k with
  | none => simp
  | some p =>
    obtain ⟨t, v⟩ := p
    simp only [Option.some.injEq, Prod.mk.injEq]
    constructor
    · intro h
      split at h
      · rename_i s'' v' ht
        obtain ⟨rfl, rfl⟩ := Prod.mk.inj (Option.some.inj h)
        exact ⟨t, v, ⟨rfl, rfl⟩, ht⟩
      · exact absurd h (by simp)
    · rintro ⟨_, _, ⟨rfl, rfl⟩, ht⟩
      simp [ht]

/-- Turns can be counted from the second one on. -/
theorem Run.reach_succ_of_next {turn : σ → Run (σ ⊕ α)} {s s' : σ} {w w' : World}
    (h : turn s w = some (.inl s', w')) (k : Nat) :
    Run.reach turn s w (k + 1) = Run.reach turn s' w' k := by
  induction k with
  | zero => simp [Run.reach, h]
  | succ k ih => rw [Run.reach, ih, Run.reach]

/-- What is reached later has been reached through what was reached before. -/
theorem Run.reach_of_le {turn : σ → Run (σ ⊕ α)} {s t : σ} {w v : World} {i k : Nat}
    (hik : i ≤ k) (h : Run.reach turn s w k = some (t, v)) :
    ∃ t' v', Run.reach turn s w i = some (t', v') := by
  induction k generalizing t v with
  | zero =>
    obtain rfl : i = 0 := by omega
    exact ⟨t, v, h⟩
  | succ k ih =>
    rcases Nat.lt_or_ge k i with hlt | hge
    · obtain rfl : i = k + 1 := by omega
      exact ⟨t, v, h⟩
    · obtain ⟨t', v', hk, -⟩ := Run.reach_succ_eq_some.1 h
      exact ih hge hk

/-- What every turn keeps holds of every state that is reached. -/
theorem Run.reach_keeps {turn : σ → Run (σ ⊕ α)} (Inv : Nat → σ → World → Prop)
    (next : ∀ k s w s' w', Inv k s w → turn s w = some (.inl s', w') → Inv (k + 1) s' w')
    {s t : σ} {w v : World} {k : Nat} (start : Inv 0 s w)
    (h : Run.reach turn s w k = some (t, v)) : Inv k t v := by
  induction k generalizing t v with
  | zero =>
    obtain ⟨rfl, rfl⟩ := Prod.mk.inj (Option.some.inj h)
    exact start
  | succ k ih =>
    obtain ⟨t', v', hk, ht⟩ := Run.reach_succ_eq_some.1 h
    exact next k t' v' t v (ih hk) ht

/-- A loop ends after some turns, with what the turn after those brings. -/
theorem Run.iterate_eq_some_iff {turn : σ → Run (σ ⊕ α)} {s : σ} {a : α} {w w' : World} :
    Run.iterate turn s w = some (a, w') ↔
      ∃ k t v, Run.reach turn s w k = some (t, v) ∧ turn t v = some (.inr a, w') := by
  constructor
  · intro run
    refine Run.iterate_from (fun s w a w' =>
      ∃ k t v, Run.reach turn s w k = some (t, v) ∧ turn t v = some (.inr a, w')) ?_ ?_ run
    · intro s w s' v a w' hturn hrest
      obtain ⟨k, t, u, hreach, hlast⟩ := hrest
      exact ⟨k + 1, t, u, by rw [Run.reach_succ_of_next hturn, hreach], hlast⟩
    · intro s w a w' hturn
      exact ⟨0, s, w, rfl, hturn⟩
  · rintro ⟨k, t, v, hreach, hlast⟩
    induction k generalizing s w with
    | zero =>
      obtain ⟨rfl, rfl⟩ := Prod.mk.inj (Option.some.inj hreach)
      exact Run.iterate_done hlast
    | succ k ih =>
      -- The first turn must go on, since later ones are reached.
      obtain ⟨s', w', hone⟩ := Run.reach_of_le (Nat.succ_le_succ (Nat.zero_le k)) hreach
      obtain ⟨_, _, hzero, hturn⟩ := Run.reach_succ_eq_some.1 hone
      obtain ⟨rfl, rfl⟩ := Prod.mk.inj (Option.some.inj hzero)
      rw [Run.iterate_next hturn]
      exact ih (by rw [← Run.reach_succ_of_next hturn, hreach])

/-! ## Two loops -/

/-- What is related before a continuation and is related by it is related after it. -/
theorem rel_bind {α β γ δ : Type} {R : α → β → Prop} {S : γ → δ → Prop} {a : Option α}
    {b : Option β} {f : α → Option γ} {g : β → Option δ} (h : Option.Rel R a b)
    (hrest : ∀ p q, R p q → Option.Rel S (f p) (g q)) : Option.Rel S (a.bind f) (b.bind g) := by
  cases h with
  | none => exact .none
  | some h => exact hrest _ _ h

section TwoLoops

variable {τ β : Type} {turn : σ → Run (σ ⊕ α)} {turn' : τ → Run (τ ⊕ β)}
  {G : σ × World → τ × World → Prop} {E : α × World → β × World → Prop}

/-- Whether turns of two loops correspond: both go on, or both bring their results. -/
inductive Run.TurnRel (G : σ × World → τ × World → Prop) (E : α × World → β × World → Prop) :
    (σ ⊕ α) × World → (τ ⊕ β) × World → Prop
  | goes {s : σ} {t : τ} {w w' : World} (h : G (s, w) (t, w')) :
      Run.TurnRel G E (.inl s, w) (.inl t, w')
  | ends {a : α} {b : β} {w w' : World} (h : E (a, w) (b, w')) :
      Run.TurnRel G E (.inr a, w) (.inr b, w')

theorem Run.TurnRel.swap {p : (σ ⊕ α) × World} {q : (τ ⊕ β) × World}
    (h : Run.TurnRel G E p q) :
    Run.TurnRel (fun q p => G p q) (fun q p => E p q) q p := by
  cases h with
  | goes h => exact .goes h
  | ends h => exact .ends h

/-- A loop that comes to something is followed by another one that does so in each turn. -/
theorem Run.iterate_follows
    (h : ∀ s w t w' p, G (s, w) (t, w') → turn s w = some p →
      ∃ q, turn' t w' = some q ∧ Run.TurnRel G E p q)
    {s : σ} {t : τ} {w w' : World} {p : α × World} (hstart : G (s, w) (t, w'))
    (run : Run.iterate turn s w = some p) :
    ∃ q, Run.iterate turn' t w' = some q ∧ E p q := by
  obtain ⟨a, v⟩ := p
  refine Run.iterate_from (fun s w a v => ∀ t w', G (s, w) (t, w') →
    ∃ q, Run.iterate turn' t w' = some q ∧ E (a, v) q) ?_ ?_ run t w' hstart
  · intro s w s' u a v hturn ih t w' hstart
    obtain ⟨q, hturn', hsame⟩ := h s w t w' _ hstart hturn
    cases hsame with
    | goes hu =>
      rw [Run.iterate_next hturn']
      exact ih _ _ hu
  · intro s w a v hturn t w' hstart
    obtain ⟨q, hturn', hsame⟩ := h s w t w' _ hstart hturn
    cases hsame with
    | ends hend => exact ⟨_, Run.iterate_done hturn', hend⟩

/-- **Two loops.** Loops whose turns correspond come to what corresponds, or both to nothing. -/
theorem Run.iterate_turnRel
    (h : ∀ s w t w', G (s, w) (t, w') →
      Option.Rel (Run.TurnRel G E) (turn s w) (turn' t w'))
    {s : σ} {t : τ} {w w' : World} (hstart : G (s, w) (t, w')) :
    Option.Rel E (Run.iterate turn s w) (Run.iterate turn' t w') := by
  have hforth : ∀ s w t w' p, G (s, w) (t, w') → turn s w = some p →
      ∃ q, turn' t w' = some q ∧ Run.TurnRel G E p q := by
    intro s w t w' p hgoes hturn
    have hturns := h s w t w' hgoes
    rw [hturn] at hturns
    generalize turn' t w' = outcome at hturns ⊢
    cases hturns with
    | some hsame => exact ⟨_, rfl, hsame⟩
  have hback : ∀ t w' s w q, G (s, w) (t, w') → turn' t w' = some q →
      ∃ p, turn s w = some p ∧
        Run.TurnRel (fun q p => G p q) (fun q p => E p q) q p := by
    intro t w' s w q hgoes hturn'
    have hturns := h s w t w' hgoes
    rw [hturn'] at hturns
    generalize turn s w = outcome at hturns ⊢
    cases hturns with
    | some hsame => exact ⟨_, rfl, hsame.swap⟩
  cases hrun : Run.iterate turn s w with
  | some p =>
    obtain ⟨q, hrun', hend⟩ := Run.iterate_follows hforth hstart hrun
    rw [hrun']
    exact .some hend
  | none =>
    cases hrun' : Run.iterate turn' t w' with
    | none => exact .none
    | some q =>
      obtain ⟨p, hp, -⟩ := Run.iterate_follows (G := fun q p => G p q) hback hstart hrun'
      exact absurd (hrun.symm.trans hp) (by simp)

end TwoLoops

section SameLoops

variable {turn turn' : σ → Run (σ ⊕ α)} {Goes : World → World → Prop}
  {Ends : α × World → α × World → Prop}

/-- Whether turns of two loops come to the same: both go on from one state, or both bring their
    results. -/
inductive Run.SameTurn (Goes : World → World → Prop) (Ends : α × World → α × World → Prop) :
    (σ ⊕ α) × World → (σ ⊕ α) × World → Prop
  | goes {s : σ} {w w' : World} (h : Goes w w') : Run.SameTurn Goes Ends (.inl s, w) (.inl s, w')
  | ends {a a' : α} {w w' : World} (h : Ends (a, w) (a', w')) :
      Run.SameTurn Goes Ends (.inr a, w) (.inr a', w')

/-- Loops whose turns come to the same come to the same, or both to nothing. -/
theorem Run.iterate_rel
    (h : ∀ s w w', Goes w w' → Option.Rel (Run.SameTurn Goes Ends) (turn s w) (turn' s w'))
    {s : σ} {w w' : World} (hw : Goes w w') :
    Option.Rel Ends (Run.iterate turn s w) (Run.iterate turn' s w') := by
  refine Run.iterate_turnRel (G := fun p q => p.1 = q.1 ∧ Goes p.2 q.2) ?_ ⟨rfl, hw⟩
  rintro s w _ w' ⟨rfl, hgoes⟩
  have hturns := h s w w' hgoes
  generalize turn s w = outcome at hturns ⊢
  generalize turn' s w' = outcome' at hturns ⊢
  cases hturns with
  | none => exact .none
  | some hsame =>
    cases hsame with
    | goes hv => exact .some (.goes ⟨rfl, hv⟩)
    | ends hend => exact .some (.ends hend)

end SameLoops

end Courier
