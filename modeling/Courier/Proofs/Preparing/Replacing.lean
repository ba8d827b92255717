import Courier.Prepare
import Mathlib.Data.List.Infix

set_option autoImplicit false

/-! # Replacing a piece of text

Occurrences of a piece are replaced from left to right, and what has been put in place of one is not
looked at again. So a text can be taken apart: what comes before a place is left as it is if the
piece begins nowhere in it, not even with its first characters at the end, for then no occurrence
reaches over that place. -/

namespace Courier

/-! ## Occurrences at the front -/

theorem dropPrefix?_eq_some_iff {p s t : List Char} : dropPrefix? p s = some t ↔ s = p ++ t := by
  induction p generalizing s with
  | nil => simp [dropPrefix?]
  | cons a p ih =>
    cases s with
    | nil => simp [dropPrefix?]
    | cons b s =>
      by_cases h : a = b
      · subst h
        simp [dropPrefix?, ih]
      · simp [dropPrefix?, h, Ne.symm h]

theorem isSome_dropPrefix?_iff {p s : List Char} : (dropPrefix? p s).isSome = true ↔ p <+: s := by
  rw [Option.isSome_iff_exists]
  constructor
  · rintro ⟨t, h⟩
    exact ⟨t, (dropPrefix?_eq_some_iff.1 h).symm⟩
  · rintro ⟨t, h⟩
    exact ⟨t, dropPrefix?_eq_some_iff.2 h.symm⟩

/-! ## Replacing -/

section Replacing

variable {old new s t : List Char} {c : Char}

/-- The characters that are passed over do not matter. -/
theorem replaceFrom_eq_drop (n : Nat) (s : List Char) :
    replaceFrom old new n s = replaceFrom old new 0 (s.drop n) := by
  induction n generalizing s with
  | zero => rfl
  | succ n ih =>
    cases s with
    | nil => simp [replaceFrom]
    | cons c s => exact ih s

theorem replaceFrom_cons_of_not (h : ¬old <+: c :: s) :
    replaceFrom old new 0 (c :: s) = c :: replaceFrom old new 0 s := by
  rw [replaceFrom, if_neg fun hsome => h (isSome_dropPrefix?_iff.1 hsome)]

theorem replaceFrom_append_self (hold : old ≠ []) (s : List Char) :
    replaceFrom old new 0 (old ++ s) = new ++ replaceFrom old new 0 s := by
  obtain ⟨c, rest, rfl⟩ := List.exists_cons_of_ne_nil hold
  have hfront : c :: rest <+: c :: (rest ++ s) := List.prefix_append (c :: rest) s
  rw [List.cons_append, replaceFrom, if_pos (isSome_dropPrefix?_iff.2 hfront), List.length_cons,
    Nat.add_sub_cancel, replaceFrom_eq_drop, List.drop_left]

/-- Every text is empty, or begins with an occurrence, or begins with a character at which there is
none. -/
theorem replaceFrom_induction (hold : old ≠ []) {P : List Char → Prop} (nil : P [])
    (found : ∀ s, P s → P (old ++ s)) (passed : ∀ c s, ¬old <+: c :: s → P s → P (c :: s))
    (s : List Char) : P s := by
  induction hn : s.length using Nat.strongRecOn generalizing s with
  | ind n ih =>
    by_cases hfront : old <+: s
    · obtain ⟨rest, rfl⟩ := hfront
      have hshorter : rest.length < n := by
        have hpos := List.length_pos_iff.2 hold
        rw [← hn, List.length_append]
        omega
      exact found rest (ih _ hshorter rest rfl)
    · cases s with
      | nil => exact nil
      | cons c s => exact passed c s hfront (ih s.length (hn ▸ Nat.lt_succ_self s.length) s rfl)

/-- Where the piece does not occur nothing is replaced. -/
theorem replaceFrom_of_absent (h : ¬old <:+: s) : replaceFrom old new 0 s = s := by
  induction s with
  | nil => rfl
  | cons c s ih =>
    rw [List.infix_cons_iff, not_or] at h
    rw [replaceFrom_cons_of_not h.1, ih h.2]

/-- A piece that is replaced by itself leaves the text as it is. -/
theorem replaceFrom_self (hold : old ≠ []) (s : List Char) : replaceFrom old old 0 s = s := by
  induction s using replaceFrom_induction hold with
  | nil => rfl
  | found s ih => rw [replaceFrom_append_self hold, ih]
  | passed c s hpassed ih => rw [replaceFrom_cons_of_not hpassed, ih]

/-- How much longer a text gets: as often as there is an occurrence to replace. -/
theorem length_replaceFrom (hold : old ≠ []) (new s : List Char) :
    ∃ n, (replaceFrom old new 0 s).length + n * old.length = s.length + n * new.length ∧
      (n = 0 → ¬old <:+: s) := by
  induction s using replaceFrom_induction hold with
  | nil => exact ⟨0, by simp [replaceFrom], fun _ hoccurs => hold (List.infix_nil.1 hoccurs)⟩
  | found s ih =>
    obtain ⟨n, hlength, -⟩ := ih
    refine ⟨n + 1, ?_, by simp⟩
    rw [replaceFrom_append_self hold, List.length_append, List.length_append, Nat.succ_mul,
      Nat.succ_mul]
    omega
  | passed c s hpassed ih =>
    obtain ⟨n, hlength, hnone⟩ := ih
    refine ⟨n, ?_, fun hn hoccurs => (List.infix_cons_iff.1 hoccurs).elim hpassed (hnone hn)⟩
    rw [replaceFrom_cons_of_not hpassed, List.length_cons, List.length_cons]
    omega

/-- A text in which something is replaced changes, unless it is replaced by itself. -/
theorem replaceFrom_ne (hold : old ≠ []) (hne : new ≠ old) (h : old <:+: s) :
    replaceFrom old new 0 s ≠ s := by
  intro hsame
  have hsize : old.length = new.length := by
    obtain ⟨n, hlength, hnone⟩ := length_replaceFrom hold new s
    have hpos : 0 < n := Nat.pos_of_ne_zero fun hn => hnone hn h
    rw [hsame] at hlength
    exact Nat.eq_of_mul_eq_mul_left hpos (Nat.add_left_cancel hlength)
  induction s using replaceFrom_induction hold with
  | nil => exact hold (List.infix_nil.1 h)
  | found s ih =>
    rw [replaceFrom_append_self hold] at hsame
    exact hne (List.append_inj hsame hsize.symm).1
  | passed c s hpassed ih =>
    rw [replaceFrom_cons_of_not hpassed] at hsame
    exact ih ((List.infix_cons_iff.1 h).resolve_left hpassed) (List.cons.inj hsame).2

/-! ## Texts that stay clear -/

/-- Whether a piece begins nowhere in a text, not even with its first characters where the text
ends. -/
def StaysClear (old s : List Char) : Prop := ∀ t, t ≠ [] → t <:+ s → ¬t <+: old ∧ ¬old <+: t

instance (old s : List Char) : Decidable (StaysClear old s) :=
  decidable_of_iff (∀ t ∈ s.tails, t ≠ [] → ¬t <+: old ∧ ¬old <+: t)
    ⟨fun h t hne ht => h t ((List.mem_tails t s).2 ht) hne,
      fun h t ht hne => h t hne ((List.mem_tails t s).1 ht)⟩

theorem StaysClear.of_cons (h : StaysClear old (c :: s)) : StaysClear old s :=
  fun t hne ht => h t hne (ht.trans (List.suffix_cons c s))

theorem StaysClear.cons (h : StaysClear old s) (hover : ¬c :: s <+: old)
    (hwithin : ¬old <+: c :: s) : StaysClear old (c :: s) := by
  intro t hne ht
  rcases List.suffix_cons_iff.1 ht with rfl | ht
  · exact ⟨hover, hwithin⟩
  · exact h t hne ht

theorem StaysClear.not_front (h : StaysClear old s) (hne : s ≠ []) (t : List Char) :
    ¬old <+: s ++ t := by
  intro hfront
  obtain ⟨hover, hwithin⟩ := h s hne (List.suffix_refl s)
  rcases List.prefix_or_prefix_of_prefix hfront (List.prefix_append s t) with hp | hp
  · exact hwithin hp
  · exact hover hp

/-- A text from which the first character of a piece is missing stays clear of it. -/
theorem staysClear_of_not_mem (h : c ∉ s) (old : List Char) : StaysClear (c :: old) s := by
  intro t hne ht
  obtain ⟨d, rest, rfl⟩ := List.exists_cons_of_ne_nil hne
  have hd : d ≠ c := fun hsame => h (hsame ▸ ht.subset List.mem_cons_self)
  rw [List.cons_prefix_cons, List.cons_prefix_cons]
  exact ⟨fun hfront => hd hfront.1, fun hfront => hd hfront.1.symm⟩

/-- What stays clear of a piece is left as it is, whatever comes after it. -/
theorem replaceFrom_append_of_staysClear (h : StaysClear old s) (t : List Char) :
    replaceFrom old new 0 (s ++ t) = s ++ replaceFrom old new 0 t := by
  induction s with
  | nil => rfl
  | cons c s ih =>
    have hpassed : ¬old <+: c :: (s ++ t) := h.not_front (List.cons_ne_nil c s) t
    rw [List.cons_append, replaceFrom_cons_of_not hpassed, ih h.of_cons, List.cons_append]

theorem StaysClear.absent_append (h : StaysClear old s) (ht : ¬old <:+: t) :
    ¬old <:+: s ++ t := by
  induction s with
  | nil => exact ht
  | cons c s ih =>
    rw [List.cons_append, List.infix_cons_iff, not_or]
    exact ⟨h.not_front (List.cons_ne_nil c s) t, ih h.of_cons⟩

end Replacing

end Courier
