import Mathlib.Data.List.DropRight
import Courier.Proofs.Json.Sound

set_option autoImplicit false

/-! # What is passed over

Every value of the grammar is passed over, whatever it holds and however deep it is nested, where
the octets after it do not go on with a number (`Json.skip_spells`). The grammar leaves open how many
digits a number takes off; passing over one takes all of them, so what follows the digits decides. -/

namespace Courier

/-! ## Numbers -/

/-- Whether an octet could go on with a number. -/
def Json.continuesNumber (b : UInt8) : Bool :=
  Json.isDigit b || b == 0x2E || b == 0x65 || b == 0x45

/-- Octets before which a number is over. -/
def Json.EndsNumber (s : Bytes) : Prop := ∀ b ∈ s.head?, Json.continuesNumber b = false

/-- Octets before which digits are over. -/
def Json.EndsDigits (s : Bytes) : Prop := ∀ b ∈ s.head?, Json.isDigit b = false

theorem Json.EndsNumber.digits {s : Bytes} (h : Json.EndsNumber s) : Json.EndsDigits s := by
  intro b hb
  have hcontinues := h b hb
  rw [Json.continuesNumber, Bool.or_eq_false_iff, Bool.or_eq_false_iff,
    Bool.or_eq_false_iff] at hcontinues
  exact hcontinues.1.1.1

theorem Json.EndsNumber.of_cons {b : UInt8} {s : Bytes} (h : Json.continuesNumber b = false) :
    Json.EndsNumber (b :: s) := by
  intro c hc
  obtain rfl := Option.some.inj hc
  exact h

/-- All of the digits are passed over. -/
theorem Json.Digits.dropWhile_eq {s t : Bytes} (h : Json.Digits s t) (hend : Json.EndsDigits t) :
    s.dropWhile Json.isDigit = t := by
  induction h with
  | one digit =>
    rw [List.dropWhile_cons_of_pos digit]
    rename_i t
    cases t with
    | nil => rfl
    | cons b t => exact List.dropWhile_cons_of_neg (by simp [hend b rfl])
  | more digit _ ih => rw [List.dropWhile_cons_of_pos digit, ih hend]

theorem Json.Digits.exists_digit {s t : Bytes} (h : Json.Digits s t) :
    ∃ b tail, s = b :: tail ∧ Json.isDigit b = true := by
  cases h with
  | one digit => exact ⟨_, _, rfl, digit⟩
  | more digit _ => exact ⟨_, _, rfl, digit⟩

theorem Json.Digits.skipDigits_eq {s t : Bytes} (h : Json.Digits s t) (hend : Json.EndsDigits t) :
    Json.skipDigits s = .ok t := by
  obtain ⟨b, tail, rfl, digit⟩ := h.exists_digit
  rw [Json.skipDigits, h.dropWhile_eq hend]
  exact if_pos digit

theorem Json.Digits.skipExponent_eq {s t : Bytes} (h : Json.Digits s t)
    (hend : Json.EndsDigits t) : Json.skipExponent s = .ok t := by
  have hskip := h.skipDigits_eq hend
  obtain ⟨b, tail, rfl, digit⟩ := h.exists_digit
  unfold Json.skipExponent
  split
  · rename_i heq
    rw [(List.cons.inj heq).1] at digit
    exact absurd digit (by decide)
  · rename_i heq
    rw [(List.cons.inj heq).1] at digit
    exact absurd digit (by decide)
  · exact hskip

/-- An exponent that is there begins with its mark. -/
theorem Json.Exponent.endsDigits {s t : Bytes} (h : Json.Exponent s t) (hend : Json.EndsNumber t) :
    Json.EndsDigits s ∧ s.head? ≠ some 0x2E := by
  have of_mark : ∀ (mark : UInt8) (s : Bytes), mark ∈ ([0x65, 0x45] : Bytes) →
      Json.EndsDigits (mark :: s) ∧ (mark :: s).head? ≠ some 0x2E := by
    intro mark s hmark
    simp only [List.mem_cons, List.not_mem_nil, or_false] at hmark
    rcases hmark with rfl | rfl
    · exact ⟨fun b hb => Option.some.inj hb ▸ by decide, by simp⟩
    · exact ⟨fun b hb => Option.some.inj hb ▸ by decide, by simp⟩
  cases h with
  | none => exact ⟨hend.digits, fun hdot => absurd (hend _ hdot) (by decide)⟩
  | plain isMark _ => exact of_mark _ _ isMark
  | signed isMark _ _ => exact of_mark _ _ isMark

theorem Json.Exponent.skip_eq {s t : Bytes} (h : Json.Exponent s t) (hend : Json.EndsNumber t) :
    Json.skipNumberEnd s = .ok t := by
  cases h with
  | none =>
    unfold Json.skipNumberEnd
    split
    · exact absurd (hend _ rfl) (by decide)
    · exact absurd (hend _ rfl) (by decide)
    · rfl
  | plain isMark digits =>
    have hskip := digits.skipExponent_eq hend.digits
    simp only [List.mem_cons, List.not_mem_nil, or_false] at isMark
    rcases isMark with rfl | rfl
    · exact hskip
    · exact hskip
  | signed isMark isSign digits =>
    have hskip := digits.skipDigits_eq hend.digits
    simp only [List.mem_cons, List.not_mem_nil, or_false] at isMark isSign
    rcases isMark with rfl | rfl <;> rcases isSign with rfl | rfl <;> exact hskip

/-- What stands after the whole part of a number. -/
theorem Json.Fraction.endsDigits {s u t : Bytes} (h : Json.Fraction s u)
    (hexponent : Json.Exponent u t) (hend : Json.EndsNumber t) : Json.EndsDigits s := by
  cases h with
  | none => exact (hexponent.endsDigits hend).1
  | digits _ => exact fun b hb => Option.some.inj hb ▸ by decide

theorem Json.Unsigned.exists_digit {s t : Bytes} (h : Json.Unsigned s t) :
    ∃ b tail, s = b :: tail ∧ Json.isDigit b = true := by
  obtain ⟨u, v, hwhole, -⟩ := h
  cases hwhole with
  | zero => exact ⟨_, _, rfl, by decide⟩
  | digits _ digits => exact digits.exists_digit

theorem Json.Fraction.skip_eq {s u t : Bytes} (h : Json.Fraction s u)
    (hexponent : Json.Exponent u t) (hend : Json.EndsNumber t) : Json.skipFraction s = .ok t := by
  obtain ⟨hdigits, hdot⟩ := hexponent.endsDigits hend
  cases h with
  | none =>
    unfold Json.skipFraction
    split
    · exact absurd rfl hdot
    · exact hexponent.skip_eq hend
  | digits digits =>
    exact bind_eq_ok_iff.2 ⟨u, digits.skipDigits_eq hdigits, hexponent.skip_eq hend⟩

/-- A number is passed over. -/
theorem Json.Unsigned.skip_eq {s t : Bytes} (h : Json.Unsigned s t) (hend : Json.EndsNumber t) :
    Json.skipNumber s = .ok t := by
  obtain ⟨u, v, hwhole, hfraction, hexponent⟩ := h
  have hdigits := hfraction.endsDigits hexponent hend
  have hrest := hfraction.skip_eq hexponent hend
  cases hwhole with
  | zero =>
    have hnext : (u.head?.map Json.isDigit).getD false = false := by
      cases u with
      | nil => rfl
      | cons b u => exact hdigits b rfl
    unfold Json.skipNumber
    dsimp only
    rw [if_neg (by decide), if_pos rfl, hnext, if_neg (by decide), hrest]
  | digits lead digits =>
    obtain ⟨b, tail, heq, digit⟩ := digits.exists_digit
    obtain ⟨rfl, rfl⟩ := List.cons.inj heq
    unfold Json.skipNumber
    dsimp only
    rw [digit, if_neg (by decide), if_neg lead, digits.dropWhile_eq hdigits,
      if_neg (fun h => lead h.1), hrest]

/-! ## Strings -/

theorem Json.readHex4_of_isHex {a b c d : UInt8} (ha : Json.IsHex a) (hb : Json.IsHex b)
    (hc : Json.IsHex c) (hd : Json.IsHex d) (s : Bytes) :
    ∃ n, Json.readHex4 (a :: b :: c :: d :: s) = .ok (n, s) := by
  obtain ⟨va, ha⟩ := Option.isSome_iff_exists.1 ha
  obtain ⟨vb, hb⟩ := Option.isSome_iff_exists.1 hb
  obtain ⟨vc, hc⟩ := Option.isSome_iff_exists.1 hc
  obtain ⟨vd, hd⟩ := Option.isSome_iff_exists.1 hd
  exact ⟨((va * 16 + vb) * 16 + vc) * 16 + vd, by simp only [Json.readHex4, ha, hb, hc, hd]⟩

theorem Json.plainEscape?_of_mem {e : UInt8}
    (h : e ∈ ([0x22, 0x5C, 0x2F, 0x62, 0x66, 0x6E, 0x72, 0x74] : Bytes)) :
    e ≠ 0x75 ∧ (Json.plainEscape? e).isSome = true := by
  simp only [List.mem_cons, List.not_mem_nil, or_false] at h
  rcases h with rfl | rfl | rfl | rfl | rfl | rfl | rfl | rfl <;> decide

theorem Json.stringStep_escape {α : Type} (done : Bytes → Except Json.Fault α)
    (escaped more : UInt8 → Bytes → Except Json.Fault α) (e : UInt8) (s : Bytes) :
    Json.stringStep done escaped more (0x5C :: e :: s) = escaped e s := rfl

/-- A string is passed over. -/
theorem Json.InString.skip_eq {s t : Bytes} (h : Json.InString s t) {fuel : Nat}
    (hfuel : s.length ≤ fuel) : Json.skipString fuel s = .ok t := by
  have hstep : ∀ (fuel : Nat) (s : Bytes), Json.skipString (fuel + 1) s =
      Json.stringStep .ok (Json.skipEscaped fuel) (fun _ s => Json.skipString fuel s) s := by
    intro fuel s
    cases s <;> rfl
  induction h generalizing fuel with
  | quote =>
    obtain ⟨fuel, rfl⟩ := Nat.exists_eq_add_of_le' (Nat.one_le_of_lt hfuel)
    rw [hstep]
    rfl
  | plain printable no_quote no_escape _ ih =>
    obtain ⟨fuel, rfl⟩ := Nat.exists_eq_add_of_le' (Nat.one_le_of_lt hfuel)
    rw [hstep]
    unfold Json.stringStep
    dsimp only
    rw [if_neg no_quote, if_neg no_escape, if_neg (UInt8.not_lt.2 printable)]
    exact ih (Nat.le_of_succ_le_succ hfuel)
  | escape plain _ ih =>
    obtain ⟨fuel, rfl⟩ := Nat.exists_eq_add_of_le' (Nat.one_le_of_lt hfuel)
    obtain ⟨hunicode, hplain⟩ := Json.plainEscape?_of_mem plain
    rw [hstep, Json.stringStep_escape, Json.skipEscaped, if_neg hunicode, if_pos hplain]
    simp only [List.length_cons] at hfuel
    exact ih (by omega)
  | unicode first second third fourth _ ih =>
    obtain ⟨fuel, rfl⟩ := Nat.exists_eq_add_of_le' (Nat.one_le_of_lt hfuel)
    obtain ⟨n, hhex⟩ := Json.readHex4_of_isHex first second third fourth _
    rw [hstep, Json.stringStep_escape, Json.skipEscaped, if_pos rfl, hhex]
    simp only [List.length_cons] at hfuel
    exact ih (by omega)

/-! ## Values -/

/-- What passing over comes to at a place of the grammar. -/
def Json.Place.skip (fuel : Nat) (opened : List Json.Opened) :
    Json.Place → Bytes → Except Json.Fault Bytes
  | .value, s => Json.skipLoop fuel .value opened s
  | .items, s => Json.skipLoop fuel .first (.array :: opened) s
  | .afterItem, s => Json.skipLoop fuel .rest (.array :: opened) s
  | .members, s => Json.skipLoop fuel .first (.object :: opened) s
  | .member, s => Json.skipLoop fuel .name opened s
  | .afterName, s => Json.colon s >>= Json.skipLoop fuel .value opened
  | .afterMember, s => Json.skipLoop fuel .rest (.object :: opened) s

/-- The steps at a place before an octet is taken off. -/
def Json.Place.steps : Json.Place → Nat
  | .items | .members => 2
  | _ => 1

theorem Json.skipBlanks_cons {b : UInt8} (h : Json.isBlank b = true) (s : Bytes) :
    Json.skipBlanks (b :: s) = Json.skipBlanks s :=
  List.dropWhile_cons_of_pos h

theorem Json.skipBlanks_of_not {b : UInt8} (h : Json.isBlank b = false) (s : Bytes) :
    Json.skipBlanks (b :: s) = b :: s :=
  List.dropWhile_cons_of_neg (by simp [h])

theorem Json.skipBlanks_skipBlanks (s : Bytes) :
    Json.skipBlanks (Json.skipBlanks s) = Json.skipBlanks s :=
  List.dropWhile_idempotent _ _

/-- Passing over looks at what stands after the blanks only, where something is due. -/
theorem Json.skipLoop_congr {fuel : Nat} {due : Json.Due} {opened : List Json.Opened} {s s' : Bytes}
    (inside : due.place? opened ≠ none) (h : Json.skipBlanks s = Json.skipBlanks s') :
    Json.skipLoop fuel due opened s = Json.skipLoop fuel due opened s' := by
  cases fuel with
  | zero => rfl
  | succ fuel =>
    rcases opened with - | ⟨o, around⟩ <;> cases due <;>
      first | exact absurd rfl inside | (unfold Json.skipLoop; rw [h])

theorem Json.Place.skip_blank {fuel : Nat} {opened : List Json.Opened} {b : UInt8}
    (h : Json.isBlank b = true) (p : Json.Place) (s : Bytes) :
    p.skip fuel opened (b :: s) = p.skip fuel opened s := by
  have hs := Json.skipBlanks_cons h s
  cases p with
  | value | items | afterItem | members | afterMember =>
    exact Json.skipLoop_congr (by simp [Json.Due.place?]) hs
  | member =>
    exact Json.skipLoop_congr (by simp [Json.Due.place?]) hs
  | afterName =>
    have hcolon : Json.colon (b :: s) = Json.colon s := by
      unfold Json.colon
      rw [hs]
    show Json.colon (b :: s) >>= _ = Json.colon s >>= _
    rw [hcolon]

theorem Json.isBlank_of_isDigit {b : UInt8} (h : Json.isDigit b = true) :
    Json.isBlank b = false := by
  rw [Bool.eq_false_iff]
  intro hblank
  simp only [Json.isBlank, Bool.or_eq_true, beq_iff_eq] at hblank
  rcases hblank with ((rfl | rfl) | rfl) | rfl <;> exact absurd h (by decide)

theorem Json.endsNumber_of_isBlank {b : UInt8} {s : Bytes} (h : Json.isBlank b = true) :
    Json.EndsNumber (b :: s) := by
  refine .of_cons ?_
  simp only [Json.isBlank, Bool.or_eq_true, beq_iff_eq] at h
  rcases h with ((rfl | rfl) | rfl) | rfl <;> decide

/-- What follows an item or a member does not go on with a number. -/
theorem Json.Spells.endsNumber {p : Json.Place} {s t : Bytes} (h : Json.Spells p s t)
    (hp : p = .afterItem ∨ p = .afterMember) : Json.EndsNumber s := by
  cases h with
  | blank blank _ => exact Json.endsNumber_of_isBlank blank
  | lastItem | nextItem | lastMember | nextMember => exact .of_cons (by decide)
  | _ => exact absurd hp (by simp)

/-- A value begins with no closing bracket, and a member with a quote. -/
theorem Json.Spells.head {p : Json.Place} {s t : Bytes} (h : Json.Spells p s t) :
    (p = .value → ∃ b u, Json.skipBlanks s = b :: u ∧ b ≠ 0x5D) ∧
      (p = .member → ∃ u, Json.skipBlanks s = 0x22 :: u) := by
  induction h with
  | blank blank _ ih =>
    rw [Json.skipBlanks_cons blank]
    exact ih
  | number number =>
    obtain ⟨b, tail, rfl, digit⟩ := number.exists_digit
    refine ⟨fun _ => ⟨b, tail, Json.skipBlanks_of_not (Json.isBlank_of_isDigit digit) tail, ?_⟩,
      fun h => absurd h (by simp)⟩
    rintro rfl
    exact absurd digit (by decide)
  | null | true | false | negative | string | array | object =>
    exact ⟨fun _ => ⟨_, _, Json.skipBlanks_of_not (by decide) _, by decide⟩,
      fun h => absurd h (by simp)⟩
  | member => exact ⟨fun h => absurd h (by simp), fun _ => ⟨_, rfl⟩⟩
  | _ => exact ⟨fun h => absurd h (by simp), fun h => absurd h (by simp)⟩

section Step

variable {fuel : Nat} {opened : List Json.Opened} {b : UInt8} {s u : Bytes}

theorem Json.skipLoop_digit {x : Except Json.Fault Bytes} (digit : Json.isDigit b = true)
    (h : Json.skipNumber (b :: s) >>= Json.skipLoop fuel .rest opened = x) :
    Json.skipLoop (fuel + 1) .value opened (b :: s) = x := by
  unfold Json.skipLoop
  rw [Json.skipBlanks_of_not (Json.isBlank_of_isDigit digit)]
  dsimp only
  split
  all_goals first | exact absurd digit (by decide) | exact (if_pos digit).trans h

theorem Json.skipLoop_firstItem {x : Except Json.Fault Bytes} (hs : Json.skipBlanks s = b :: u)
    (hb : b ≠ 0x5D) (h : Json.skipLoop fuel .value (.array :: opened) s = x) :
    Json.skipLoop (fuel + 1) .first (.array :: opened) s = x := by
  have heq : Json.skipBlanks s = Json.skipBlanks (b :: u) := by
    rw [← hs, Json.skipBlanks_skipBlanks]
  rw [Json.skipLoop_congr (by simp [Json.Due.place?]) heq] at h
  unfold Json.skipLoop
  rw [hs]
  exact (if_neg hb).trans h

theorem Json.skipLoop_firstMember {x : Except Json.Fault Bytes}
    (hs : Json.skipBlanks s = 0x22 :: u)
    (h : Json.skipLoop fuel .name (.object :: opened) s = x) :
    Json.skipLoop (fuel + 1) .first (.object :: opened) s = x := by
  have heq : Json.skipBlanks s = Json.skipBlanks (0x22 :: u) := by
    rw [← hs, Json.skipBlanks_skipBlanks]
  rw [Json.skipLoop_congr (by simp [Json.Due.place?]) heq] at h
  unfold Json.skipLoop
  rw [hs]
  exact h

end Step

/-- What is due at a place is passed over, in two steps for each octet at most. -/
theorem Json.Spells.skip_eq {p : Json.Place} {s t : Bytes} (h : Json.Spells p s t)
    (hend : Json.EndsNumber t) (fuel : Nat) (opened : List Json.Opened)
    (hfuel : 2 * s.length + p.steps ≤ fuel) :
    ∃ fuel', 2 * t.length < fuel' ∧
      p.skip fuel opened s = Json.skipLoop fuel' .rest opened t := by
  -- a bracket takes a step of its own and one to see that it is not closed at once, so every octet
  -- pays for two
  induction h generalizing fuel opened with
  | blank blank _ ih =>
    rw [Json.Place.skip_blank blank]
    rw [List.length_cons] at hfuel
    exact ih hend fuel opened (by omega)
  | null | true | false =>
    obtain ⟨fuel, rfl⟩ := Nat.exists_eq_add_of_le' (Nat.one_le_of_lt hfuel)
    simp only [List.length_cons, Json.Place.steps] at hfuel
    exact ⟨fuel, by omega, rfl⟩
  | number number =>
    obtain ⟨fuel, rfl⟩ := Nat.exists_eq_add_of_le' (Nat.one_le_of_lt hfuel)
    have hlen := number.length_lt
    have hskip := number.skip_eq hend
    obtain ⟨b, tail, rfl, digit⟩ := number.exists_digit
    simp only [Json.Place.steps] at hfuel
    refine ⟨fuel, by omega, Json.skipLoop_digit digit ?_⟩
    rw [hskip]
    rfl
  | negative number =>
    obtain ⟨fuel, rfl⟩ := Nat.exists_eq_add_of_le' (Nat.one_le_of_lt hfuel)
    have hlen := number.length_lt
    simp only [List.length_cons, Json.Place.steps] at hfuel
    refine ⟨fuel, by omega, ?_⟩
    show (Json.skipNumber _ >>= Json.skipLoop fuel .rest opened) = _
    rw [number.skip_eq hend]
    rfl
  | string string =>
    obtain ⟨fuel, rfl⟩ := Nat.exists_eq_add_of_le' (Nat.one_le_of_lt hfuel)
    have hlen := string.length_lt
    simp only [List.length_cons, Json.Place.steps] at hfuel
    refine ⟨fuel, by omega, ?_⟩
    show (Json.skipString _ _ >>= Json.skipLoop fuel .rest opened) = _
    rw [string.skip_eq (Nat.le_succ _)]
    rfl
  | array _ ih =>
    obtain ⟨fuel, rfl⟩ := Nat.exists_eq_add_of_le' (Nat.one_le_of_lt hfuel)
    simp only [List.length_cons, Json.Place.steps] at hfuel
    exact ih hend fuel opened (by simp only [Json.Place.steps]; omega)
  | object _ ih =>
    obtain ⟨fuel, rfl⟩ := Nat.exists_eq_add_of_le' (Nat.one_le_of_lt hfuel)
    simp only [List.length_cons, Json.Place.steps] at hfuel
    exact ih hend fuel opened (by simp only [Json.Place.steps]; omega)
  | noItems | noMembers | lastItem | lastMember =>
    obtain ⟨fuel, rfl⟩ := Nat.exists_eq_add_of_le' (Nat.one_le_of_lt hfuel)
    simp only [List.length_cons, Json.Place.steps] at hfuel
    exact ⟨fuel, by omega, rfl⟩
  | someItems item rest ih ih' =>
    obtain ⟨fuel, rfl⟩ := Nat.exists_eq_add_of_le' (Nat.one_le_of_lt hfuel)
    simp only [Json.Place.steps] at hfuel
    obtain ⟨b, u, hs, hb⟩ := item.head.1 rfl
    obtain ⟨fuel', hfuel', hitem⟩ := ih (rest.endsNumber (.inl rfl)) fuel
      (.array :: opened) (by simp only [Json.Place.steps]; omega)
    obtain ⟨fuel'', hfuel'', hrest⟩ := ih' hend fuel' opened
      (by simp only [Json.Place.steps]; omega)
    exact ⟨fuel'', hfuel'', Json.skipLoop_firstItem hs hb (hitem.trans hrest)⟩
  | nextItem item rest ih ih' =>
    obtain ⟨fuel, rfl⟩ := Nat.exists_eq_add_of_le' (Nat.one_le_of_lt hfuel)
    simp only [List.length_cons, Json.Place.steps] at hfuel
    obtain ⟨fuel', hfuel', hitem⟩ := ih (rest.endsNumber (.inl rfl)) fuel
      (.array :: opened) (by simp only [Json.Place.steps]; omega)
    obtain ⟨fuel'', hfuel'', hrest⟩ := ih' hend fuel' opened
      (by simp only [Json.Place.steps]; omega)
    exact ⟨fuel'', hfuel'', hitem.trans hrest⟩
  | someMembers member rest ih ih' =>
    obtain ⟨fuel, rfl⟩ := Nat.exists_eq_add_of_le' (Nat.one_le_of_lt hfuel)
    simp only [Json.Place.steps] at hfuel
    obtain ⟨u, hs⟩ := member.head.2 rfl
    obtain ⟨fuel', hfuel', hmember⟩ := ih (rest.endsNumber (.inr rfl)) fuel
      (.object :: opened) (by simp only [Json.Place.steps]; omega)
    obtain ⟨fuel'', hfuel'', hrest⟩ := ih' hend fuel' opened
      (by simp only [Json.Place.steps]; omega)
    exact ⟨fuel'', hfuel'', Json.skipLoop_firstMember hs (hmember.trans hrest)⟩
  | nextMember member rest ih ih' =>
    obtain ⟨fuel, rfl⟩ := Nat.exists_eq_add_of_le' (Nat.one_le_of_lt hfuel)
    simp only [List.length_cons, Json.Place.steps] at hfuel
    obtain ⟨fuel', hfuel', hmember⟩ := ih (rest.endsNumber (.inr rfl)) fuel
      (.object :: opened) (by simp only [Json.Place.steps]; omega)
    obtain ⟨fuel'', hfuel'', hrest⟩ := ih' hend fuel' opened
      (by simp only [Json.Place.steps]; omega)
    exact ⟨fuel'', hfuel'', hmember.trans hrest⟩
  | member name value ih =>
    obtain ⟨fuel, rfl⟩ := Nat.exists_eq_add_of_le' (Nat.one_le_of_lt hfuel)
    have hlen := name.length_lt
    simp only [List.length_cons, Json.Place.steps] at hfuel
    obtain ⟨fuel', hfuel', hvalue⟩ := ih hend fuel opened
      (by simp only [Json.Place.steps]; omega)
    refine ⟨fuel', hfuel', ?_⟩
    show (Json.skipString _ _ >>= Json.colon >>= Json.skipLoop fuel .value opened) = _
    rw [name.skip_eq (Nat.le_succ _)]
    exact hvalue
  | afterName value ih =>
    simp only [List.length_cons, Json.Place.steps] at hfuel
    exact ih hend fuel opened (by simp only [Json.Place.steps]; omega)

/-- A value is passed over. -/
theorem Json.skip_spells {s t : Bytes} (h : Json.Spells .value s t) (hend : Json.EndsNumber t) :
    Json.skip s = .ok t := by
  obtain ⟨fuel, hfuel, hskip⟩ := h.skip_eq hend (2 * s.length + 2) []
    (by simp only [Json.Place.steps]; omega)
  obtain ⟨fuel, rfl⟩ := Nat.exists_eq_add_of_le' (Nat.one_le_of_lt hfuel)
  exact hskip

/-! ## Texts that go on -/

theorem Json.InString.append {s t : Bytes} (h : Json.InString s t) (r : Bytes) :
    Json.InString (s ++ r) (t ++ r) := by
  induction h with
  | quote => exact .quote
  | plain printable no_quote no_escape _ ih => exact .plain printable no_quote no_escape ih
  | escape plain _ ih => exact .escape plain ih
  | unicode first second third fourth _ ih => exact .unicode first second third fourth ih

theorem Json.Digits.append_rest {s t : Bytes} (h : Json.Digits s t) (r : Bytes) :
    Json.Digits (s ++ r) (t ++ r) := by
  induction h with
  | one digit => exact .one digit
  | more digit _ ih => exact .more digit ih

theorem Json.Unsigned.append {s t : Bytes} (h : Json.Unsigned s t) (r : Bytes) :
    Json.Unsigned (s ++ r) (t ++ r) := by
  obtain ⟨u, v, hwhole, hfraction, hexponent⟩ := h
  refine ⟨u ++ r, v ++ r, ?_, ?_, ?_⟩
  · cases hwhole with
    | zero => exact .zero
    | digits lead digits => exact .digits lead (digits.append_rest r)
  · cases hfraction with
    | none => exact .none
    | digits digits => exact .digits (digits.append_rest r)
  · cases hexponent with
    | none => exact .none
    | plain isMark digits => exact .plain isMark (digits.append_rest r)
    | signed isMark isSign digits => exact .signed isMark isSign (digits.append_rest r)

/-- What is due at the front of some octets is due there whatever follows them. -/
theorem Json.Spells.append {p : Json.Place} {s t : Bytes} (h : Json.Spells p s t) (r : Bytes) :
    Json.Spells p (s ++ r) (t ++ r) := by
  induction h with
  | blank blank _ ih => exact .blank blank ih
  | null => exact .null
  | true => exact .true
  | false => exact .false
  | number number => exact .number (number.append r)
  | negative number => exact .negative (number.append r)
  | string string => exact .string (string.append r)
  | array _ ih => exact .array ih
  | object _ ih => exact .object ih
  | noItems => exact .noItems
  | someItems _ _ ih ih' => exact .someItems ih ih'
  | lastItem => exact .lastItem
  | nextItem _ _ ih ih' => exact .nextItem ih ih'
  | noMembers => exact .noMembers
  | someMembers _ _ ih ih' => exact .someMembers ih ih'
  | member name _ ih => exact .member (name.append r) ih
  | afterName _ ih => exact .afterName ih
  | lastMember => exact .lastMember
  | nextMember _ _ ih ih' => exact .nextMember ih ih'

/-- A text that is a value is passed over before what does not go on with a number. -/
theorem Json.skip_append {v r : Bytes} (h : Json.Spells .value v []) (hend : Json.EndsNumber r) :
    Json.skip (v ++ r) = .ok r :=
  Json.skip_spells (h.append r) hend

end Courier
