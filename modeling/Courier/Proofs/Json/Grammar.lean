import Courier.Json.Reader

set_option autoImplicit false

/-! # The form of JSON texts

The grammar of the data format over octets, said without the readers. Each notion relates the octets
from a place on to those that are left when what is due at the place has been taken off the front:
`Json.Spells .value s t` says that `s` is a value followed by `t`. In a string every octet from the
blank on may stand for itself, so that the grammar leaves open whether a text is UTF-8.

The readers of words, strings and numbers keep to the grammar: what they take off is spelled. -/

namespace Courier

/-! ## Strings and numbers -/

/-- Whether an octet is a hexadecimal digit. -/
def Json.IsHex (b : UInt8) : Prop := (hexValue? b).isSome = true

/-- The rest of a string whose opening quote has been read, up to its closing quote. -/
inductive Json.InString : Bytes → Bytes → Prop
  | quote {t : Bytes} : Json.InString (0x22 :: t) t
  | plain {b : UInt8} {s t : Bytes} (printable : 0x20 ≤ b) (no_quote : b ≠ 0x22)
      (no_escape : b ≠ 0x5C) (rest : Json.InString s t) : Json.InString (b :: s) t
  | escape {e : UInt8} {s t : Bytes}
      (plain : e ∈ [0x22, 0x5C, 0x2F, 0x62, 0x66, 0x6E, 0x72, 0x74]) (rest : Json.InString s t) :
      Json.InString (0x5C :: e :: s) t
  | unicode {a b c d : UInt8} {s t : Bytes} (first : Json.IsHex a) (second : Json.IsHex b)
      (third : Json.IsHex c) (fourth : Json.IsHex d) (rest : Json.InString s t) :
      Json.InString (0x5C :: 0x75 :: a :: b :: c :: d :: s) t

/-- One digit or more. -/
inductive Json.Digits : Bytes → Bytes → Prop
  | one {b : UInt8} {t : Bytes} (digit : Json.isDigit b = true) : Json.Digits (b :: t) t
  | more {b : UInt8} {s t : Bytes} (digit : Json.isDigit b = true) (rest : Json.Digits s t) :
      Json.Digits (b :: s) t

/-- The whole part of a number: a zero, or digits of which the first is not zero. -/
inductive Json.WholePart : Bytes → Bytes → Prop
  | zero {t : Bytes} : Json.WholePart (0x30 :: t) t
  | digits {b : UInt8} {s t : Bytes} (lead : b ≠ 0x30) (digits : Json.Digits (b :: s) t) :
      Json.WholePart (b :: s) t

/-- The fraction of a number, if it has one. -/
inductive Json.Fraction : Bytes → Bytes → Prop
  | none {t : Bytes} : Json.Fraction t t
  | digits {s t : Bytes} (digits : Json.Digits s t) : Json.Fraction (0x2E :: s) t

/-- The exponent of a number, if it has one. -/
inductive Json.Exponent : Bytes → Bytes → Prop
  | none {t : Bytes} : Json.Exponent t t
  | plain {mark : UInt8} {s t : Bytes} (isMark : mark ∈ [0x65, 0x45]) (digits : Json.Digits s t) :
      Json.Exponent (mark :: s) t
  | signed {mark sign : UInt8} {s t : Bytes} (isMark : mark ∈ [0x65, 0x45])
      (isSign : sign ∈ [0x2B, 0x2D]) (digits : Json.Digits s t) :
      Json.Exponent (mark :: sign :: s) t

/-- A number after its sign. -/
def Json.Unsigned (s t : Bytes) : Prop :=
  ∃ u v, Json.WholePart s u ∧ Json.Fraction u v ∧ Json.Exponent v t

/-! ## Values -/

/-- What can be due at a place between the strings and numbers of a text. -/
inductive Json.Place
  | value
  /-- The items of an array that has been opened, and its end. -/
  | items
  /-- What follows an item of an array. -/
  | afterItem
  /-- The members of an object that has been opened, and its end. -/
  | members
  /-- A member, with its name. -/
  | member
  /-- The colon after a name, and the value of the member. -/
  | afterName
  /-- What follows a member of an object. -/
  | afterMember

/-- The octets from a place on, up to the end of what is due there. -/
inductive Json.Spells : Json.Place → Bytes → Bytes → Prop
  | blank {p : Json.Place} {b : UInt8} {s t : Bytes} (blank : Json.isBlank b = true)
      (rest : Json.Spells p s t) : Json.Spells p (b :: s) t
  | null {t : Bytes} : Json.Spells .value (0x6E :: 0x75 :: 0x6C :: 0x6C :: t) t
  | true {t : Bytes} : Json.Spells .value (0x74 :: 0x72 :: 0x75 :: 0x65 :: t) t
  | false {t : Bytes} : Json.Spells .value (0x66 :: 0x61 :: 0x6C :: 0x73 :: 0x65 :: t) t
  | number {s t : Bytes} (number : Json.Unsigned s t) : Json.Spells .value s t
  | negative {s t : Bytes} (number : Json.Unsigned s t) : Json.Spells .value (0x2D :: s) t
  | string {s t : Bytes} (string : Json.InString s t) : Json.Spells .value (0x22 :: s) t
  | array {s t : Bytes} (items : Json.Spells .items s t) : Json.Spells .value (0x5B :: s) t
  | object {s t : Bytes} (members : Json.Spells .members s t) : Json.Spells .value (0x7B :: s) t
  | noItems {t : Bytes} : Json.Spells .items (0x5D :: t) t
  | someItems {s u t : Bytes} (item : Json.Spells .value s u) (rest : Json.Spells .afterItem u t) :
      Json.Spells .items s t
  | lastItem {t : Bytes} : Json.Spells .afterItem (0x5D :: t) t
  | nextItem {s u t : Bytes} (item : Json.Spells .value s u) (rest : Json.Spells .afterItem u t) :
      Json.Spells .afterItem (0x2C :: s) t
  | noMembers {t : Bytes} : Json.Spells .members (0x7D :: t) t
  | someMembers {s u t : Bytes} (member : Json.Spells .member s u)
      (rest : Json.Spells .afterMember u t) : Json.Spells .members s t
  | member {s u t : Bytes} (name : Json.InString s u) (value : Json.Spells .afterName u t) :
      Json.Spells .member (0x22 :: s) t
  | afterName {s t : Bytes} (value : Json.Spells .value s t) :
      Json.Spells .afterName (0x3A :: s) t
  | lastMember {t : Bytes} : Json.Spells .afterMember (0x7D :: t) t
  | nextMember {s u t : Bytes} (member : Json.Spells .member s u)
      (rest : Json.Spells .afterMember u t) : Json.Spells .afterMember (0x2C :: s) t

/-- The text of an object, with blanks before and after it. -/
def Json.IsObjectText (c : Bytes) : Prop :=
  ∃ s t, Json.skipBlanks c = 0x7B :: s ∧ Json.Spells .members s t ∧ Json.skipBlanks t = []

/-- The text of an array, with blanks before and after it. -/
def Json.IsArrayText (c : Bytes) : Prop :=
  ∃ s t, Json.skipBlanks c = 0x5B :: s ∧ Json.Spells .items s t ∧ Json.skipBlanks t = []

/-- The octet that a text begins with tells whether it can be an object. -/
theorem Json.not_isObjectText {c : Bytes} (h : (Json.skipBlanks c).head? ≠ some 0x7B) :
    ¬Json.IsObjectText c := by
  rintro ⟨s, t, heq, -⟩
  exact h (heq ▸ rfl)

/-! ## Lengths -/

theorem Json.InString.length_lt {s t : Bytes} (h : Json.InString s t) : t.length < s.length := by
  induction h with
  | quote => exact Nat.lt_succ_self _
  | plain _ _ _ _ ih => exact Nat.lt_succ_of_lt ih
  | escape _ _ ih =>
    simp only [List.length_cons]
    omega
  | unicode _ _ _ _ _ ih =>
    simp only [List.length_cons]
    omega

theorem Json.Digits.length_lt {s t : Bytes} (h : Json.Digits s t) : t.length < s.length := by
  induction h with
  | one _ => exact Nat.lt_succ_self _
  | more _ _ ih => exact Nat.lt_succ_of_lt ih

/-- A number takes some octets. -/
theorem Json.Unsigned.length_lt {s t : Bytes} (h : Json.Unsigned s t) : t.length < s.length := by
  obtain ⟨u, v, hwhole, hfraction, hexponent⟩ := h
  have hfirst : u.length < s.length := by
    cases hwhole with
    | zero => exact Nat.lt_succ_self _
    | digits _ digits => exact digits.length_lt
  have hsecond : v.length ≤ u.length := by
    cases hfraction with
    | none => exact Nat.le_refl _
    | digits digits => exact Nat.le_succ_of_le (Nat.le_of_lt digits.length_lt)
  have hthird : t.length ≤ v.length := by
    cases hexponent with
    | none => exact Nat.le_refl _
    | plain _ digits => exact Nat.le_succ_of_le (Nat.le_of_lt digits.length_lt)
    | signed _ _ digits =>
      exact Nat.le_succ_of_le (Nat.le_succ_of_le (Nat.le_of_lt digits.length_lt))
  omega

/-- Everything that can be due takes some octets. -/
theorem Json.Spells.length_lt {p : Json.Place} {s t : Bytes} (h : Json.Spells p s t) :
    t.length < s.length := by
  induction h with
  | blank _ _ ih => exact Nat.lt_succ_of_lt ih
  | null | true | false =>
    simp only [List.length_cons]
    omega
  | number number => exact number.length_lt
  | negative number => exact Nat.lt_succ_of_lt number.length_lt
  | string string => exact Nat.lt_succ_of_lt string.length_lt
  | array _ ih | object _ ih | afterName _ ih => exact Nat.lt_succ_of_lt ih
  | noItems | lastItem | noMembers | lastMember => exact Nat.lt_succ_self _
  | someItems _ _ ih ih' | someMembers _ _ ih ih' => exact Nat.lt_trans ih' ih
  | nextItem _ _ ih ih' | nextMember _ _ ih ih' =>
    exact Nat.lt_succ_of_lt (Nat.lt_trans ih' ih)
  | member name _ ih => exact Nat.lt_succ_of_lt (Nat.lt_trans ih name.length_lt)

/-! ## Results -/

theorem bind_eq_ok_iff {ε α β : Type} {x : Except ε α} {f : α → Except ε β} {b : β} :
    x >>= f = .ok b ↔ ∃ a, x = .ok a ∧ f a = .ok b := by
  cases x with
  | error e => simp [bind, Except.bind]
  | ok a => simp [bind, Except.bind]

theorem map_eq_ok_iff {ε α β : Type} {x : Except ε α} {f : α → β} {b : β} :
    x.map f = .ok b ↔ ∃ a, x = .ok a ∧ f a = b := by
  cases x with
  | error e => simp [Except.map]
  | ok a => simp [Except.map]

/-! ## Words and blanks -/

/-- Blanks may be taken off before anything. -/
theorem Json.Spells.of_skipBlanks {p : Json.Place} {s t : Bytes}
    (h : Json.Spells p (Json.skipBlanks s) t) : Json.Spells p s t := by
  induction s with
  | nil => exact h
  | cons b s ih =>
    unfold Json.skipBlanks at h
    rw [List.dropWhile_cons] at h
    split at h
    · rename_i hblank
      exact .blank hblank (ih h)
    · exact h

theorem Json.readWord_eq_ok {word s t : Bytes} (h : Json.readWord word s = .ok t) :
    s = word ++ t := by
  induction word generalizing s with
  | nil => exact Except.ok.inj h
  | cons w word ih =>
    cases s with
    | nil => exact absurd h (by simp [Json.readWord])
    | cons b s =>
      rw [Json.readWord] at h
      split at h
      · rename_i heq
        rw [ih h, heq, List.cons_append]
      · exact absurd h (by simp)

/-! ## Strings -/

theorem Json.mem_of_plainEscape? {e : UInt8} (h : (Json.plainEscape? e).isSome = true) :
    e ∈ ([0x22, 0x5C, 0x2F, 0x62, 0x66, 0x6E, 0x72, 0x74] : Bytes) := by
  unfold Json.plainEscape? at h
  split at h <;> first | decide | simp at h

theorem Json.readHex4_eq_ok {s t : Bytes} {n : Nat} (h : Json.readHex4 s = .ok (n, t)) :
    ∃ a b c d, s = a :: b :: c :: d :: t ∧ Json.IsHex a ∧ Json.IsHex b ∧ Json.IsHex c ∧
      Json.IsHex d := by
  unfold Json.readHex4 at h
  split at h
  · rename_i a b c d s
    split at h
    · rename_i va vb vc vd ha hb hc hd
      obtain ⟨-, rfl⟩ := Prod.mk.inj (Except.ok.inj h)
      exact ⟨a, b, c, d, rfl, by simp [Json.IsHex, ha], by simp [Json.IsHex, hb],
        by simp [Json.IsHex, hc], by simp [Json.IsHex, hd]⟩
    · exact absurd h (by simp)
  · exact absurd h (by simp)

/-- Four digits after `\u` are an escape. -/
theorem Json.InString.of_readHex4 {s u t : Bytes} {n : Nat} (h : Json.readHex4 s = .ok (n, u))
    (rest : Json.InString u t) : Json.InString (0x5C :: 0x75 :: s) t := by
  obtain ⟨a, b, c, d, rfl, ha, hb, hc, hd⟩ := Json.readHex4_eq_ok h
  exact .unicode ha hb hc hd rest

/-- A character after `\u` is one escape, or two that make up a pair. -/
theorem Json.InString.of_readUnicode {s u t : Bytes} {c : Char}
    (h : Json.readUnicode s = .ok (c, u)) (rest : Json.InString u t) :
    Json.InString (0x5C :: 0x75 :: s) t := by
  unfold Json.readUnicode at h
  cases hfirst : Json.readHex4 s with
  | error f =>
    rw [hfirst] at h
    exact absurd h (by simp [bind, Except.bind])
  | ok p =>
    obtain ⟨n, v⟩ := p
    rw [hfirst] at h
    replace h : (if n < 0xD800 ∨ 0xDFFF < n then _ else _ : Except Json.Fault (Char × Bytes)) =
      .ok (c, u) := h
    refine .of_readHex4 hfirst ?_
    split at h
    · obtain ⟨-, rfl⟩ := Prod.mk.inj (Except.ok.inj h)
      exact rest
    · split at h
      · exact absurd h (by simp [throw, throwThe, MonadExceptOf.throw])
      · split at h
        · exact absurd h (by simp [throw, throwThe, MonadExceptOf.throw])
        · exact absurd h (by simp [throw, throwThe, MonadExceptOf.throw])
        · rename_i v'
          cases hsecond : Json.readHex4 v' with
          | error f =>
            rw [hsecond] at h
            exact absurd h (by simp [bind, Except.bind])
          | ok q =>
            obtain ⟨m, v''⟩ := q
            rw [hsecond] at h
            replace h : (if 0xDC00 ≤ m ∧ m ≤ 0xDFFF then _ else _ :
              Except Json.Fault (Char × Bytes)) = .ok (c, u) := h
            split at h
            · obtain ⟨-, rfl⟩ := Prod.mk.inj (Except.ok.inj h)
              exact .of_readHex4 hsecond rest
            · exact absurd h (by simp [throw, throwThe, MonadExceptOf.throw])
        · exact absurd h (by simp [throw, throwThe, MonadExceptOf.throw])

/-- What happens at the front of the rest of a string: it is done, or there is an escape, or a
    character that stands for itself. -/
def Json.stringStep {α : Type} (done : Bytes → Except Json.Fault α)
    (escaped more : UInt8 → Bytes → Except Json.Fault α) : Bytes → Except Json.Fault α
  | [] => .error .ended
  | b :: s =>
    if b = 0x22 then done s
    else if b = 0x5C then
      match s with
      | [] => .error .ended
      | e :: s => escaped e s
    else if b < 0x20 then .error .illFormed
    else more b s

/-- What is taken off after the front makes up a string with the front. -/
theorem Json.inString_of_stringStep {α : Type} {done : Bytes → Except Json.Fault α}
    {escaped more : UInt8 → Bytes → Except Json.Fault α} {s t : Bytes} {x : α}
    (h : Json.stringStep done escaped more s = .ok x)
    (hdone : ∀ {s}, done s = .ok x → s = t)
    (hescaped : ∀ {e s}, escaped e s = .ok x → Json.InString (0x5C :: e :: s) t)
    (hmore : ∀ {b s}, more b s = .ok x → Json.InString s t) : Json.InString s t := by
  cases s with
  | nil => exact absurd h (by simp [Json.stringStep])
  | cons b s =>
    unfold Json.stringStep at h
    dsimp only at h
    by_cases hquote : b = 0x22
    · rw [if_pos hquote] at h
      exact hquote ▸ hdone h ▸ .quote
    rw [if_neg hquote] at h
    by_cases hescape : b = 0x5C
    · rw [if_pos hescape] at h
      cases s with
      | nil => exact absurd h (by simp)
      | cons e s => exact hescape ▸ hescaped h
    rw [if_neg hescape] at h
    by_cases hcontrol : b < 0x20
    · rw [if_pos hcontrol] at h
      exact absurd h (by simp)
    · rw [if_neg hcontrol] at h
      exact .plain (UInt8.not_lt.1 hcontrol) hquote hescape (hmore h)

/-- What reading a string makes of an escape. -/
def Json.readEscaped (fuel : Nat) (acc : Bytes) (e : UInt8) (s : Bytes) :
    Except Json.Fault (Bytes × Bytes) :=
  if e = 0x75 then
    match Json.readUnicode s with
    | .ok (c, s) => Json.readStringOctets fuel ((String.utf8EncodeChar c).reverse ++ acc) s
    | .error f => .error f
  else
    match Json.plainEscape? e with
    | some o => Json.readStringOctets fuel (o :: acc) s
    | none => .error .illFormed

/-- Reading a string takes off a string. -/
theorem Json.inString_of_readStringOctets {fuel : Nat} {acc octets s t : Bytes}
    (h : Json.readStringOctets fuel acc s = .ok (octets, t)) : Json.InString s t := by
  induction fuel generalizing acc s with
  | zero => exact absurd h (by simp [Json.readStringOctets])
  | succ fuel ih =>
    have hstep : Json.readStringOctets (fuel + 1) acc s =
        Json.stringStep (fun s => .ok (acc.reverse, s)) (Json.readEscaped fuel acc)
          (fun b s => Json.readStringOctets fuel (b :: acc) s) s := by
      cases s <;> rfl
    rw [hstep] at h
    refine Json.inString_of_stringStep h (fun hdone => ?_) (fun {e s} hescaped => ?_) ih
    · exact (Prod.mk.inj (Except.ok.inj hdone)).2
    · unfold Json.readEscaped at hescaped
      by_cases hunicode : e = 0x75
      · rw [if_pos hunicode] at hescaped
        split at hescaped
        · rename_i c u hchar
          exact hunicode ▸ .of_readUnicode hchar (ih hescaped)
        · exact absurd hescaped (by simp)
      · rw [if_neg hunicode] at hescaped
        split at hescaped
        · rename_i o ho
          exact .escape (Json.mem_of_plainEscape? (by simp [ho])) (ih hescaped)
        · exact absurd hescaped (by simp)

theorem Json.inString_of_readString {s t : Bytes} {text : String}
    (h : Json.readString s = .ok (text, t)) : Json.InString s t := by
  unfold Json.readString at h
  cases hread : Json.readStringOctets (s.length + 1) [] s with
  | error f =>
    rw [hread] at h
    exact absurd h (by simp [bind, Except.bind])
  | ok p =>
    obtain ⟨octets, u⟩ := p
    rw [hread] at h
    simp only [bind, Except.bind] at h
    split at h
    · obtain ⟨-, rfl⟩ := Prod.mk.inj (Except.ok.inj h)
      exact Json.inString_of_readStringOctets hread
    · exact absurd h (by simp [throw, throwThe, MonadExceptOf.throw])

/-- What passing over a string makes of an escape. -/
def Json.skipEscaped (fuel : Nat) (e : UInt8) (s : Bytes) : Except Json.Fault Bytes :=
  if e = 0x75 then
    match Json.readHex4 s with
    | .ok (_, s) => Json.skipString fuel s
    | .error f => .error f
  else if (Json.plainEscape? e).isSome then Json.skipString fuel s
  else .error .illFormed

/-- Passing over a string takes off a string. -/
theorem Json.inString_of_skipString {fuel : Nat} {s t : Bytes}
    (h : Json.skipString fuel s = .ok t) : Json.InString s t := by
  induction fuel generalizing s with
  | zero => exact absurd h (by simp [Json.skipString])
  | succ fuel ih =>
    have hstep : Json.skipString (fuel + 1) s =
        Json.stringStep .ok (Json.skipEscaped fuel) (fun _ s => Json.skipString fuel s) s := by
      cases s <;> rfl
    rw [hstep] at h
    refine Json.inString_of_stringStep h Except.ok.inj (fun {e s} hescaped => ?_) ih
    unfold Json.skipEscaped at hescaped
    by_cases hunicode : e = 0x75
    · rw [if_pos hunicode] at hescaped
      split at hescaped
      · rename_i n u hhex
        exact hunicode ▸ .of_readHex4 hhex (ih hescaped)
      · exact absurd hescaped (by simp)
    · rw [if_neg hunicode] at hescaped
      split at hescaped
      · rename_i hplain
        exact .escape (Json.mem_of_plainEscape? hplain) (ih hescaped)
      · exact absurd hescaped (by simp)

/-! ## Numbers -/

theorem Json.Digits.append {s u t : Bytes} (h : Json.Digits s u) (rest : Json.Digits u t) :
    Json.Digits s t := by
  induction h with
  | one digit => exact .more digit rest
  | more digit _ ih => exact .more digit (ih rest)

/-- After a digit all digits that follow can be taken off. -/
theorem Json.digits_dropWhile {b : UInt8} (digit : Json.isDigit b = true) (s : Bytes) :
    Json.Digits (b :: s) (s.dropWhile Json.isDigit) := by
  induction s generalizing b with
  | nil => exact .one digit
  | cons c s ih =>
    rw [List.dropWhile_cons]
    split
    · rename_i hc
      exact .more digit (ih hc)
    · exact .one digit

/-- Digits that are counted are taken off. -/
theorem Json.countDigits_cases (s : Bytes) :
    (Json.countDigits s).1 = 0 ∧ (Json.countDigits s).2 = s ∨
      0 < (Json.countDigits s).1 ∧ Json.Digits s (Json.countDigits s).2 := by
  unfold Json.countDigits
  cases s with
  | nil => exact .inl ⟨rfl, rfl⟩
  | cons b s =>
    by_cases digit : Json.isDigit b = true
    · right
      rw [List.takeWhile_cons_of_pos digit, List.dropWhile_cons_of_pos digit]
      exact ⟨Nat.succ_pos _, Json.digits_dropWhile digit s⟩
    · left
      rw [List.takeWhile_cons_of_neg digit, List.dropWhile_cons_of_neg digit]
      exact ⟨rfl, rfl⟩

/-- Digits that are taken into a significand are taken off. -/
theorem Json.takeDigits_cases (m n : Nat) (s : Bytes) :
    (Json.takeDigits m n s).2.1 = n ∧ (Json.takeDigits m n s).2.2 = s ∨
      n < (Json.takeDigits m n s).2.1 ∧ Json.Digits s (Json.takeDigits m n s).2.2 := by
  induction s generalizing m n with
  | nil => exact .inl ⟨rfl, rfl⟩
  | cons b s ih =>
    rw [Json.takeDigits]
    split
    · rename_i hfits
      right
      rcases ih (m * 10 + (b.toNat - 0x30)) (n + 1) with ⟨hcount, hrest⟩ | ⟨hcount, hdigits⟩
      · rw [hcount, hrest]
        exact ⟨Nat.lt_succ_self n, .one hfits.1⟩
      · exact ⟨Nat.lt_of_succ_lt hcount, .more hfits.1 hdigits⟩
    · exact .inl ⟨rfl, rfl⟩

/-- Reading an exponent after its mark takes it off. -/
theorem Json.exponent_of_readExponent {negative : Bool} {m : Nat} {start : Int} {mark : UInt8}
    {s t : Bytes} {x : Binary64} (isMark : mark ∈ ([0x65, 0x45] : Bytes))
    (h : Json.readExponent negative m start s = .ok (x, t)) : Json.Exponent (mark :: s) t := by
  unfold Json.readExponent at h
  split at h
  rename_i down u hsign
  -- After the sign, if there is one, there are digits, and all of them are taken off.
  have hdigits : Json.Digits u t := by
    split at h
    · exact absurd h (by simp)
    · rename_i b u'
      split at h
      · exact absurd h (by simp)
      · rename_i hdigit
        have digit : Json.isDigit b = true := by simpa using hdigit
        have rest := Json.digits_dropWhile digit u'
        rw [← List.dropWhile_cons_of_pos digit] at rest
        dsimp only at h
        split at h
        · obtain ⟨_, -, hpair⟩ := map_eq_ok_iff.1 h
          obtain ⟨-, rfl⟩ := Prod.mk.inj hpair
          exact rest
        · split at h
          · exact absurd h (by simp)
          · obtain ⟨-, rfl⟩ := Prod.mk.inj (Except.ok.inj h)
            exact rest
  split at hsign
  · obtain ⟨-, rfl⟩ := Prod.mk.inj hsign
    exact .signed isMark (by decide) hdigits
  · obtain ⟨-, rfl⟩ := Prod.mk.inj hsign
    exact .signed isMark (by decide) hdigits
  · obtain ⟨-, rfl⟩ := Prod.mk.inj hsign
    exact .plain isMark hdigits

/-- The end of a number is an exponent, or nothing. -/
theorem Json.exponent_of_finishNumber {negative : Bool} {m : Nat} {e : Int} {s t : Bytes}
    {x : Binary64} (h : Json.finishNumber negative m e s = .ok (x, t)) : Json.Exponent s t := by
  unfold Json.finishNumber at h
  split at h
  · exact Json.exponent_of_readExponent (by decide) h
  · exact Json.exponent_of_readExponent (by decide) h
  · obtain ⟨_, -, hpair⟩ := map_eq_ok_iff.1 h
    obtain ⟨-, rfl⟩ := Prod.mk.inj hpair
    exact .none

/-- What follows the whole part of a number. -/
def Json.NumberEnd (s t : Bytes) : Prop := ∃ u, Json.Fraction s u ∧ Json.Exponent u t

/-- Reading a fraction after its point takes off the rest of a number. -/
theorem Json.numberEnd_of_readFraction {negative : Bool} {m : Nat} {e : Int} {s t : Bytes}
    {x : Binary64} (h : Json.readFraction negative m e s = .ok (x, t)) :
    Json.NumberEnd (0x2E :: s) t := by
  unfold Json.readFraction at h
  have htaken := Json.takeDigits_cases m 0 s
  generalize Json.takeDigits m 0 s = p at h htaken
  obtain ⟨m', taken, u⟩ := p
  dsimp only at h htaken
  have hbeyond := Json.countDigits_cases u
  generalize Json.countDigits u = q at h hbeyond
  obtain ⟨beyond, v⟩ := q
  dsimp only at h hbeyond
  split at h
  · exact absurd h (by simp)
  · rename_i hsome
    refine ⟨v, .digits ?_, Json.exponent_of_finishNumber h⟩
    rcases htaken with ⟨hzero, rfl⟩ | ⟨-, hdigits⟩
    · rcases hbeyond with ⟨hzero', -⟩ | ⟨-, hdigits⟩
      · exact absurd ⟨hzero, hzero'⟩ hsome
      · exact hdigits
    · rcases hbeyond with ⟨-, rfl⟩ | ⟨-, hmore⟩
      · exact hdigits
      · exact hdigits.append hmore

/-- The digits at the front of a number are its whole part, if the first is not zero. -/
theorem Json.wholePart_of_takeDigits {b : UInt8} {s : Bytes} (digit : Json.isDigit b = true)
    (lead : b ≠ 0x30) :
    Json.WholePart (b :: s) (Json.countDigits (Json.takeDigits 0 0 (b :: s)).2.2).2 := by
  refine .digits lead ?_
  rcases Json.takeDigits_cases 0 0 (b :: s) with ⟨-, hrest⟩ | ⟨-, hdigits⟩
  · rw [hrest]
    unfold Json.countDigits
    rw [List.dropWhile_cons_of_pos digit]
    exact Json.digits_dropWhile digit s
  · rcases Json.countDigits_cases (Json.takeDigits 0 0 (b :: s)).2.2 with ⟨-, hrest⟩ | ⟨-, hmore⟩
    · rw [hrest]
      exact hdigits
    · exact hdigits.append hmore

/-- Whether a value is a number. -/
inductive Json.IsNumber : Json → Prop
  | int (n : Int) : Json.IsNumber (.int n)
  | float (x : Binary64) : Json.IsNumber (.float x)

/-- Reading a number takes off a number. -/
theorem Json.unsigned_of_readNumber {negative : Bool} {s t : Bytes} {v : Json}
    (h : Json.readNumber negative s = .ok (v, t)) : Json.Unsigned s t ∧ v.IsNumber := by
  have float : ∀ {r : Except Json.Fault (Binary64 × Bytes)},
      (r.map fun p => (Json.float p.1, p.2)) = .ok (v, t) →
        (∃ x, r = .ok (x, t)) ∧ v.IsNumber := by
    intro r hr
    obtain ⟨⟨x, t'⟩, hread, hpair⟩ := map_eq_ok_iff.1 hr
    obtain ⟨rfl, rfl⟩ := Prod.mk.inj hpair
    exact ⟨⟨x, hread⟩, .float x⟩
  unfold Json.readNumber at h
  split at h
  · exact absurd h (by simp)
  · rename_i b tail
    split at h
    · exact absurd h (by simp)
    · rename_i hdigit
      have digit : Json.isDigit b = true := by simpa using hdigit
      split at h
      rename_i m taken u hfirst
      split at h
      rename_i beyond w hsecond
      have hwhole : Json.WholePart (b :: tail) w := by
        by_cases hzero : b = 0x30
        · rw [if_pos hzero] at hfirst hsecond
          obtain ⟨-, htail⟩ := Prod.mk.inj hfirst
          obtain ⟨-, rfl⟩ := Prod.mk.inj htail
          obtain ⟨-, rfl⟩ := Prod.mk.inj hsecond
          exact hzero ▸ .zero
        · rw [if_neg hzero] at hfirst hsecond
          have htaken := Json.wholePart_of_takeDigits (s := tail) digit hzero
          rw [hfirst, hsecond] at htaken
          exact htaken
      suffices hend : Json.NumberEnd w t ∧ v.IsNumber by
        obtain ⟨⟨u, hfraction, hexponent⟩, isNumber⟩ := hend
        exact ⟨⟨w, u, hwhole, hfraction, hexponent⟩, isNumber⟩
      dsimp only at h
      split at h
      · obtain ⟨⟨x, hread⟩, isNumber⟩ := float h
        exact ⟨Json.numberEnd_of_readFraction hread, isNumber⟩
      · obtain ⟨⟨x, hread⟩, isNumber⟩ := float h
        exact ⟨⟨_, .none, Json.exponent_of_readExponent (by decide) hread⟩, isNumber⟩
      · obtain ⟨⟨x, hread⟩, isNumber⟩ := float h
        exact ⟨⟨_, .none, Json.exponent_of_readExponent (by decide) hread⟩, isNumber⟩
      · -- Nothing follows the whole part.
        suffices hall : w = t ∧ v.IsNumber by
          obtain ⟨rfl, isNumber⟩ := hall
          exact ⟨⟨w, .none, .none⟩, isNumber⟩
        split at h
        · exact absurd h (by simp)
        · split at h
          · obtain ⟨⟨x, hread⟩, isNumber⟩ := float h
            obtain ⟨_, -, hpair⟩ := map_eq_ok_iff.1 hread
            exact ⟨(Prod.mk.inj hpair).2, isNumber⟩
          · split at h
            · obtain ⟨rfl, rfl⟩ := Prod.mk.inj (Except.ok.inj h)
              exact ⟨rfl, .int _⟩
            · split at h
              · obtain ⟨⟨x, hread⟩, isNumber⟩ := float h
                exact ⟨(Prod.mk.inj (Except.ok.inj hread)).2, isNumber⟩
              · obtain ⟨rfl, rfl⟩ := Prod.mk.inj (Except.ok.inj h)
                exact ⟨rfl, .int _⟩

/-- Passing over digits takes them off. -/
theorem Json.digits_of_skipDigits {s t : Bytes} (h : Json.skipDigits s = .ok t) :
    Json.Digits s t := by
  unfold Json.skipDigits at h
  cases s with
  | nil => exact absurd h (by simp)
  | cons b s =>
    split at h
    · rename_i hdigit
      have digit : Json.isDigit b = true := hdigit
      obtain rfl := Except.ok.inj h
      rw [List.dropWhile_cons_of_pos digit]
      exact Json.digits_dropWhile digit s
    · exact absurd h (by simp)

theorem Json.exponent_of_skipExponent {mark : UInt8} {s t : Bytes}
    (isMark : mark ∈ ([0x65, 0x45] : Bytes)) (h : Json.skipExponent s = .ok t) :
    Json.Exponent (mark :: s) t := by
  unfold Json.skipExponent at h
  split at h
  · exact .signed isMark (by decide) (Json.digits_of_skipDigits h)
  · exact .signed isMark (by decide) (Json.digits_of_skipDigits h)
  · exact .plain isMark (Json.digits_of_skipDigits h)

theorem Json.exponent_of_skipNumberEnd {s t : Bytes} (h : Json.skipNumberEnd s = .ok t) :
    Json.Exponent s t := by
  unfold Json.skipNumberEnd at h
  split at h
  · exact Json.exponent_of_skipExponent (by decide) h
  · exact Json.exponent_of_skipExponent (by decide) h
  · obtain rfl := Except.ok.inj h
    exact .none

/-- Passing over a number takes off a number. -/
theorem Json.unsigned_of_skipNumber {s t : Bytes} (h : Json.skipNumber s = .ok t) :
    Json.Unsigned s t := by
  unfold Json.skipNumber at h
  split at h
  · exact absurd h (by simp)
  · rename_i b tail
    split at h
    · exact absurd h (by simp)
    · rename_i hdigit
      have digit : Json.isDigit b = true := by simpa using hdigit
      have hwhole : Json.WholePart (b :: tail)
          (if b = 0x30 then tail else (b :: tail).dropWhile Json.isDigit) := by
        split
        · rename_i hzero
          exact hzero ▸ .zero
        · rename_i hlead
          rw [List.dropWhile_cons_of_pos digit]
          exact .digits hlead (Json.digits_dropWhile digit tail)
      dsimp only at h
      generalize (if b = 0x30 then tail else (b :: tail).dropWhile Json.isDigit) = u at h hwhole
      split at h
      · exact absurd h (by simp)
      · unfold Json.skipFraction at h
        split at h
        · obtain ⟨v, hdigits, hend⟩ := bind_eq_ok_iff.1 h
          exact ⟨_, v, hwhole, .digits (Json.digits_of_skipDigits hdigits),
            Json.exponent_of_skipNumberEnd hend⟩
        · exact ⟨_, _, hwhole, .none, Json.exponent_of_skipNumberEnd h⟩

end Courier
