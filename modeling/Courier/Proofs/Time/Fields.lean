import Mathlib.Algebra.Group.Nat.Defs
import Courier.Time.HttpDate
import Courier.Proofs.Json.Grammar
import Courier.Proofs.Time.Calendar

set_option autoImplicit false

/-! # The fields that a reading takes

Each reader takes a piece from the front of the text: what it took and what the number is that it
gives. From that, which fields a whole reading can give: those of the time lie in their bounds
(`HttpDate.time_of_readFields`), and where four digits stand between two spaces of the text, these are
the year, since no other field takes four digits and a sign leaves no space before them
(`HttpDate.year_of_readFields`). -/

namespace Courier

/-! ## Numbers -/

theorem digit_bounds {c : Char} (h : c.isDigit = true) : 48 ≤ c.val ∧ c.val ≤ 57 := by
  rw [Char.isDigit, Bool.and_eq_true, decide_eq_true_eq, decide_eq_true_eq] at h
  exact h

theorem HttpDate.digitRun_taken {acc most n : Nat} {s rest : List Char}
    (h : HttpDate.digitRun acc most s = (n, rest)) :
    ∃ taken : List Char, s = taken ++ rest ∧ (∀ c ∈ taken, c.isDigit = true) ∧
      taken.length ≤ most ∧ n < (acc + 1) * 10 ^ taken.length := by
  induction most generalizing acc s with
  | zero =>
    have hstop : HttpDate.digitRun acc 0 s = (acc, s) := by cases s <;> rfl
    rw [hstop] at h
    obtain ⟨rfl, rfl⟩ := Prod.mk.inj h
    exact ⟨[], rfl, by simp, Nat.le_refl 0, by simp⟩
  | succ most ih =>
    cases s with
    | nil =>
      obtain ⟨rfl, rfl⟩ := Prod.mk.inj h
      exact ⟨[], rfl, by simp, Nat.zero_le _, by simp⟩
    | cons c s =>
      rw [HttpDate.digitRun] at h
      split at h
      · rename_i hdigit
        obtain ⟨taken, rfl, hdigits, hlen, hlt⟩ := ih h
        refine ⟨c :: taken, rfl, List.forall_mem_cons.2 ⟨hdigit, hdigits⟩,
          Nat.succ_le_succ hlen, Nat.lt_of_lt_of_le hlt ?_⟩
        have hvalue : c.toNat ≤ 57 := (digit_bounds hdigit).2
        rw [List.length_cons, Nat.pow_succ, Nat.mul_comm (10 ^ _) 10, ← Nat.mul_assoc]
        exact Nat.mul_le_mul_right _ (by omega)
      · obtain ⟨rfl, rfl⟩ := Prod.mk.inj h
        exact ⟨[], rfl, by simp, Nat.zero_le _, by simp⟩

/-- A number takes at most as many digits as it may. -/
theorem HttpDate.number_taken {most n : Nat} {s rest : List Char}
    (h : HttpDate.number most s = .ok (n, rest)) :
    ∃ taken : List Char, s = taken ++ rest ∧ (∀ c ∈ taken, c.isDigit = true) ∧
      taken.length ≤ most ∧ n < 10 ^ taken.length := by
  unfold HttpDate.number at h
  split at h
  · cases h
  · split at h
    · dsimp only at h
      split at h
      · obtain ⟨taken, heq, hdigits, hlen, hlt⟩ := HttpDate.digitRun_taken (Prod.ext rfl rfl)
        obtain ⟨rfl, rfl⟩ := Prod.mk.inj (Except.ok.inj h)
        exact ⟨taken, heq, hdigits, hlen, by simpa using hlt⟩
      · cases h
    · cases h

theorem HttpDate.field_taken {low high n : Nat} {s rest : List Char}
    (h : HttpDate.field low high s = .ok (n, rest)) :
    (∃ taken : List Char, Blank.trimStart s = taken ++ rest ∧ (∀ c ∈ taken, c.isDigit = true) ∧
      taken.length ≤ 2) ∧ low ≤ n ∧ n ≤ high := by
  unfold HttpDate.field at h
  obtain ⟨⟨m, t⟩, hnumber, h⟩ := bind_eq_ok_iff.1 h
  dsimp only at h
  split at h
  · rename_i hbounds
    obtain ⟨rfl, rfl⟩ := Prod.mk.inj (Except.ok.inj h)
    obtain ⟨taken, heq, hdigits, hlen, -⟩ := HttpDate.number_taken hnumber
    exact ⟨⟨taken, heq, hdigits, hlen⟩, hbounds⟩
  · cases h

theorem toLower_of_isDigit {c : Char} (h : c.isDigit = true) : c.toLower = c := by
  unfold Char.toLower
  refine dif_neg (fun hupper => ?_)
  have hlow : 65 ≤ c.val := hupper.1
  exact absurd (UInt32.le_trans hlow (digit_bounds h).2) (by decide)

/-- A name takes its three letters. -/
theorem HttpDate.nameField_taken {names : List String} {i : Nat} {s rest : List Char}
    (hnames : (names.all fun name => name.toList.all fun c => c.toLower.isLower) = true)
    (h : HttpDate.nameField names s = .ok (i, rest)) :
    ∃ taken : List Char, s = taken ++ rest ∧ taken ≠ [] ∧
      ∀ c ∈ taken, c.toLower.isLower = true := by
  unfold HttpDate.nameField at h
  split at h
  · cases h
  · rename_i hoctets
    dsimp only at h
    split at h
    · rename_i place hfind
      obtain ⟨hplace, rfl⟩ := Prod.mk.inj (Except.ok.inj h)
      subst hplace
      refine ⟨s.take 3, (List.take_append_drop 3 s).symm, fun hnil => ?_, fun c hc => ?_⟩
      · rw [List.take_eq_nil_iff, or_iff_right (by decide)] at hnil
        exact hoctets (by rw [hnil]; decide)
      obtain ⟨hlt, hname, -⟩ := List.findIdx?_eq_some_iff_getElem.1 hfind
      have hlower : c.toLower ∈ (names[place].toList).map Char.toLower := by
        rw [eq_of_beq hname]
        exact List.mem_map_of_mem hc
      obtain ⟨d, hd, heq⟩ := List.mem_map.1 hlower
      rw [← heq]
      exact List.all_eq_true.1 (List.all_eq_true.1 hnames _ (List.getElem_mem hlt)) d hd
    · cases h

theorem HttpDate.mark_taken {c : Char} {s rest : List Char}
    (h : HttpDate.mark c s = .ok rest) : s = c :: rest := by
  unfold HttpDate.mark at h
  split at h
  · cases h
  · split at h
    · rename_i heq
      rw [heq, Except.ok.inj h]
    · cases h

/-! ## The order of the fields -/

/-- The texts between the fields of a reading that comes to an end. -/
structure HttpDate.Reading (s : List Char) (f : HttpDate.Fields) where
  afterWeekday : List Char
  afterComma : List Char
  afterDay : List Char
  afterMonth : List Char
  afterYear : List Char
  afterHour : List Char
  afterHourMark : List Char
  afterMinute : List Char
  afterMinuteMark : List Char
  weekday : HttpDate.nameField Date.weekdayNames s = .ok (f.weekday, afterWeekday)
  comma : HttpDate.mark ',' afterWeekday = .ok afterComma
  day : HttpDate.field 1 31 afterComma = .ok (f.date.day, afterDay)
  month : HttpDate.nameField Date.monthNames (Blank.trimStart afterDay) =
    .ok (f.date.month - 1, afterMonth)
  year : HttpDate.yearField afterMonth = .ok (f.date.year, afterYear)
  hour : HttpDate.field 0 23 afterYear = .ok (f.hour, afterHour)
  hourMark : HttpDate.mark ':' afterHour = .ok afterHourMark
  minute : HttpDate.field 0 59 afterHourMark = .ok (f.minute, afterMinute)
  minuteMark : HttpDate.mark ':' afterMinute = .ok afterMinuteMark
  second : HttpDate.field 0 60 afterMinuteMark = .ok (f.second, [])

theorem HttpDate.exists_reading {s : List Char} {f : HttpDate.Fields}
    (h : HttpDate.readFields s = .ok f) : Nonempty (HttpDate.Reading s f) := by
  unfold HttpDate.readFields at h
  obtain ⟨⟨weekday, s1⟩, hweekday, h⟩ := bind_eq_ok_iff.1 h
  obtain ⟨s2, hcomma, h⟩ := bind_eq_ok_iff.1 h
  obtain ⟨⟨day, s3⟩, hday, h⟩ := bind_eq_ok_iff.1 h
  obtain ⟨⟨month, s4⟩, hmonth, h⟩ := bind_eq_ok_iff.1 h
  obtain ⟨⟨year, s5⟩, hyear, h⟩ := bind_eq_ok_iff.1 h
  obtain ⟨⟨hour, s6⟩, hhour, h⟩ := bind_eq_ok_iff.1 h
  obtain ⟨s7, hhourMark, h⟩ := bind_eq_ok_iff.1 h
  obtain ⟨⟨minute, s8⟩, hminute, h⟩ := bind_eq_ok_iff.1 h
  obtain ⟨s9, hminuteMark, h⟩ := bind_eq_ok_iff.1 h
  obtain ⟨⟨second, s10⟩, hsecond, h⟩ := bind_eq_ok_iff.1 h
  dsimp only at h
  split at h
  · rename_i hend
    rw [List.isEmpty_iff.1 hend] at hsecond
    cases Except.ok.inj h
    exact ⟨⟨s1, s2, s3, s4, s5, s6, s7, s8, s9, hweekday, hcomma, hday, hmonth, hyear, hhour,
      hhourMark, hminute, hminuteMark, hsecond⟩⟩
  · cases h

/-! ## The place of the year -/

theorem isBlank_eq_false_of_isDigit {c : Char} (h : c.isDigit = true) : isBlank c = false := by
  have hlow : 48 ≤ c.toNat := (digit_bounds h).1
  have hhigh : c.toNat ≤ 57 := (digit_bounds h).2
  simp [isBlank]
  omega

/-- A text at whose front stands a digit. -/
def HttpDate.StartsWithDigit (s : List Char) : Prop :=
  ∃ (c : Char) (rest : List Char), s = c :: rest ∧ c.isDigit = true

/-- A text at whose front stand four digits. -/
def HttpDate.StartsWithYear (s : List Char) : Prop :=
  ∃ word rest : List Char, s = word ++ rest ∧ HttpDate.isFourDigits word = true

/-- A text with four digits behind one of its spaces. -/
def HttpDate.HoldsYear (s : List Char) : Prop :=
  ∃ before after : List Char, s = before ++ ' ' :: after ∧ HttpDate.StartsWithYear after

theorem HttpDate.startsWithDigit_of_year {s : List Char} (h : HttpDate.StartsWithYear s) :
    HttpDate.StartsWithDigit s := by
  obtain ⟨word, rest, rfl, hword⟩ := h
  rw [HttpDate.isFourDigits, Bool.and_eq_true, beq_iff_eq, List.all_eq_true] at hword
  obtain ⟨c, word, rfl⟩ := List.exists_cons_of_ne_nil
    (List.ne_nil_of_length_pos (by omega : 0 < word.length))
  exact ⟨c, word ++ rest, rfl, hword.2 c List.mem_cons_self⟩

/-- Fewer than four characters leave a digit of four. -/
theorem HttpDate.startsWithDigit_of_append {taken s : List Char} (hlen : taken.length < 4)
    (h : HttpDate.StartsWithYear (taken ++ s)) : HttpDate.StartsWithDigit s := by
  obtain ⟨word, rest, heq, hword⟩ := h
  rw [HttpDate.isFourDigits, Bool.and_eq_true, beq_iff_eq, List.all_eq_true] at hword
  obtain ⟨left, rfl, rfl⟩ | ⟨left, rfl, -⟩ := List.append_eq_append_iff.1 heq
  · rw [List.length_append] at hword
    obtain ⟨c, left, rfl⟩ := List.exists_cons_of_ne_nil
      (List.ne_nil_of_length_pos (by omega : 0 < left.length))
    exact ⟨c, left ++ rest, rfl, hword.2 c (List.mem_append_right _ List.mem_cons_self)⟩
  · rw [List.length_append] at hlen
    omega

theorem HttpDate.holdsYear_of_append (taken : List Char) {s : List Char} (htaken : ' ' ∉ taken)
    (h : HttpDate.HoldsYear (taken ++ s)) : HttpDate.HoldsYear s := by
  induction taken with
  | nil => exact h
  | cons c taken ih =>
    obtain ⟨before, after, heq, hafter⟩ := h
    cases before with
    | nil => exact absurd (List.cons.inj heq).1 (fun hc => htaken (hc ▸ List.mem_cons_self))
    | cons d before =>
      exact ih (fun hmem => htaken (List.mem_cons_of_mem _ hmem))
        ⟨before, after, (List.cons.inj heq).2, hafter⟩

theorem HttpDate.trimStart_of_startsWithDigit {s : List Char}
    (h : HttpDate.StartsWithDigit s) : Blank.trimStart s = s := by
  obtain ⟨c, rest, rfl, hdigit⟩ := h
  exact List.dropWhile_cons_of_neg (by simp [isBlank_eq_false_of_isDigit hdigit])

/-- When the blanks in front go, the four digits stand behind another space or at the front. -/
theorem HttpDate.trimStart_of_holdsYear {s : List Char} (h : HttpDate.HoldsYear s) :
    HttpDate.HoldsYear (Blank.trimStart s) ∨ HttpDate.StartsWithYear (Blank.trimStart s) := by
  induction s with
  | nil =>
    obtain ⟨before, after, heq, -⟩ := h
    exact absurd heq (by simp)
  | cons c s ih =>
    by_cases hblank : isBlank c = true
    · have htrim : Blank.trimStart (c :: s) = Blank.trimStart s :=
        List.dropWhile_cons_of_pos hblank
      rw [htrim]
      obtain ⟨before, after, heq, hafter⟩ := h
      cases before with
      | nil =>
        rw [(List.cons.inj heq).2,
          HttpDate.trimStart_of_startsWithDigit (HttpDate.startsWithDigit_of_year hafter)]
        exact .inr hafter
      | cons d before => exact ih ⟨before, after, (List.cons.inj heq).2, hafter⟩
    · have htrim : Blank.trimStart (c :: s) = c :: s := List.dropWhile_cons_of_neg hblank
      rw [htrim]
      exact .inl h

/-! ### What each reader leaves of it -/

theorem HttpDate.space_not_mem_of_digits {taken : List Char}
    (h : ∀ c ∈ taken, c.isDigit = true) : ' ' ∉ taken :=
  fun hmem => absurd (h _ hmem) (by decide)

theorem HttpDate.nameField_holdsYear {names : List String} {i : Nat} {s rest : List Char}
    (hnames : (names.all fun name => name.toList.all fun c => c.toLower.isLower) = true)
    (h : HttpDate.nameField names s = .ok (i, rest)) (hyear : HttpDate.HoldsYear s) :
    HttpDate.HoldsYear rest := by
  obtain ⟨taken, rfl, -, hletters⟩ := HttpDate.nameField_taken hnames h
  exact HttpDate.holdsYear_of_append taken
    (fun hmem => absurd (hletters _ hmem) (by decide)) hyear

/-- No name starts with a digit. -/
theorem HttpDate.not_nameField_of_digit {names : List String} {i : Nat} {s rest : List Char}
    (hnames : (names.all fun name => name.toList.all fun c => c.toLower.isLower) = true)
    (h : HttpDate.nameField names s = .ok (i, rest)) : ¬HttpDate.StartsWithDigit s := by
  rintro ⟨c, tail, rfl, hdigit⟩
  obtain ⟨taken, heq, hne, hletters⟩ := HttpDate.nameField_taken hnames h
  obtain ⟨d, taken, rfl⟩ := List.exists_cons_of_ne_nil hne
  obtain ⟨rfl, -⟩ := List.cons.inj heq
  have hlower := hletters c List.mem_cons_self
  rw [toLower_of_isDigit hdigit] at hlower
  have hlow : 97 ≤ c.val := of_decide_eq_true (Bool.and_eq_true_iff.1 hlower).1
  exact absurd (UInt32.le_trans hlow (digit_bounds hdigit).2) (by decide)

/-- A number field leaves the four digits where they are, or leaves some of them behind it. -/
theorem HttpDate.field_holdsYear {low high n : Nat} {s rest : List Char}
    (h : HttpDate.field low high s = .ok (n, rest)) (hyear : HttpDate.HoldsYear s) :
    HttpDate.HoldsYear rest ∨ HttpDate.StartsWithDigit rest := by
  obtain ⟨⟨taken, heq, hdigits, hlen⟩, -⟩ := HttpDate.field_taken h
  obtain hholds | hstarts := HttpDate.trimStart_of_holdsYear hyear
  · rw [heq] at hholds
    exact .inl (HttpDate.holdsYear_of_append taken (HttpDate.space_not_mem_of_digits hdigits) hholds)
  · rw [heq] at hstarts
    exact .inr (HttpDate.startsWithDigit_of_append (by omega) hstarts)

/-- What follows a number field and a mark of the time. -/
theorem HttpDate.field_mark_holdsYear {low high n : Nat} {s rest rest' : List Char}
    (h : HttpDate.field low high s = .ok (n, rest)) (hmark : HttpDate.mark ':' rest = .ok rest')
    (hyear : HttpDate.HoldsYear s) : HttpDate.HoldsYear rest' := by
  obtain hholds | ⟨c, tail, rfl, hdigit⟩ := HttpDate.field_holdsYear h hyear
  · rw [HttpDate.mark_taken hmark] at hholds
    exact HttpDate.holdsYear_of_append [':'] (by decide) hholds
  · rw [(List.cons.inj (HttpDate.mark_taken hmark)).1] at hdigit
    exact absurd hdigit (by decide)

/-- A year with a sign is not read from the four digits; one without a sign has four at most. -/
theorem HttpDate.signedYear_holdsYear {year : Int} {s rest : List Char}
    (h : HttpDate.signedYear s = .ok (year, rest)) (hyear : HttpDate.HoldsYear s) :
    HttpDate.HoldsYear rest ∨ (0 ≤ year ∧ year ≤ 9999) := by
  have hsign : ∀ (c : Char) (t : List Char) (m n : Nat), Blank.trimStart s = c :: t → c ≠ ' ' →
      c.isDigit = false → HttpDate.number m t = .ok (n, rest) → HttpDate.HoldsYear rest := by
    intro c t m n htrim hspace hdigit hnumber
    obtain ⟨taken, rfl, hdigits, -⟩ := HttpDate.number_taken hnumber
    obtain hholds | hstarts := HttpDate.trimStart_of_holdsYear hyear
    · rw [htrim] at hholds
      exact HttpDate.holdsYear_of_append (c :: taken)
        (List.not_mem_cons_of_ne_of_not_mem (Ne.symm hspace)
          (HttpDate.space_not_mem_of_digits hdigits)) hholds
    · obtain ⟨d, tail, heq, hd⟩ := HttpDate.startsWithDigit_of_year hstarts
      rw [htrim] at heq
      rw [(List.cons.inj heq).1, hd] at hdigit
      cases hdigit
  unfold HttpDate.signedYear at h
  split at h
  · rename_i t htrim
    obtain ⟨p, hnumber, heq⟩ := map_eq_ok_iff.1 h
    obtain ⟨-, rfl⟩ := Prod.mk.inj heq
    exact .inl (hsign '-' t _ p.1 htrim (by decide) (by decide) hnumber)
  · rename_i t htrim
    obtain ⟨p, hnumber, heq⟩ := map_eq_ok_iff.1 h
    obtain ⟨-, rfl⟩ := Prod.mk.inj heq
    exact .inl (hsign '+' t _ p.1 htrim (by decide) (by decide) hnumber)
  · obtain ⟨p, hnumber, heq⟩ := map_eq_ok_iff.1 h
    obtain ⟨rfl, -⟩ := Prod.mk.inj heq
    obtain ⟨taken, -, -, hlen, hlt⟩ := HttpDate.number_taken hnumber
    have hpow : 10 ^ taken.length ≤ 10 ^ 4 := Nat.pow_le_pow_right (by decide) hlen
    exact .inr (by omega)

theorem HttpDate.yearField_holdsYear {year : Int} {s rest : List Char}
    (h : HttpDate.yearField s = .ok (year, rest)) (hyear : HttpDate.HoldsYear s) :
    HttpDate.HoldsYear rest ∨ (0 ≤ year ∧ year ≤ 9999) := by
  unfold HttpDate.yearField at h
  obtain ⟨p, hsigned, h⟩ := bind_eq_ok_iff.1 h
  dsimp only at h
  split at h
  · obtain ⟨rfl, rfl⟩ := Prod.mk.inj (Except.ok.inj h)
    exact HttpDate.signedYear_holdsYear hsigned hyear
  · cases h

/-! ## Readings -/

/-- Where four digits stand behind a space, the year has four digits at most. -/
theorem HttpDate.year_of_readFields {s : List Char} {f : HttpDate.Fields}
    (h : HttpDate.readFields s = .ok f) (hyear : HttpDate.HoldsYear s) :
    0 ≤ f.date.year ∧ f.date.year ≤ 9999 := by
  obtain ⟨r⟩ := HttpDate.exists_reading h
  have hafterWeekday := HttpDate.nameField_holdsYear (by decide +kernel) r.weekday hyear
  rw [HttpDate.mark_taken r.comma] at hafterWeekday
  have hafterComma : HttpDate.HoldsYear r.afterComma :=
    HttpDate.holdsYear_of_append [','] (by decide) hafterWeekday
  have hmonth : HttpDate.HoldsYear (Blank.trimStart r.afterDay) := by
    have hno := HttpDate.not_nameField_of_digit (by decide +kernel) r.month
    obtain hholds | hstarts := HttpDate.field_holdsYear r.day hafterComma
    · obtain hholds | hstarts := HttpDate.trimStart_of_holdsYear hholds
      · exact hholds
      · exact absurd (HttpDate.startsWithDigit_of_year hstarts) hno
    · rw [HttpDate.trimStart_of_startsWithDigit hstarts] at hno
      exact absurd hstarts hno
  have hafterMonth := HttpDate.nameField_holdsYear (by decide +kernel) r.month hmonth
  obtain hafterYear | hread := HttpDate.yearField_holdsYear r.year hafterMonth
  · -- past the year the time would have to hold the four digits
    have hminute := HttpDate.field_mark_holdsYear r.hour r.hourMark hafterYear
    have hsecond := HttpDate.field_mark_holdsYear r.minute r.minuteMark hminute
    obtain ⟨before, after, heq, -⟩ | ⟨c, tail, heq, -⟩ := HttpDate.field_holdsYear r.second hsecond
    · exact absurd heq (by simp)
    · exact absurd heq (by simp)
  · exact hread

/-- The bounds of the fields of a time. -/
theorem HttpDate.time_of_readFields {s : List Char} {f : HttpDate.Fields}
    (h : HttpDate.readFields s = .ok f) : f.hour < 24 ∧ f.minute < 60 ∧ f.second ≤ 60 := by
  obtain ⟨r⟩ := HttpDate.exists_reading h
  exact ⟨Nat.lt_succ_of_le (HttpDate.field_taken r.hour).2.2,
    Nat.lt_succ_of_le (HttpDate.field_taken r.minute).2.2, (HttpDate.field_taken r.second).2.2⟩

end Courier
