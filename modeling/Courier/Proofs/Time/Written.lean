import Courier.Time.HttpDate
import Courier.Proofs.Time.Calendar
import Courier.Proofs.Time.Fields

set_option autoImplicit false

/-! # Written dates

What an instant is written as: the fields of its date and time, each at its place with a fixed
width. Reading takes the fields off one after another and comes to the same fields
(`HttpDate.Fields.Fits.readFields_text`), and they name the instant again, without its fraction of a
second. The form has no place for a leap second that does not end a minute: the fields of one are
those of the second after it. -/

namespace Courier

/-! ## Digits -/

theorem digitChar_digit {k : Nat} (h : k < 10) :
    (Nat.digitChar k).isDigit = true ∧ (Nat.digitChar k).toNat - 48 = k := by
  have tried : ∀ k : Fin 10, (Nat.digitChar k.val).isDigit = true ∧
      (Nat.digitChar k.val).toNat - 48 = k.val := by decide
  exact tried ⟨k, h⟩

/-- One digit more at the end of a padded number. -/
theorem HttpDate.toList_padded_succ {width : Nat} (hwidth : 0 < width) (n : Nat) :
    (HttpDate.padded (width + 1) n).toList =
      (HttpDate.padded width (n / 10)).toList ++ [Nat.digitChar (n % 10)] := by
  unfold HttpDate.padded
  simp only [String.toList_ofList, Nat.toString_eq_ofList_toDigits]
  by_cases h : n < 10
  · obtain ⟨width, rfl⟩ := Nat.exists_eq_add_of_le' hwidth
    rw [Nat.toDigits_of_lt_base h, Nat.toDigits_of_lt_base (by omega : n / 10 < 10),
      Nat.div_eq_of_lt h, Nat.mod_eq_of_lt h]
    simp [List.replicate_succ']
  · rw [Nat.toDigits_of_base_le (by decide) (Nat.not_lt.1 h), List.length_append,
      List.length_singleton, Nat.add_sub_add_right, List.append_assoc]

theorem HttpDate.toList_padded_one {n : Nat} (h : n < 10) :
    (HttpDate.padded 1 n).toList = [Nat.digitChar n] := by
  unfold HttpDate.padded
  simp only [String.toList_ofList, Nat.toString_eq_ofList_toDigits, Nat.toDigits_of_lt_base h]
  rfl

theorem HttpDate.toList_padded_two {n : Nat} (h : n < 100) :
    (HttpDate.padded 2 n).toList = [Nat.digitChar (n / 10), Nat.digitChar (n % 10)] := by
  rw [HttpDate.toList_padded_succ (by decide), HttpDate.toList_padded_one (by omega)]
  rfl

theorem HttpDate.toList_padded_four {n : Nat} (h : n < 10000) :
    (HttpDate.padded 4 n).toList =
      [Nat.digitChar (n / 1000), Nat.digitChar (n / 100 % 10), Nat.digitChar (n / 10 % 10),
        Nat.digitChar (n % 10)] := by
  rw [HttpDate.toList_padded_succ (by decide), HttpDate.toList_padded_succ (by decide),
    HttpDate.toList_padded_two (by omega), show n / 10 / 10 / 10 = n / 1000 by omega,
    show n / 10 / 10 % 10 = n / 100 % 10 by omega]
  rfl

theorem HttpDate.isDigit_of_mem_padded {width n : Nat} {c : Char}
    (h : c ∈ (HttpDate.padded width n).toList) : c.isDigit = true := by
  unfold HttpDate.padded at h
  rw [String.toList_ofList, List.mem_append, Nat.toString_eq_ofList_toDigits,
    String.toList_ofList] at h
  obtain h | h := h
  · rw [List.eq_of_mem_replicate h]
    rfl
  · exact Nat.isDigit_of_mem_toDigits (by decide) (by decide) h

/-! ## Numbers that are read -/

theorem HttpDate.digitRun_digit {k : Nat} (h : k < 10) (acc most : Nat) (s : List Char) :
    HttpDate.digitRun acc (most + 1) (Nat.digitChar k :: s) =
      HttpDate.digitRun (acc * 10 + k) most s := by
  obtain ⟨hdigit, hvalue⟩ := digitChar_digit h
  rw [HttpDate.digitRun, if_pos hdigit, hvalue]

theorem HttpDate.digitRun_zero (acc : Nat) (s : List Char) :
    HttpDate.digitRun acc 0 s = (acc, s) := by
  cases s <;> rfl

/-- A number whose first character is a digit. -/
theorem HttpDate.number_digit {most n : Nat} {c : Char} {s rest : List Char}
    (hc : c.isDigit = true) (hrun : HttpDate.digitRun 0 most (c :: s) = (n, rest))
    (hn : n < 10000) : HttpDate.number most (c :: s) = .ok (n, rest) := by
  unfold HttpDate.number
  dsimp only
  rw [if_pos hc, hrun]
  exact if_pos (by omega)

/-- What has two digits is read as a number of two digits, whatever follows. -/
theorem HttpDate.number_padded_two {n : Nat} (h : n < 100) (s : List Char) :
    HttpDate.number 2 ((HttpDate.padded 2 n).toList ++ s) = .ok (n, s) := by
  rw [HttpDate.toList_padded_two h, List.cons_append, List.cons_append, List.nil_append]
  refine HttpDate.number_digit (digitChar_digit (by omega)).1 ?_ (by omega)
  rw [HttpDate.digitRun_digit (by omega), HttpDate.digitRun_digit (by omega),
    HttpDate.digitRun_zero]
  congr 1
  omega

theorem HttpDate.number_padded_four {n : Nat} (h : n < 10000) (s : List Char) :
    HttpDate.number 4 ((HttpDate.padded 4 n).toList ++ s) = .ok (n, s) := by
  rw [HttpDate.toList_padded_four h]
  simp only [List.cons_append, List.nil_append]
  refine HttpDate.number_digit (digitChar_digit (by omega)).1 ?_ h
  rw [HttpDate.digitRun_digit (by omega), HttpDate.digitRun_digit (by omega),
    HttpDate.digitRun_digit (by omega), HttpDate.digitRun_digit (by omega),
    HttpDate.digitRun_zero]
  congr 1
  omega

/-- No blanks stand before a number. -/
theorem HttpDate.trimStart_padded (width n : Nat) (t : List Char) :
    Blank.trimStart ((HttpDate.padded width n).toList ++ t) =
      (HttpDate.padded width n).toList ++ t := by
  have hne : (HttpDate.padded width n).toList ≠ [] := by
    unfold HttpDate.padded
    rw [String.toList_ofList, Nat.toString_eq_ofList_toDigits, String.toList_ofList]
    exact fun h => Nat.toDigits_ne_nil (List.append_eq_nil_iff.1 h).2
  obtain ⟨c, rest, heq⟩ := List.exists_cons_of_ne_nil hne
  have hdigit : c.isDigit = true :=
    HttpDate.isDigit_of_mem_padded (heq ▸ List.mem_cons_self)
  rw [heq]
  exact List.dropWhile_cons_of_neg (by simp [isBlank_eq_false_of_isDigit hdigit])

theorem Blank.trimStart_space (s : List Char) : Blank.trimStart (' ' :: s) = Blank.trimStart s :=
  List.dropWhile_cons_of_pos (by rfl)

/-- A number of two digits in a field. -/
theorem HttpDate.field_padded (low high : Nat) {n : Nat} (h : n < 100) (hlow : low ≤ n) (hhigh : n ≤ high)
    (t : List Char) :
    HttpDate.field low high ((HttpDate.padded 2 n).toList ++ t) = .ok (n, t) := by
  unfold HttpDate.field
  rw [HttpDate.trimStart_padded, HttpDate.number_padded_two h]
  exact if_pos ⟨hlow, hhigh⟩

theorem HttpDate.field_space (low high : Nat) (s : List Char) :
    HttpDate.field low high (' ' :: s) = HttpDate.field low high s := by
  unfold HttpDate.field
  rw [Blank.trimStart_space]

/-- A year of four digits, after a space. -/
theorem HttpDate.yearField_padded {n : Nat} (h : n < 10000) (t : List Char) :
    HttpDate.yearField (' ' :: ((HttpDate.padded 4 n).toList ++ t)) = .ok ((n : Int), t) := by
  have hnumber := HttpDate.number_padded_four h t
  have hread : HttpDate.signedYear (' ' :: ((HttpDate.padded 4 n).toList ++ t)) =
      .ok ((n : Int), t) := by
    unfold HttpDate.signedYear
    rw [Blank.trimStart_space, HttpDate.trimStart_padded]
    split
    · rename_i s heq
      rw [heq] at hnumber
      exact absurd hnumber (by simp [HttpDate.number])
    · rename_i s heq
      rw [heq] at hnumber
      exact absurd hnumber (by simp [HttpDate.number])
    · rw [hnumber]
      rfl
  have hfits : HttpDate.fitsYear n = true := by
    simp only [HttpDate.fitsYear, Bool.and_eq_true, decide_eq_true_eq]
    omega
  simp only [HttpDate.yearField, hread, bind, Except.bind, hfits, if_true]
  rfl

/-! ## Names that are read -/

theorem HttpDate.length_le_octets (s : List Char) : s.length ≤ HttpDate.octets s := by
  induction s with
  | nil => exact Nat.le_refl 0
  | cons c s ih =>
    have hpos := c.utf8Size_pos
    have hcons : HttpDate.octets (c :: s) = c.utf8Size + HttpDate.octets s := rfl
    rw [hcons, List.length_cons]
    omega

/-- A name that stands in a list is read as its place. -/
theorem HttpDate.nameField_of_name {names : List String} {i : Nat} {name : List Char}
    (hlen : name.length = 3)
    (hfind : names.findIdx? (fun n => n.toList.map Char.toLower == name.map Char.toLower) = some i)
    (s : List Char) : HttpDate.nameField names (name ++ s) = .ok (i, s) := by
  have hoctets := HttpDate.length_le_octets (name ++ s)
  rw [List.length_append] at hoctets
  unfold HttpDate.nameField
  rw [if_neg (by omega), ← hlen, List.take_left, List.drop_left]
  simp only [hfind]

/-- The name of a weekday, as it is written. -/
def Date.weekdayName (w : Weekday) : List Char := ((Date.weekdayNames[w]?).getD "").toList

/-- The name of a month, as it is written. -/
def Date.monthName (month : Nat) : List Char := ((Date.monthNames[month - 1]?).getD "").toList

theorem HttpDate.nameField_weekday {w : Weekday} (h : w < 7) (s : List Char) :
    HttpDate.nameField Date.weekdayNames (Date.weekdayName w ++ s) = .ok (w, s) := by
  have tried : ∀ k : Fin 7, (Date.weekdayName k.val).length = 3 ∧
      Date.weekdayNames.findIdx? (fun n => n.toList.map Char.toLower ==
        (Date.weekdayName k.val).map Char.toLower) = some k.val := by decide +kernel
  exact HttpDate.nameField_of_name (tried ⟨w, h⟩).1 (tried ⟨w, h⟩).2 s

theorem HttpDate.nameField_month {month : Nat} (hlow : 1 ≤ month) (hhigh : month ≤ 12)
    (s : List Char) :
    HttpDate.nameField Date.monthNames (Date.monthName month ++ s) = .ok (month - 1, s) := by
  have tried : ∀ k : Fin 12, (Date.monthName (k.val + 1)).length = 3 ∧
      Date.monthNames.findIdx? (fun n => n.toList.map Char.toLower ==
        (Date.monthName (k.val + 1)).map Char.toLower) = some k.val := by decide +kernel
  obtain ⟨k, rfl⟩ := Nat.exists_eq_add_of_le' hlow
  exact HttpDate.nameField_of_name (tried ⟨k, by omega⟩).1 (tried ⟨k, by omega⟩).2 s

theorem Date.trimStart_monthName {month : Nat} (hlow : 1 ≤ month) (hhigh : month ≤ 12)
    (s : List Char) : Blank.trimStart (' ' :: (Date.monthName month ++ s)) =
      Date.monthName month ++ s := by
  have tried : ∀ k : Fin 12, ((Date.monthName (k.val + 1)).head?.map isBlank) = some false := by
    decide +kernel
  obtain ⟨k, rfl⟩ := Nat.exists_eq_add_of_le' hlow
  obtain ⟨c, hhead, hc⟩ := Option.map_eq_some_iff.1 (tried ⟨k, by omega⟩)
  obtain ⟨rest, heq⟩ := List.head?_eq_some_iff.1 hhead
  rw [Blank.trimStart_space, heq]
  exact List.dropWhile_cons_of_neg (by simp [hc])

/-! ## Fields -/

/-- The fields of a date and time, written one after another up to the zone. -/
def HttpDate.Fields.text (f : HttpDate.Fields) : List Char :=
  Date.weekdayName f.weekday ++ ',' :: ' ' :: ((HttpDate.padded 2 f.date.day).toList ++
    ' ' :: (Date.monthName f.date.month ++ ' ' :: ((HttpDate.padded 4 f.date.year.toNat).toList ++
      ' ' :: ((HttpDate.padded 2 f.hour).toList ++ ':' :: ((HttpDate.padded 2 f.minute).toList ++
        ':' :: (HttpDate.padded 2 f.second).toList)))))

/-- Fields that can be written: of a date that the calendar has in one of the years from 0 to
    9999. -/
structure HttpDate.Fields.Fits (f : HttpDate.Fields) : Prop where
  weekday : f.weekday < 7
  date : f.date.isReal = true
  year_nonneg : 0 ≤ f.date.year
  year_le : f.date.year ≤ 9999
  hour : f.hour < 24
  minute : f.minute < 60
  second : f.second ≤ 60

/-- Fields are read as they have been written. -/
theorem HttpDate.Fields.Fits.readFields_text {f : HttpDate.Fields} (h : f.Fits) :
    HttpDate.readFields f.text = .ok f := by
  obtain ⟨hweekday, hdate, hyear0, hyear, hhour, hminute, hsecond⟩ := h
  obtain ⟨hday1, hday31⟩ := Date.day_of_isReal hdate
  obtain ⟨hmonth1, hmonth12⟩ := Date.month_of_isReal hdate
  have hblank : ∀ s, Blank.trimStart (' ' :: (Date.monthName f.date.month ++ s)) =
      Date.monthName f.date.month ++ s := Date.trimStart_monthName hmonth1 hmonth12
  have hsecond' := HttpDate.field_padded 0 60 (n := f.second) (by omega)
    (Nat.zero_le _) hsecond []
  rw [List.append_nil] at hsecond'
  simp only [HttpDate.readFields, HttpDate.Fields.text, HttpDate.nameField_weekday hweekday,
    HttpDate.mark, bind, Except.bind, if_pos, HttpDate.field_space,
    HttpDate.field_padded 1 31 (n := f.date.day) (by omega) hday1 hday31,
    hblank, HttpDate.nameField_month hmonth1 hmonth12,
    HttpDate.yearField_padded (n := f.date.year.toNat) (by omega),
    HttpDate.field_padded 0 23 (n := f.hour) (by omega) (Nat.zero_le _)
      (Nat.le_of_lt_succ hhour),
    HttpDate.field_padded 0 59 (n := f.minute) (by omega) (Nat.zero_le _)
      (Nat.le_of_lt_succ hminute), hsecond']
  rw [if_pos List.isEmpty_nil, Int.toNat_of_nonneg hyear0, Nat.sub_add_cancel hmonth1]
  rfl

/-! ## Words -/

theorem HttpDate.words_eq_splitOn (s : List Char) : HttpDate.words s = s.splitOn ' ' := by
  induction s with
  | nil => rfl
  | cons c s ih =>
    rw [HttpDate.words, ih, List.splitOn_cons_eq_if_modifyHead]
    obtain ⟨w, ws, heq⟩ := List.exists_cons_of_ne_nil (List.splitOn_ne_nil ' ' s)
    simp [heq]

theorem HttpDate.space_not_mem_padded (width n : Nat) :
    ' ' ∉ (HttpDate.padded width n).toList :=
  fun h => absurd (HttpDate.isDigit_of_mem_padded h) (by decide)

/-- The fields of a written date stand in five words. -/
theorem HttpDate.Fields.Fits.words_text {f : HttpDate.Fields} (h : f.Fits) :
    HttpDate.words f.text =
      [Date.weekdayName f.weekday ++ [','], (HttpDate.padded 2 f.date.day).toList,
        Date.monthName f.date.month, (HttpDate.padded 4 f.date.year.toNat).toList,
        (HttpDate.padded 2 f.hour).toList ++ ':' :: ((HttpDate.padded 2 f.minute).toList ++
          ':' :: (HttpDate.padded 2 f.second).toList)] := by
  have hpadded := HttpDate.space_not_mem_padded
  have hweekday : ' ' ∉ Date.weekdayName f.weekday ++ [','] := by
    have tried : ∀ k : Fin 7, ' ' ∉ Date.weekdayName k.val ++ [','] := by decide +kernel
    exact tried ⟨f.weekday, h.weekday⟩
  have hmonth : ' ' ∉ Date.monthName f.date.month := by
    obtain ⟨hlow, hhigh⟩ := Date.month_of_isReal h.date
    have tried : ∀ k : Fin 13, ' ' ∉ Date.monthName k.val := by decide +kernel
    exact tried ⟨f.date.month, by omega⟩
  have htime : ' ' ∉ (HttpDate.padded 2 f.hour).toList ++ ':' ::
      ((HttpDate.padded 2 f.minute).toList ++ ':' :: (HttpDate.padded 2 f.second).toList) := by
    simp [hpadded]
  have htext : f.text = (Date.weekdayName f.weekday ++ [',']) ++ ' ' ::
      ((HttpDate.padded 2 f.date.day).toList ++ ' ' :: (Date.monthName f.date.month ++ ' ' ::
        ((HttpDate.padded 4 f.date.year.toNat).toList ++ ' ' ::
          ((HttpDate.padded 2 f.hour).toList ++ ':' :: ((HttpDate.padded 2 f.minute).toList ++
            ':' :: (HttpDate.padded 2 f.second).toList))))) := by
    simp [HttpDate.Fields.text]
  rw [HttpDate.words_eq_splitOn, htext, List.splitOn_append_cons_self_of_not_mem hweekday,
    List.splitOn_append_cons_self_of_not_mem (hpadded _ _),
    List.splitOn_append_cons_self_of_not_mem hmonth,
    List.splitOn_append_cons_self_of_not_mem (hpadded _ _), List.splitOn_eq_singleton htime]

/-- The words of a text are parted by its last space. -/
theorem HttpDate.splitLastSpace?_append (word : List Char) (hword : ' ' ∉ word)
    (front : List Char) :
    HttpDate.splitLastSpace? (front ++ ' ' :: word) = some (front, word) := by
  have hpos : ∀ c ∈ word.reverse, (decide (c ≠ ' ')) = true := by
    intro c hc
    rw [decide_eq_true_eq]
    rintro rfl
    exact hword (List.mem_reverse.1 hc)
  have hreverse : (front ++ ' ' :: word).reverse = word.reverse ++ ' ' :: front.reverse := by
    simp
  unfold HttpDate.splitLastSpace?
  rw [hreverse, List.takeWhile_append_of_pos hpos, List.dropWhile_append_of_pos hpos]
  simp

/-! ## Instants -/

/-- The fields of an instant. -/
def Instant.fields (t : Instant) : HttpDate.Fields :=
  ⟨Date.weekdayOf t.dayNumber, t.date, t.secondOfDay / 3600, t.secondOfDay / 60 % 60,
    t.secondOfDay % 60 + if t.isLeap then 1 else 0⟩

theorem Instant.secondOfDay_lt (t : Instant) : t.secondOfDay < 86400 := by
  unfold Instant.secondOfDay
  rw [Int.fmod_eq_emod_of_nonneg _ (by decide)]
  omega

/-- The days before an instant and the seconds since midnight make up its seconds. -/
theorem Instant.seconds_eq (t : Instant) : t.seconds = t.dayNumber * 86400 + t.secondOfDay := by
  unfold Instant.dayNumber Instant.secondOfDay
  rw [Int.fmod_eq_emod_of_nonneg _ (by decide), Int.fdiv_eq_ediv_of_nonneg _ (by decide)]
  omega

theorem Instant.fits_fields {t : Instant} (h : t.hasHttpDate = true) : t.fields.Fits := by
  have hsecond := t.secondOfDay_lt
  simp only [Instant.hasHttpDate, Bool.and_eq_true, decide_eq_true_eq] at h
  refine ⟨?_, Date.isReal_ofDayNumber _, h.1, h.2, ?_, ?_, ?_⟩
  · show ((t.dayNumber + 3) % 7).toNat < 7
    omega
  · show t.secondOfDay / 3600 < 24
    omega
  · show t.secondOfDay / 60 % 60 < 60
    omega
  · show t.secondOfDay % 60 + (if t.isLeap then 1 else 0) ≤ 60
    split <;> omega

theorem Instant.httpDate_eq {t : Instant} (h : t.hasHttpDate = true) :
    t.httpDate = .ok (String.ofList (t.fields.text ++ [' ', 'G', 'M', 'T'])) := by
  unfold Instant.httpDate
  rw [if_pos h]
  refine congrArg Except.ok (String.toList_inj.1 ?_)
  simp [HttpDate.Fields.text, Instant.fields, Date.weekdayName, Date.monthName]

/-! ## Seconds that are written -/

/-- The leap second of an instant, if it is in one, ends a minute. -/
def Instant.EndsMinute (t : Instant) : Prop := t.isLeap = true → t.seconds % 60 = 59

instance (t : Instant) : Decidable t.EndsMinute :=
  inferInstanceAs (Decidable (t.isLeap = true → t.seconds % 60 = 59))

theorem Instant.ofUnix?_of_endsMinute {t : Instant} (h : t.EndsMinute) :
    Instant.ofUnix? t.seconds t.nanos = some t := by
  have hfits : ¬(1000000000 ≤ t.nanos ∧ t.seconds % 60 ≠ 59) :=
    fun hstray => hstray.2 (h (decide_eq_true hstray.1))
  unfold Instant.ofUnix? Instant.of?
  rw [if_neg hfits, dif_pos ⟨t.nanos_lt, t.in_range⟩]

/-- A leap second that does not end a minute has a second after it. -/
theorem Instant.next_in_range {t : Instant} (h : ¬t.EndsMinute) :
    Instant.first ≤ t.seconds + 1 ∧ t.seconds + 1 ≤ Instant.last := by
  have hrange := t.in_range
  have hstray : t.seconds % 60 ≠ 59 := fun hlast => h fun _ => hlast
  unfold Instant.first Instant.last at *
  omega

/-- The second that an instant is written as. -/
def Instant.writtenSecond (t : Instant) : Instant :=
  if h : t.EndsMinute then t.wholeSecond
  else ⟨t.seconds + 1, 0, Instant.zero_lt_nanos, Instant.next_in_range h⟩

/-- What is left of an instant without its fraction of a second. -/
theorem Instant.wholeSecond_spec (t : Instant) :
    t.wholeSecond.seconds = t.seconds ∧ t.wholeSecond.isLeap = t.isLeap ∧
      t.wholeSecond.nanos = if t.isLeap then 1000000000 else 0 := by
  unfold Instant.wholeSecond
  split
  · rename_i hleap
    exact ⟨rfl, hleap.symm, rfl⟩
  · rename_i hleap
    exact ⟨rfl, (Bool.eq_false_iff.2 hleap).symm, rfl⟩

theorem Instant.writtenSecond_of_endsMinute {t : Instant} (h : t.EndsMinute) :
    t.writtenSecond = t.wholeSecond := dif_pos h

theorem Instant.writtenSecond_of_stray {t : Instant} (h : ¬t.EndsMinute) :
    t.writtenSecond.seconds = t.seconds + 1 ∧ t.writtenSecond.nanos = 0 := by
  rw [Instant.writtenSecond, dif_neg h]
  exact ⟨rfl, rfl⟩

/-- No leap second is written that does not end a minute. -/
theorem Instant.writtenSecond_endsMinute (t : Instant) : t.writtenSecond.EndsMinute := by
  by_cases h : t.EndsMinute
  · obtain ⟨hseconds, hleap, -⟩ := t.wholeSecond_spec
    rw [Instant.writtenSecond_of_endsMinute h, Instant.EndsMinute, hseconds, hleap]
    exact h
  · intro hleap
    rw [Instant.isLeap, (Instant.writtenSecond_of_stray h).2] at hleap
    exact absurd hleap (by decide)

/-- The second in the fields of an instant: the sixtieth is a leap second, and counted as the one
    before it. -/
theorem Instant.second_fields (t : Instant) :
    t.writtenSecond.seconds =
        t.seconds - (t.secondOfDay % 60 : Nat) + (min t.fields.second 59 : Nat) ∧
      t.writtenSecond.nanos = if t.fields.second = 60 then 1000000000 else 0 := by
  have hminute : t.seconds % 60 = (t.secondOfDay % 60 : Nat) := by
    have hseconds := t.seconds_eq
    omega
  have hsecond : t.fields.second = t.secondOfDay % 60 + if t.isLeap then 1 else 0 := rfl
  by_cases h : t.EndsMinute
  · obtain ⟨hseconds, -, hnanos⟩ := t.wholeSecond_spec
    rw [Instant.writtenSecond_of_endsMinute h, hseconds, hnanos, hsecond]
    cases hleap : t.isLeap with
    | true =>
      have hlast := h hleap
      simp only [if_true]
      exact ⟨by omega, by rw [if_pos (by omega)]⟩
    | false =>
      simp only [Bool.false_eq_true, if_false]
      exact ⟨by omega, by rw [if_neg (by omega)]⟩
  · obtain ⟨hseconds, hnanos⟩ := Instant.writtenSecond_of_stray h
    obtain ⟨hleap, hstray⟩ : t.isLeap = true ∧ t.seconds % 60 ≠ 59 := by
      simpa [Instant.EndsMinute] using h
    rw [hseconds, hnanos, hsecond, hleap]
    simp only [if_true]
    exact ⟨by omega, by rw [if_neg (by omega)]⟩

/-- The fields of an instant name the second that it is written as. -/
theorem Instant.instant_fields (t : Instant) : t.fields.instant = .ok t.writtenSecond := by
  have hlt := t.secondOfDay_lt
  have hreal : t.fields.date.isReal = true := Date.isReal_ofDayNumber _
  have hnumber : t.fields.date.dayNumber = t.dayNumber := Date.dayNumber_ofDayNumber _
  have hweekday : t.fields.date.weekday = t.fields.weekday := congrArg Date.weekdayOf hnumber
  obtain ⟨hwritten, hnanos⟩ := t.second_fields
  have hseconds : t.fields.date.dayNumber * 86400 + (t.fields.hour * 3600 + t.fields.minute * 60 +
      min t.fields.second 59 : Nat) = t.writtenSecond.seconds := by
    rw [hwritten, t.seconds_eq, hnumber]
    show _ + ((t.secondOfDay / 3600 * 3600 + t.secondOfDay / 60 % 60 * 60 +
      min t.fields.second 59 : Nat) : Int) = _
    omega
  unfold HttpDate.Fields.instant
  dsimp only
  rw [hreal, hseconds, ← hnanos, Instant.ofUnix?_of_endsMinute t.writtenSecond_endsMinute,
    if_neg (by decide), if_neg (fun h => h hweekday)]

end Courier
