import Courier.Time.DateJson
import Courier.Proofs.Json.Quoted
import Courier.Proofs.Time.Fields
import Courier.Proofs.Time.Written

set_option autoImplicit false

/-! # Dates come back

An instant whose year has four digits is read back from each of its written forms, but for its
fraction of a second, and an instant of another year has no written form. The exception are leap
seconds that do not end a minute: they come back as the second after them. The other way round, a
text that is read as a date names an instant that can be written, and what is written is read as the
same instant (`dates_round_trip`). -/

namespace Courier

/-! ## Whole seconds -/

theorem Instant.wholeSecond_eq_self {t : Instant} (h : t.nanos % 1000000000 = 0) :
    t.wholeSecond = t := by
  obtain ⟨hseconds, -, hnanos⟩ := t.wholeSecond_spec
  have hlt := t.nanos_lt
  rw [Instant.mk.injEq, hseconds, hnanos]
  refine ⟨rfl, ?_⟩
  cases hleap : t.isLeap with
  | true =>
    have hleast : 1000000000 ≤ t.nanos := of_decide_eq_true hleap
    rw [if_pos rfl]
    omega
  | false =>
    have hmost : ¬1000000000 ≤ t.nanos := of_decide_eq_false hleap
    rw [if_neg (by decide)]
    omega

theorem Instant.hasHttpDate_iff {t : Instant} :
    t.hasHttpDate = true ↔ 0 ≤ t.year ∧ t.year ≤ 9999 := by
  rw [Instant.hasHttpDate, Bool.and_eq_true, decide_eq_true_eq, decide_eq_true_eq]

/-! ## Texts between blanks -/

/-- A text that has no blank at its ends. -/
theorem Blank.trim_of_ends {c d : Char} (hc : isBlank c = false) (hd : isBlank d = false)
    (chars : List Char) :
    Blank.trim (String.ofList (c :: (chars ++ [d]))) = String.ofList (c :: (chars ++ [d])) := by
  have hstart : Blank.trimStart (c :: (chars ++ [d])) = c :: (chars ++ [d]) :=
    List.dropWhile_cons_of_neg (by simp [hc])
  have hend : Blank.trimEnd (c :: chars ++ [d]) = c :: chars ++ [d] := by
    unfold Blank.trimEnd
    rw [List.reverse_append, List.reverse_singleton, List.singleton_append,
      List.dropWhile_cons_of_neg (by simp [hd]), List.reverse_cons, List.reverse_reverse]
  rw [Blank.trim, String.toList_ofList, hstart]
  exact congrArg String.ofList hend

/-! ## Reading what has been written -/

theorem HttpDate.isFourDigits_padded {n : Nat} (h : n < 10000) :
    HttpDate.isFourDigits (HttpDate.padded 4 n).toList = true := by
  rw [HttpDate.isFourDigits, Bool.and_eq_true, List.all_eq_true]
  exact ⟨by rw [HttpDate.toList_padded_four h]; rfl, fun c hc => HttpDate.isDigit_of_mem_padded hc⟩

/-- The written fields of a date, with its zone, have no blanks around them. -/
theorem HttpDate.Fields.Fits.trim_text {f : HttpDate.Fields} (h : f.Fits) :
    Blank.trim (String.ofList (f.text ++ [' ', 'G', 'M', 'T'])) =
      String.ofList (f.text ++ [' ', 'G', 'M', 'T']) := by
  have tried : ∀ k : Fin 7, ((Date.weekdayName k.val).head?.map isBlank) = some false := by
    decide +kernel
  obtain ⟨c, hhead, hc⟩ := Option.map_eq_some_iff.1 (tried ⟨f.weekday, h.weekday⟩)
  obtain ⟨name, hname⟩ := List.head?_eq_some_iff.1 hhead
  have htext : f.text = c :: (f.text.drop 1) := by
    rw [HttpDate.Fields.text, hname]
    rfl
  have hends : f.text ++ [' ', 'G', 'M', 'T'] =
      c :: ((f.text.drop 1 ++ [' ', 'G', 'M']) ++ ['T']) := by
    rw [List.append_assoc, ← List.cons_append, ← htext]
    rfl
  rw [hends]
  exact Blank.trim_of_ends hc (by decide) _

/-- Written fields are read as the instant that they name. -/
theorem HttpDate.Fields.Fits.parse_text {f : HttpDate.Fields} (h : f.Fits) {t : Instant}
    (ht : f.instant = .ok t) :
    Instant.parseHttpDate (String.ofList (f.text ++ [' ', 'G', 'M', 'T'])) = .ok t := by
  have hyear := h.year_le
  have hzone : HttpDate.zones.contains (String.ofList ['G', 'M', 'T']) = true := by decide +kernel
  have hdigits := HttpDate.isFourDigits_padded (n := f.date.year.toNat) (by omega)
  unfold Instant.parseHttpDate
  simp only [h.trim_text, String.toList_ofList,
    HttpDate.splitLastSpace?_append ['G', 'M', 'T'] (by decide), hzone, Bool.not_true,
    if_neg Bool.false_ne_true, h.words_text, hdigits, h.readFields_text, bind, Except.bind, ht]

/-- An instant is read back from its written form. -/
theorem Instant.parseHttpDate_httpDate {t : Instant} (h : t.hasHttpDate = true) :
    ∃ text, t.httpDate = .ok text ∧ Instant.parseHttpDate text = .ok t.writtenSecond :=
  ⟨_, Instant.httpDate_eq h, (Instant.fits_fields h).parse_text t.instant_fields⟩

/-! ## What is read as a date -/

/-- The fourth of five words stands behind a space. -/
theorem HttpDate.holdsYear_of_words {front first second third year fifth : List Char}
    (hwords : HttpDate.words front = [first, second, third, year, fifth])
    (hyear : HttpDate.isFourDigits year = true) : HttpDate.HoldsYear front := by
  have hfront : front = [' '].intercalate [first, second, third, year, fifth] := by
    rw [← hwords, HttpDate.words_eq_splitOn, List.intercalate_splitOn]
  refine ⟨first ++ ' ' :: (second ++ ' ' :: third), year ++ ' ' :: fifth, ?_, year, ' ' :: fifth,
    rfl, hyear⟩
  rw [hfront]
  simp [List.intercalate]

/-- What the reading of a date that is accepted has come to. -/
theorem Instant.fields_of_parseHttpDate {input : String} {t : Instant}
    (h : Instant.parseHttpDate input = .ok t) :
    ∃ (front : List Char) (f : HttpDate.Fields), HttpDate.HoldsYear front ∧
      HttpDate.readFields front = .ok f ∧ f.instant = .ok t := by
  unfold Instant.parseHttpDate at h
  dsimp only at h
  split at h
  · cases h
  · rename_i front zone hsplit
    split at h
    · cases h
    · split at h
      · rename_i first second third year fifth hwords
        split at h
        · cases h
        · rename_i hdigits
          split at h
          · rename_i t' hread
            cases Except.ok.inj h
            obtain ⟨f, hfields, hinstant⟩ := bind_eq_ok_iff.1 hread
            exact ⟨front, f, HttpDate.holdsYear_of_words hwords (by simpa using hdigits), hfields,
              hinstant⟩
          · cases h
      · cases h

theorem Instant.eq_of_of? {seconds : Int} {nanos : Nat} {t : Instant}
    (h : Instant.of? seconds nanos = some t) : t.seconds = seconds ∧ t.nanos = nanos := by
  rw [Instant.of?, Option.dite_none_right_eq_some] at h
  obtain ⟨hfits, heq⟩ := h
  cases Option.some.inj heq
  exact ⟨rfl, rfl⟩

/-- An instant of universal time has its parts, and its leap second ends a minute. -/
theorem Instant.eq_of_ofUnix? {seconds : Int} {nanos : Nat} {t : Instant}
    (h : Instant.ofUnix? seconds nanos = some t) :
    t.seconds = seconds ∧ t.nanos = nanos ∧ t.EndsMinute := by
  unfold Instant.ofUnix? at h
  split at h
  · cases h
  · rename_i hfits
    obtain ⟨rfl, rfl⟩ := Instant.eq_of_of? h
    exact ⟨rfl, rfl, fun hleap => Decidable.byContradiction fun hstray =>
      hfits ⟨of_decide_eq_true hleap, hstray⟩⟩

/-- The instant that fields name lies on their date, at a whole second, and its leap second ends a
    minute. -/
theorem HttpDate.Fields.date_of_instant {f : HttpDate.Fields} {t : Instant}
    (h : f.instant = .ok t) (hhour : f.hour < 24) (hminute : f.minute < 60) :
    t.date = f.date ∧ t.nanos % 1000000000 = 0 ∧ t.EndsMinute := by
  unfold HttpDate.Fields.instant at h
  split at h
  · cases h
  · rename_i hreal
    split at h
    · cases h
    · dsimp only at h
      split at h
      · rename_i t' hunix
        cases Except.ok.inj h
        obtain ⟨hseconds, hnanos, hends⟩ := Instant.eq_of_ofUnix? hunix
        have hnumber : t.dayNumber = f.date.dayNumber := by
          rw [Instant.dayNumber, hseconds, Int.fdiv_eq_ediv_of_nonneg _ (by decide)]
          omega
        refine ⟨?_, ?_, hends⟩
        · rw [Instant.date, hnumber, Date.ofDayNumber_dayNumber (by simpa using hreal)]
        · rw [hnanos]
          split
          · exact Nat.mod_self _
          · exact Nat.zero_mod _
      · cases h

/-- A text that is read as a date names a whole second of a year that can be written. -/
theorem Instant.year_of_parseHttpDate {input : String} {t : Instant}
    (h : Instant.parseHttpDate input = .ok t) :
    (0 ≤ t.year ∧ t.year ≤ 9999) ∧ t.nanos % 1000000000 = 0 ∧ t.EndsMinute := by
  obtain ⟨front, f, hholds, hfields, hinstant⟩ := Instant.fields_of_parseHttpDate h
  obtain ⟨hhour, hminute, -⟩ := HttpDate.time_of_readFields hfields
  obtain ⟨hdate, hwhole⟩ := HttpDate.Fields.date_of_instant hinstant hhour hminute
  refine ⟨?_, hwhole⟩
  rw [Instant.year, hdate]
  exact HttpDate.year_of_readFields hfields hholds

/-! ## Every encoding -/

-- `delta`, as the equation of the definition takes long to generate
theorem Instant.httpDateText_of_ok {t : Instant} {text : String} (h : t.httpDate = .ok text) :
    t.httpDateText = text := by
  delta Instant.httpDateText
  rw [h]

theorem Instant.httpDateText_of_error {t : Instant} {e : HttpDate.Error}
    (h : t.httpDate = .error e) : t.httpDateText = "" := by
  delta Instant.httpDateText
  rw [h]

theorem Instant.parseHttpDateBytes_encode (text : String) :
    Instant.parseHttpDateBytes (Utf8.encode text) = Instant.parseHttpDate text := by
  rw [Instant.parseHttpDateBytes, Utf8.decode?_encode]

/-- A date that is quoted in a JSON text is read as the date that is quoted. -/
theorem Instant.decodeJson_quote {text : String} {t : Instant}
    (h : Instant.parseHttpDate text = .ok t) :
    Instant.decodeJson (Utf8.encode (Json.quote text)) = .ok t := by
  have hread : Instant.readJson Json.depthLimit (Utf8.encode (Json.quote text)) = .ok (t, []) := by
    have htext := Json.readText_quote Json.depthLimit text []
    rw [List.append_nil] at htext
    simp only [Instant.readJson, htext, h]
  rw [Instant.decodeJson, Json.decode, hread]
  rfl

/-- **Dates come back in every encoding.** An instant of the years 0 to 9999 comes back without its
    fraction of a second, a leap second at the end of a minute as that leap second, and one that
    does not end a minute as the second after it. An instant of another year has no written form.
    Every text that is read as a date names a whole second of those years, which is read from its
    own written form as well. -/
theorem dates_round_trip :
    (∀ t : Instant, 0 ≤ t.year ∧ t.year ≤ 9999 →
      ((t.isLeap = true → t.seconds % 60 = 59) → t.writtenSecond.seconds = t.seconds ∧
        t.writtenSecond.isLeap = t.isLeap ∧ t.writtenSecond.nanos % 1000000000 = 0) ∧
      (t.isLeap = true → t.seconds % 60 ≠ 59 → t.writtenSecond.seconds = t.seconds + 1 ∧
        t.writtenSecond.nanos = 0) ∧
      ∃ text, t.httpDate = .ok text ∧ t.httpDateText = text ∧
        Instant.parseHttpDate text = .ok t.writtenSecond ∧
        (∃ bytes, t.httpDateBytes = .ok bytes ∧
          Instant.parseHttpDateBytes bytes = .ok t.writtenSecond) ∧
        ∃ json, t.jsonText = .ok json ∧
          Instant.decodeJson (Utf8.encode json) = .ok t.writtenSecond) ∧
    (∀ t : Instant, ¬(0 ≤ t.year ∧ t.year ≤ 9999) →
      t.httpDate = .error (.yearOutOfRange t.year) ∧ t.httpDateText = "" ∧
      t.httpDateBytes = .error (.yearOutOfRange t.year) ∧
      t.jsonText = .error (.yearOutOfRange t.year)) ∧
    ∀ (input : String) (t : Instant), Instant.parseHttpDate input = .ok t →
      (0 ≤ t.year ∧ t.year ≤ 9999) ∧ t.nanos % 1000000000 = 0 ∧
      ∃ text, t.httpDate = .ok text ∧ Instant.parseHttpDate text = .ok t := by
  refine ⟨fun t hyear => ⟨fun hends => ?_, fun hleap hstray => ?_, ?_⟩, fun t hyear => ?_,
    fun input t hread => ?_⟩
  · obtain ⟨hseconds, hleap, hnanos⟩ := t.wholeSecond_spec
    rw [Instant.writtenSecond_of_endsMinute hends, hnanos]
    exact ⟨hseconds, hleap, by split <;> rfl⟩
  · exact Instant.writtenSecond_of_stray fun hends => hstray (hends hleap)
  · obtain ⟨text, htext, hparse⟩ := Instant.parseHttpDate_httpDate (Instant.hasHttpDate_iff.2 hyear)
    refine ⟨text, htext, ?_, hparse, ⟨Utf8.encode text, ?_, ?_⟩, Json.quote text, ?_,
      Instant.decodeJson_quote hparse⟩
    · exact Instant.httpDateText_of_ok htext
    · rw [Instant.httpDateBytes, htext]
      rfl
    · rw [Instant.parseHttpDateBytes_encode, hparse]
    · rw [Instant.jsonText, htext]
      rfl
  · have hnone : t.httpDate = .error (.yearOutOfRange t.year) :=
      if_neg (fun h => hyear (Instant.hasHttpDate_iff.1 h))
    refine ⟨hnone, ?_, ?_, ?_⟩
    · exact Instant.httpDateText_of_error hnone
    · rw [Instant.httpDateBytes, hnone]
      rfl
    · rw [Instant.jsonText, hnone]
      rfl
  · obtain ⟨hyear, hnanos, hends⟩ := Instant.year_of_parseHttpDate hread
    obtain ⟨text, htext, hparse⟩ := Instant.parseHttpDate_httpDate (Instant.hasHttpDate_iff.2 hyear)
    rw [Instant.writtenSecond_of_endsMinute hends, Instant.wholeSecond_eq_self hnanos] at hparse
    exact ⟨hyear, hnanos, text, htext, hparse⟩

/-- In the middle of the leap second at the end of 2016, before the year 0, and a text with another
    name of the zone. -/
theorem dates_round_trip_leap :
    (∃ text, Instant.httpDate ⟨1483228799, 1500000000, by decide, by decide⟩ = .ok text ∧
      Instant.parseHttpDate text =
        .ok (Instant.writtenSecond ⟨1483228799, 1500000000, by decide, by decide⟩)) ∧
    Instant.httpDateText ⟨-62167219201, 0, by decide, by decide⟩ = "" ∧
    ∃ text, Instant.httpDate ⟨1483228799, 1000000000, by decide, by decide⟩ = .ok text ∧
      Instant.parseHttpDate text = .ok ⟨1483228799, 1000000000, by decide, by decide⟩ := by
  refine ⟨?_, ?_, ?_⟩
  · obtain ⟨-, -, text, htext, -, hparse, -⟩ := dates_round_trip.1
      ⟨1483228799, 1500000000, by decide, by decide⟩ (by decide +kernel)
    exact ⟨text, htext, hparse⟩
  · exact (dates_round_trip.2.1 ⟨-62167219201, 0, by decide, by decide⟩ (by decide +kernel)).2.1
  · exact (dates_round_trip.2.2 "Sat, 31 Dec 2016 23:59:60 UT"
      ⟨1483228799, 1000000000, by decide, by decide⟩ (by rfl)).2.2

/-- A leap second in the second `15:04:05`. -/
def strayLeap : Instant := ⟨1136214245, 1000000000, Instant.leap_lt_nanos, by decide⟩

/-- It is not so that every instant of those years comes back but for its fraction of a second. -/
theorem not_dates_round_trip_stray : ¬∀ t : Instant, 0 ≤ t.year ∧ t.year ≤ 9999 →
    ∃ text, t.httpDate = .ok text ∧ Instant.parseHttpDate text = .ok t.wholeSecond := by
  intro h
  have hyear : 0 ≤ strayLeap.year ∧ strayLeap.year ≤ 9999 := by decide +kernel
  obtain ⟨text, htext, hparse⟩ := h strayLeap hyear
  obtain ⟨written, hwritten, hback⟩ :=
    Instant.parseHttpDate_httpDate (Instant.hasHttpDate_iff.2 hyear)
  obtain rfl := Except.ok.inj (htext.symm.trans hwritten)
  have hsame : strayLeap.wholeSecond.seconds = strayLeap.writtenSecond.seconds :=
    congrArg Instant.seconds (Except.ok.inj (hparse.symm.trans hback))
  exact absurd hsame (by decide)

end Courier
