import Courier.Proofs.Settings.Fields
import Courier.Proofs.Url.Hosts

set_option autoImplicit false

/-! # The two forms of a header

On the command line a header is a name and a value with an equals sign between them, or with a colon
and a space. The equals sign is sought first, and in the whole text. So the first form stands for
its header whatever the value holds, and the second one if the value holds no equals sign; if it
holds one, what stands before it is taken for the name, and since a colon stands there too it is
none. -/

namespace Courier

/-! ## Blanks around a text -/

/-- No character that is not blank gets lost. -/
theorem Blank.mem_trim {c : Char} {text : String} (h : c ∈ text.toList) (hc : isBlank c = false) :
    c ∈ (Blank.trim text).toList := by
  have hdrop : ∀ chars : List Char, c ∈ chars → c ∈ chars.dropWhile isBlank := by
    intro chars hmem
    rw [← List.takeWhile_append_dropWhile (p := isBlank) (l := chars), List.mem_append] at hmem
    rcases hmem with hmem | hmem
    · exact absurd (List.mem_takeWhile_imp hmem) (by simp [hc])
    · exact hmem
  rw [Blank.trim, String.toList_ofList, Blank.trimEnd, List.mem_reverse]
  exact hdrop _ (List.mem_reverse.2 (hdrop _ h))

theorem Blank.mem_of_mem_trim {c : Char} {text : String} (h : c ∈ (Blank.trim text).toList) :
    c ∈ text.toList := by
  rw [Blank.trim, String.toList_ofList, Blank.trimEnd, List.mem_reverse] at h
  have hstart := List.mem_reverse.1 ((List.dropWhile_sublist _).subset h)
  exact (List.dropWhile_sublist _).subset hstart

theorem Blank.trim_cons {c : Char} (hc : isBlank c = true) (chars : List Char) :
    Blank.trim (String.ofList (c :: chars)) = Blank.trim (String.ofList chars) := by
  simp only [Blank.trim, Blank.trimStart, String.toList_ofList, List.dropWhile_cons_of_pos hc]

/-! ## Names and values -/

theorem lt_of_isTokenChar {c : Char} (h : isTokenChar c = true) : c.toNat < 128 := by
  have hpart : ((65 ≤ c.toNat ∧ c.toNat ≤ 90 ∨ 97 ≤ c.toNat ∧ c.toNat ≤ 122) ∨
      48 ≤ c.toNat ∧ c.toNat ≤ 57) ∨ c ∈ "!#$%&'*+-.^_\x60|~".toList := by
    unfold isTokenChar Char.isAlphanum Char.isAlpha Char.isUpper Char.isLower Char.isDigit at h
    simpa [UInt32.le_iff_toNat_le, or_assoc] using h
  have hmarks : ("!#$%&'*+-.^_\x60|~".toList.all fun mark => decide (mark.toNat < 128)) = true := by
    decide
  rcases hpart with (hletter | hdigit) | hmark
  · omega
  · omega
  · simpa using List.all_eq_true.1 hmarks c hmark

/-- A character of a token is not blank, and is neither of the marks that part a header. -/
theorem separate_of_isTokenChar {c : Char} (h : isTokenChar c = true) :
    isBlank c = false ∧ c ≠ '=' ∧ c ≠ ':' := by
  have hall := forall_ascii (p := fun c => !isTokenChar c || (!isBlank c && c != '=' && c != ':'))
    (by decide +kernel) (lt_of_isTokenChar h)
  simpa [h, and_assoc] using hall

theorem HeaderName.isTokenChar_of_parse? {text : String} {n : HeaderName}
    (h : HeaderName.parse? text = some n) : ∀ c ∈ text.toList, isTokenChar c = true := by
  unfold HeaderName.parse? at h
  split at h
  · next hlegal => exact List.all_eq_true.1 (Bool.and_eq_true_iff.1 hlegal).2
  · exact absurd h (by simp)

/-- A value stays one without the blanks around it. -/
theorem HeaderValue.parse?_trim {text : String} (h : (HeaderValue.parse? text).isSome = true) :
    HeaderValue.parse? (Blank.trim text) = some ⟨Utf8.encode (Blank.trim text)⟩ := by
  unfold HeaderValue.parse? HeaderValue.ofBytes? at h ⊢
  split at h
  · next hall =>
    refine if_pos (List.all_eq_true.2 fun b hb => ?_)
    obtain ⟨c, hc, hbc⟩ := List.mem_flatMap.1 hb
    exact List.all_eq_true.1 hall b (List.mem_flatMap.2 ⟨c, Blank.mem_of_mem_trim hc, hbc⟩)
  · exact absurd h (by simp)

/-! ## The two forms -/

/-- Whether a text is a name and a value in a form in which they are told apart. -/
inductive IsHeaderForm (name value : String) : String → Prop
  | equals : IsHeaderForm name value (name ++ "=" ++ value)
  | colon (plain : '=' ∉ value.toList) : IsHeaderForm name value (name ++ ": " ++ value)

section Forms

variable {name value : String} {n : HeaderName}

/-- A text in one of the forms is parted into its name and its value. -/
theorem IsHeaderForm.isHeaderText (hname : HeaderName.parse? name = some n) {text : String}
    (h : IsHeaderForm name value text) : IsHeaderText text (name, Blank.trim value) := by
  have hmarks : ∀ c ∈ name.toList, isBlank c = false ∧ c ≠ '=' ∧ c ≠ ':' := fun c hc =>
    separate_of_isTokenChar (HeaderName.isTokenChar_of_parse? hname c hc)
  have htrim : Blank.trim (String.ofList name.toList) = name := by
    rw [Blank.trim_of_forall fun c hc => (hmarks c hc).1, String.ofList_toList]
  have hequals : '=' ∉ name.toList := fun hmem => (hmarks _ hmem).2.1 rfl
  have hcolon : ':' ∉ name.toList := fun hmem => (hmarks _ hmem).2.2 rfl
  cases h with
  | equals =>
    refine ⟨name.toList, '=', value.toList, by simp, hequals, .inl rfl, ?_⟩
    rw [htrim, String.ofList_toList]
  | colon plain =>
    refine ⟨name.toList, ':', ' ' :: value.toList, by simp, hcolon,
      .inr ⟨rfl, by simp [hequals, plain]⟩, ?_⟩
    rw [htrim, Blank.trim_cons (by decide), String.ofList_toList]

/-- A text in one of the forms stands for the name with the value without the blanks around it. -/
theorem IsHeaderForm.readsText (hname : HeaderName.parse? name = some n)
    (hvalue : (HeaderValue.parse? value).isSome = true) {text : String}
    (h : IsHeaderForm name value text) : ReadsText text (n, ⟨Utf8.encode (Blank.trim value)⟩) :=
  ⟨_, h.isHeaderText hname, hname, HeaderValue.parse?_trim hvalue⟩

/-- With a colon, a value that holds an equals sign makes the name be refused. -/
theorem refusesHeaderText_colon (hname : HeaderName.parse? name = some n)
    (h : '=' ∈ value.toList) : ∃ e, RefusesHeaderText (name ++ ": " ++ value) e := by
  have hsplit : (name ++ ": " ++ value).toList = (name.toList ++ [':', ' ']) ++ value.toList := by
    simp
  have hfront : '=' ∉ name.toList ++ [':', ' '] := by
    simp only [List.mem_append, not_or]
    exact ⟨fun hmem => (separate_of_isTokenChar
      (HeaderName.isTokenChar_of_parse? hname _ hmem)).2.1 rfl, by decide⟩
  obtain ⟨before, after, hvalue, hbefore⟩ := List.eq_append_cons_of_mem h
  have htext : IsHeaderText (name ++ ": " ++ value)
      (Blank.trim (String.ofList (name.toList ++ [':', ' '] ++ before)),
        Blank.trim (String.ofList after)) := by
    refine ⟨_, '=', after, ?_, ?_, .inl rfl, rfl⟩
    · rw [hsplit, hvalue, ← List.append_assoc]
    · simp only [List.mem_append, not_or] at hfront ⊢
      exact ⟨hfront, hbefore⟩
  -- The colon is still there when blanks have been removed, so what is left is no token.
  have hcolon : ':' ∈ (Blank.trim (String.ofList (name.toList ++ [':', ' '] ++ before))).toList :=
    Blank.mem_trim (by simp) (by decide)
  refine ⟨_, .field htext (.name ?_)⟩
  cases hparse : HeaderName.parse?
      (Blank.trim (String.ofList (name.toList ++ [':', ' '] ++ before))) with
  | none => rfl
  | some n' =>
    exact absurd rfl (separate_of_isTokenChar
      (HeaderName.isTokenChar_of_parse? hparse _ hcolon)).2.2

end Forms

/-! ## One text more -/

section OneMore

variable {d : Draft} {table : List (String × String)} {front back : List String} {text : String}

/-- A text that stands for a header is not refused, so what is refused with it is refused without
it. -/
theorem Draft.refuses_insert_iff {field : HeaderName × HeaderValue} (h : ReadsText text field)
    {e : SettingsError} : (d.withHeaders table (front ++ text :: back)).Refuses e ↔
      (d.withHeaders table (front ++ back)).Refuses e := by
  have hnot := not_refusesHeaderText_of_readsText h e
  have hlines : (∃ line ∈ front ++ text :: back, RefusesHeaderText line e) ↔
      ∃ line ∈ front ++ back, RefusesHeaderText line e := by
    simp [hnot, or_and_right, exists_or]
  exact Draft.refuses_withHeaders_iff.trans ((or_congr_right (or_congr_right hlines)).trans
    Draft.refuses_withHeaders_iff.symm)

/-- A text that stands for a header changes the values of its name only, and decides about them
unless a later text has the same name. -/
theorem Draft.Describes.insert {field : HeaderName × HeaderValue} {s s' : Settings}
    (h : (d.withHeaders table (front ++ text :: back)).Describes s)
    (h' : (d.withHeaders table (front ++ back)).Describes s') (htext : ReadsText text field) :
    (∀ name, name ≠ field.1 → s.headers.values name = s'.headers.values name) ∧
    ((∀ later ∈ back, ∀ other, ReadsText later other → other.1 ≠ field.1) →
      s.headers.values field.1 = [field.2]) := by
  obtain ⟨first, rest, hfirst, hrest, hvalues⟩ := h.headers
  obtain ⟨first', rest', hfirst', hrest', hvalues'⟩ := h'.headers
  obtain ⟨before, _, rfl, hbefore, htail⟩ := exists_of_forall₂_append hrest
  obtain ⟨field', after, hfield, hafter, rfl⟩ := List.forall₂_cons_left_iff.1 htail
  obtain rfl := hfield.eq htext
  obtain ⟨before', after', rfl, hbefore', hafter'⟩ := exists_of_forall₂_append hrest'
  obtain rfl := List.right_unique_forall₂' rightUnique_reads hfirst hfirst'
  obtain rfl := List.right_unique_forall₂' rightUnique_readsText hbefore hbefore'
  obtain rfl := List.right_unique_forall₂' rightUnique_readsText hafter hafter'
  have hcons : ∀ name, lastValue? (field' :: after) name =
      (lastValue? after name).or (lastValue? [field'] name) :=
    fun name => lastValue?_append [field'] after name
  constructor
  · intro name hname
    rw [hvalues, hvalues']
    simp only [lastValue?_append, hcons, lastValue?_singleton_ne (Ne.symm hname), Option.or_none]
  · intro hlater
    have hnone : lastValue? after field'.1 = none := by
      refine lastValue?_eq_none fun other hother => ?_
      obtain ⟨k, hk, rfl⟩ := List.getElem_of_mem hother
      have hlength := hafter.length_eq
      exact hlater _ (List.getElem_mem (hlength ▸ hk)) _ (hafter.get (hlength ▸ hk) hk)
    rw [hvalues]
    simp only [lastValue?_append, hcons, hnone, lastValue?_singleton_self, Option.none_or,
      Option.some_or, Option.toList_some]

end OneMore

/-- **The two forms of a header.** A legal name and a legal value with an equals sign between them
are accepted on every command line, and so they are with a colon and a space between them if the
value holds no equals sign: nothing else of the settings changes, and the name has the value without
the blanks around it, unless a later text gives it another one. With a colon and a value that holds
an equals sign no settings are accepted. -/
theorem header_forms {name value : String} {n : HeaderName}
    (hname : HeaderName.parse? name = some n) (hvalue : (HeaderValue.parse? value).isSome = true)
    (c : CommandLine) (front back : List String) (file : Option SettingsFile) :
    (∀ text, IsHeaderForm name value text →
      ((∃ s, Settings.merge (c.withHeaders (front ++ text :: back)) file = .ok s) ↔
        ∃ s', Settings.merge (c.withHeaders (front ++ back)) file = .ok s') ∧
      ∀ s s', Settings.merge (c.withHeaders (front ++ text :: back)) file = .ok s →
        Settings.merge (c.withHeaders (front ++ back)) file = .ok s' →
        s = { s' with headers := s.headers } ∧
        (∀ other, other ≠ n → s.headers.values other = s'.headers.values other) ∧
        ((∀ later ∈ back, ∀ field, ReadsText later field → field.1 ≠ n) →
          s.headers.values n = [⟨Utf8.encode (Blank.trim value)⟩])) ∧
    ('=' ∈ value.toList → ∀ s, Settings.merge
      (c.withHeaders (front ++ (name ++ ": " ++ value) :: back)) file ≠ .ok s) := by
  have hwith := fun text => Settings.merge_withHeaders_decides c (front ++ text :: back) file
  have hwithout := Settings.merge_withHeaders_decides c (front ++ back) file
  constructor
  · intro text hform
    have htext := hform.readsText hname hvalue
    refine ⟨?_, fun s s' hs hs' => ?_⟩
    · rw [(hwith text).exists_ok_iff, hwithout.exists_ok_iff]
      exact forall_congr' fun e => not_congr (Draft.refuses_insert_iff htext)
    · have hdescribes := (hwith text).describes hs
      have hdescribes' := hwithout.describes hs'
      exact ⟨hdescribes'.eq_but_headers hdescribes, hdescribes.insert hdescribes' htext⟩
  · intro hequals s hs
    obtain ⟨e, he⟩ := refusesHeaderText_colon hname hequals
    exact (hwith _).exists_ok_iff.1 ⟨s, hs⟩ e (.lineHeader List.mem_append_cons_self he)

/-- A value with an equals sign counts after an equals sign and is refused after a colon. -/
theorem header_forms_link :
    HeaderName.parse? "Link" = some ⟨"link"⟩ ∧ (HeaderValue.parse? " a=b ").isSome = true ∧
    (∃ s, Settings.merge (addressedLine.withHeaders ["Link= a=b "]) none = .ok s ∧
      s.headers.values ⟨"link"⟩ = [⟨Utf8.encode (Blank.trim " a=b ")⟩]) ∧
    ∀ s, Settings.merge (addressedLine.withHeaders ["Link:  a=b "]) none ≠ .ok s := by
  have hname : HeaderName.parse? "Link" = some ⟨"link"⟩ := by decide +kernel
  have hvalue : (HeaderValue.parse? " a=b ").isSome = true := by decide +kernel
  have hwithout : (Settings.merge (addressedLine.withHeaders []) none).toOption.isSome = true := by
    decide +kernel
  obtain ⟨hforms, hcolon⟩ := header_forms hname hvalue addressedLine [] [] none
  obtain ⟨haccepted, hcounts⟩ := hforms _ .equals
  cases h : Settings.merge (addressedLine.withHeaders []) none with
  | error e => simp [h, Except.toOption] at hwithout
  | ok s' =>
    obtain ⟨s, hs⟩ := haccepted.2 ⟨s', h⟩
    exact ⟨hname, hvalue, ⟨s, hs, (hcounts s s' hs h).2.2 (by simp)⟩, hcolon (by decide)⟩

/-- After a colon the type of a text cannot be given with its character set, though both the name
and the value are legal. -/
theorem not_header_forms :
    HeaderName.parse? "Content-Type" = some ⟨"content-type"⟩ ∧
    (HeaderValue.parse? "text/html; charset=utf-8").isSome = true ∧
    (Settings.merge (addressedLine.withHeaders []) none).toOption.isSome = true ∧
    Settings.merge (addressedLine.withHeaders ["Content-Type: text/html; charset=utf-8"]) none =
      .error (.invalid .header "Content-Type: text/html; charset" .headerName) := by
  decide +kernel

end Courier
