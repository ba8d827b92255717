import Courier.Proofs.Settings.Drafts
import Mathlib.Data.List.Forall2
import Mathlib.Data.List.Induction
import Mathlib.Data.List.TakeWhile

set_option autoImplicit false

/-! # What is refused of settings

A draft alone decides which settings are refused, and for what reason, and what the settings are if
none is. Both are said here without regard to the order in which things are checked. Each check is
then shown to decide about its own part of the draft; checks one after another decide about all
parts together. -/

namespace Courier

/-! ## What is refused -/

/-- Why a URL is refused. A host with an international name counts as invalid, see
    `Host.name?`. -/
inductive RefusesUrl : Option String → SettingsError → Prop
  | missing : RefusesUrl none .missingUrl
  | invalid {text : String} {e : Url.Error} (bad : Url.parse text = .error e) :
      RefusesUrl (some text) (.invalid .url text (.url e))

/-- Why a method is refused. -/
inductive RefusesMethod (name : String) : SettingsError → Prop
  | invalid (bad : Method.parse? (name.map Char.toUpper) = none) :
      RefusesMethod name (.invalid .method name .method)

/-- Why a number of seconds is refused. -/
inductive RefusesSeconds (setting : Setting) : Nat → SettingsError → Prop
  | zero : RefusesSeconds setting 0 (.invalid setting "0" .zero)

/-- Why a status code is refused. -/
inductive RefusesCode (setting : Setting) (code : Nat) : SettingsError → Prop
  | invalid (bad : code < 100 ∨ 999 < code) :
      RefusesCode setting code (.invalid setting (toString code) .status)

/-- Whether a text on the command line stands for a name and a value: the first equals sign parts
    them, or the first colon if there is no equals sign, and blanks around them do not count. -/
def IsHeaderText (text : String) (parts : String × String) : Prop :=
  ∃ before mark after, text.toList = before ++ mark :: after ∧ mark ∉ before ∧
    (mark = '=' ∨ mark = ':' ∧ '=' ∉ text.toList) ∧
    parts = (Blank.trim (String.ofList before), Blank.trim (String.ofList after))

/-- Why a name and a value are refused as a header. -/
inductive RefusesField (parts : String × String) : SettingsError → Prop
  | name (bad : HeaderName.parse? parts.1 = none) :
      RefusesField parts (.invalid .header parts.1 .headerName)
  | value (bad : HeaderValue.parse? parts.2 = none) :
      RefusesField parts (.invalid .header parts.2 (.headerValue parts.1))

/-- Why a header on the command line is refused. -/
inductive RefusesHeaderText (text : String) : SettingsError → Prop
  | form (bad : '=' ∉ text.toList ∧ ':' ∉ text.toList) :
      RefusesHeaderText text (.invalid .header text .headerForm)
  | field {parts : String × String} {e : SettingsError} (h : IsHeaderText text parts)
      (bad : RefusesField parts e) : RefusesHeaderText text e

/-- Whether a factor between delays is of use. -/
def IsFactor (x : Binary64) : Prop := x.isFinite = true ∧ (Binary64.ofNat 1).le x = true

/-- What is refused of a draft, and for what reason. -/
inductive Draft.Refuses (d : Draft) : SettingsError → Prop
  | url {e : SettingsError} (h : RefusesUrl d.url e) : d.Refuses e
  | method {e : SettingsError} (h : RefusesMethod d.method e) : d.Refuses e
  | fileHeader {parts : String × String} {e : SettingsError} (given : parts ∈ d.fileHeaders)
      (h : RefusesField parts e) : d.Refuses e
  | lineHeader {text : String} {e : SettingsError} (given : text ∈ d.lineHeaders)
      (h : RefusesHeaderText text e) : d.Refuses e
  | expect {code : Nat} {e : SettingsError} (given : code ∈ d.expect)
      (h : RefusesCode .expectedStatus code e) : d.Refuses e
  | credentials (h : d.credentials = none) : d.Refuses .conflictingCredentials
  | attempts {e : SettingsError} (h : RefusesSeconds .retryAttempts d.attempts e) : d.Refuses e
  | initialDelay {e : SettingsError} (h : RefusesSeconds .retryDelay d.initialDelay e) : d.Refuses e
  | multiplier (h : ¬IsFactor d.multiplier) :
      d.Refuses (.invalid .retryMultiplier (d.multiplier.text .plain) .multiplier)
  | maxDelay (h : d.maxDelay < d.initialDelay) :
      d.Refuses (.invalid .retryMaxDelay (toString d.maxDelay) (.belowInitialDelay d.initialDelay))
  | pollingDelay {e : SettingsError} (h : RefusesSeconds .pollingDelay d.pollingDelay e) :
      d.Refuses e
  | pollingDuration {e : SettingsError} (h : RefusesSeconds .pollingDuration d.pollingDuration e) :
      d.Refuses e
  | pollingCodes {code : Nat} {e : SettingsError} (given : code ∈ d.pollingCodes)
      (h : RefusesCode .pollingStatus code e) : d.Refuses e

/-! ## What is described -/

/-- Whether a header is what a name and a value stand for. -/
def Reads (parts : String × String) (field : HeaderName × HeaderValue) : Prop :=
  HeaderName.parse? parts.1 = some field.1 ∧ HeaderValue.parse? parts.2 = some field.2

/-- Whether a header is what a text on the command line stands for. -/
def ReadsText (text : String) (field : HeaderName × HeaderValue) : Prop :=
  ∃ parts, IsHeaderText text parts ∧ Reads parts field

/-- The last value of a name among some headers, if there is one. -/
def lastValue? (fields : Headers) (name : HeaderName) : Option HeaderValue :=
  (fields.values name).getLast?

/-- What the settings are that a draft describes. Of headers with one name the last one counts,
    those of the command line after those of the file. -/
structure Draft.Describes (d : Draft) (s : Settings) : Prop where
  url : ∃ text, d.url = some text ∧ Url.parse text = .ok s.url
  method : Method.parse? (d.method.map Char.toUpper) = some s.method
  headers : ∃ first rest, List.Forall₂ Reads d.fileHeaders first ∧
    List.Forall₂ ReadsText d.lineHeaders rest ∧
    ∀ name, s.headers.values name = (lastValue? (first ++ rest) name).toList
  body : s.body = d.body
  expect : s.expect = d.expect.map Status.mk
  clientRequestId : s.clientRequestId = d.clientRequestId
  credentials : d.credentials = some s.credentials
  retry : s.retry = ⟨d.attempts, .ofSeconds d.initialDelay, .ofSeconds d.maxDelay, d.multiplier⟩
  polling : s.polling = ⟨d.polls, .ofSeconds d.pollingDelay, .ofSeconds d.pollingDuration,
    d.pollingCodes.map Status.mk⟩
  verbose : s.verbose = d.verbose

/-! ## Checks that decide -/

/-- Whether a check decides about some part: it accepts exactly if nothing is refused, and what it
    brings is described; otherwise it tells of something that is refused. -/
def Decides {α : Type} (check : Except SettingsError α) (Refuses : SettingsError → Prop)
    (Describes : α → Prop) : Prop :=
  match check with
  | .ok a => (∀ e, ¬Refuses e) ∧ Describes a
  | .error e => Refuses e

section Decides

variable {α β : Type} {check : Except SettingsError α} {next : α → Except SettingsError β}
  {R R' : SettingsError → Prop} {D : α → Prop} {D' : β → Prop}

/-- Two checks one after another decide about both parts. -/
theorem Decides.bind (h : Decides check R D) (hnext : ∀ a, D a → Decides (next a) R' D') :
    Decides (check >>= next) (fun e => R e ∨ R' e) D' := by
  cases check with
  | error e => exact Or.inl h
  | ok a =>
    obtain ⟨hnone, ha⟩ := h
    have hrest := hnext a ha
    show Decides (next a) _ D'
    cases hb : next a with
    | error e =>
      rw [hb] at hrest
      exact Or.inr hrest
    | ok b =>
      rw [hb] at hrest
      exact ⟨fun e he => he.elim (hnone e) (hrest.1 e), hrest.2⟩

/-- What is refused may be said in another way, and less may be said of what is brought. -/
theorem Decides.imp {E : α → Prop} (h : Decides check R D) (hR : ∀ e, R' e ↔ R e)
    (hD : ∀ a, D a → E a) : Decides check R' E := by
  cases check with
  | error e => exact (hR e).2 h
  | ok a => exact ⟨fun e he => h.1 e ((hR e).1 he), hD a h.2⟩

theorem Decides.of_ok {a : α} (hcheck : check = .ok a) (hnone : ∀ e, ¬R e) (ha : D a) :
    Decides check R D := by
  subst hcheck
  exact ⟨hnone, ha⟩

theorem Decides.of_error {e : SettingsError} (hcheck : check = .error e) (he : R e) :
    Decides check R D := by
  subst hcheck
  exact he

/-- A check that is made only if something else is not wrong. -/
theorem Decides.guard {p : Prop} [Decidable p] {e : SettingsError} (h : ¬p → Decides check R D) :
    Decides (if p then .error e else check) (fun e' => p ∧ e' = e ∨ R e') D := by
  by_cases hp : p
  · exact .of_error (if_pos hp) (.inl ⟨hp, rfl⟩)
  · rw [if_neg hp]
    exact (h hp).imp (by simp [hp]) fun _ => id

/-- Checks of the members of a list decide about all of them. -/
theorem Decides.mapM {check : α → Except SettingsError β} {R : α → SettingsError → Prop}
    {D : α → β → Prop} (h : ∀ a, Decides (check a) (R a) (D a)) (as : List α) :
    Decides (as.mapM check) (fun e => ∃ a ∈ as, R a e) fun bs => List.Forall₂ D as bs := by
  induction as with
  | nil => exact .of_ok rfl (by simp) .nil
  | cons a rest ih =>
    rw [List.mapM_cons]
    refine ((h a).bind fun b hb => ih.bind fun bs hbs => .of_ok rfl (fun _ => id)
      (List.Forall₂.cons hb hbs)).imp (fun e => ?_) fun _ => id
    simp

/-- A check that decides accepts exactly if nothing is refused. -/
theorem Decides.exists_ok_iff (h : Decides check R D) :
    (∃ a, check = .ok a) ↔ ∀ e, ¬R e := by
  cases check with
  | ok a => exact ⟨fun _ => h.1, fun _ => ⟨a, rfl⟩⟩
  | error e => exact ⟨fun ⟨a, ha⟩ => absurd ha (by simp), fun hnone => absurd h (hnone e)⟩

theorem Decides.describes {a : α} (h : Decides check R D) (ha : check = .ok a) : D a := by
  subst ha
  exact h.2

end Decides

section Sources

variable (c : CommandLine) (file : Option SettingsFile)

theorem mergeUrl_decides :
    Decides (mergeUrl c file) (RefusesUrl (Draft.of c file).url)
      fun u => ∃ text, (Draft.of c file).url = some text ∧ Url.parse text = .ok u := by
  rw [mergeUrl_eq]
  cases (Draft.of c file).url with
  | none => exact .of_error rfl .missing
  | some text =>
    cases hp : Url.parse text with
    | error e => exact .of_error (by simp only [hp]) (.invalid hp)
    | ok u =>
      refine .of_ok (by simp only [hp]) (fun e he => ?_) ⟨text, rfl, hp⟩
      cases he with
      | invalid bad => exact absurd (hp.symm.trans bad) (by simp)

theorem mergeMethod_decides :
    Decides (mergeMethod c file) (RefusesMethod (Draft.of c file).method)
      fun m => Method.parse? ((Draft.of c file).method.map Char.toUpper) = some m := by
  rw [mergeMethod_eq]
  generalize (Draft.of c file).method = name
  cases hp : Method.parse? (name.map Char.toUpper) with
  | none => exact .of_error rfl (.invalid hp)
  | some m =>
    refine .of_ok rfl (fun e he => ?_) rfl
    cases he with
    | invalid bad => exact absurd (hp.symm.trans bad) (by simp)

end Sources

theorem positiveSeconds_decides (setting : Setting) (n : Nat) :
    Decides (positiveSeconds setting n) (RefusesSeconds setting n)
      fun d => d = .ofSeconds n := by
  by_cases h : n = 0
  · subst h
    exact .of_error (if_pos rfl) .zero
  · refine .of_ok (if_neg h) (fun e he => ?_) rfl
    cases he with
    | zero => exact h rfl

theorem checkCodes_decides (setting : Setting) (codes : List Nat) :
    Decides (checkCodes setting codes) (fun e => ∃ code ∈ codes, RefusesCode setting code e)
      fun statuses => statuses = codes.map Status.mk := by
  refine (Decides.mapM (D := fun code status => status = ⟨code⟩) (fun code => ?_) codes).imp
    (fun e => Iff.rfl) fun statuses hall => ?_
  · by_cases hcode : Status.isCode code = true
    · refine .of_ok (if_pos hcode) (fun e he => ?_) rfl
      cases he with
      | invalid bad =>
        simp [Status.isCode] at hcode
        omega
    · refine .of_error (if_neg hcode) (.invalid ?_)
      simp [Status.isCode] at hcode
      omega
  · induction hall with
    | nil => rfl
    | cons hone _ ih => rw [List.map_cons, hone, ih]

/-! ## Headers -/

/-- The header that a name and a value stand for. -/
def readField (parts : String × String) : Except SettingsError (HeaderName × HeaderValue) :=
  match HeaderName.parse? parts.1 with
  | none => .error (.invalid .header parts.1 .headerName)
  | some name =>
    match HeaderValue.parse? parts.2 with
    | none => .error (.invalid .header parts.2 (.headerValue parts.1))
    | some value => .ok (name, value)

/-- The header that a text on the command line stands for. -/
def readText (text : String) : Except SettingsError (HeaderName × HeaderValue) :=
  (splitHeader text).bind readField

theorem readField_decides (parts : String × String) :
    Decides (readField parts) (RefusesField parts) (Reads parts) := by
  unfold readField
  cases hname : HeaderName.parse? parts.1 with
  | none => exact .of_error rfl (.name hname)
  | some name =>
    cases hvalue : HeaderValue.parse? parts.2 with
    | none => exact .of_error rfl (.value hvalue)
    | some value =>
      refine .of_ok rfl (fun e he => ?_) ⟨hname, hvalue⟩
      cases he with
      | name bad => exact absurd (hname.symm.trans bad) (by simp)
      | value bad => exact absurd (hvalue.symm.trans bad) (by simp)

/-- A text that is parted at the first of some marks, without the blanks around its parts. -/
def partAt (mark : Char) (text : String) : Option (String × String) :=
  match text.toList.dropWhile (· ≠ mark) with
  | [] => none
  | _ :: after => some (Blank.trim (String.ofList (text.toList.takeWhile (· ≠ mark))),
      Blank.trim (String.ofList after))

theorem partAt_eq_none_iff {mark : Char} {text : String} :
    partAt mark text = none ↔ mark ∉ text.toList := by
  unfold partAt
  cases h : text.toList.dropWhile (· ≠ mark) with
  | nil =>
    rw [List.dropWhile_eq_nil_iff] at h
    exact ⟨fun _ hmem => by simpa using h mark hmem, fun _ => rfl⟩
  | cons c after =>
    refine ⟨fun hnone => absurd hnone (by simp), fun hmem => ?_⟩
    have hnil : text.toList.dropWhile (· ≠ mark) = [] := by
      rw [List.dropWhile_eq_nil_iff]
      intro c hc
      exact decide_eq_true fun heq => hmem (heq ▸ hc)
    exact absurd (h.symm.trans hnil) (by simp)

theorem partAt_eq_some_iff {mark : Char} {text : String} {parts : String × String} :
    partAt mark text = some parts ↔ ∃ before after, text.toList = before ++ mark :: after ∧
      mark ∉ before ∧
      parts = (Blank.trim (String.ofList before), Blank.trim (String.ofList after)) := by
  unfold partAt
  constructor
  · intro h
    cases hdrop : text.toList.dropWhile (· ≠ mark) with
    | nil =>
      rw [hdrop] at h
      exact absurd h (by simp)
    | cons c after =>
      have hc : c = mark := by
        have hhead := List.head?_dropWhile_not (fun c => decide (c ≠ mark)) text.toList
        rw [hdrop] at hhead
        simpa using hhead
      subst hc
      rw [hdrop] at h
      refine ⟨text.toList.takeWhile (· ≠ c), after, ?_, fun hmem => ?_, (Option.some.inj h).symm⟩
      · rw [← hdrop, List.takeWhile_append_dropWhile]
      · simpa using List.mem_takeWhile_imp hmem
  · rintro ⟨before, after, htext, hbefore, rfl⟩
    have hall : ∀ c ∈ before, decide (c ≠ mark) = true := by
      intro c hc
      exact decide_eq_true fun heq => hbefore (heq ▸ hc)
    have htake : text.toList.takeWhile (· ≠ mark) = before := by
      rw [htext, List.takeWhile_append_of_pos hall]
      simp
    have hdrop : text.toList.dropWhile (· ≠ mark) = mark :: after := by
      rw [htext, List.dropWhile_append_of_pos hall]
      simp
    rw [htake, hdrop]

theorem splitHeader_eq (text : String) :
    splitHeader text = match partAt '=' text, partAt ':' text with
      | some parts, _ => .ok parts
      | none, some parts => .ok parts
      | none, none => .error (.invalid .header text .headerForm) := rfl

theorem splitHeader_eq_ok_iff {text : String} {parts : String × String} :
    splitHeader text = .ok parts ↔ IsHeaderText text parts := by
  rw [splitHeader_eq]
  constructor
  · intro h
    cases hequals : partAt '=' text with
    | some parts' =>
      rw [hequals] at h
      obtain rfl := Except.ok.inj h
      obtain ⟨before, after, htext, hbefore, hparts⟩ := partAt_eq_some_iff.1 hequals
      exact ⟨before, '=', after, htext, hbefore, .inl rfl, hparts⟩
    | none =>
      cases hcolon : partAt ':' text with
      | none => simp [hequals, hcolon] at h
      | some parts' =>
        rw [hequals, hcolon] at h
        obtain rfl := Except.ok.inj h
        obtain ⟨before, after, htext, hbefore, hparts⟩ := partAt_eq_some_iff.1 hcolon
        exact ⟨before, ':', after, htext, hbefore, .inr ⟨rfl, partAt_eq_none_iff.1 hequals⟩, hparts⟩
  · rintro ⟨before, mark, after, htext, hbefore, hmark, hparts⟩
    have hpart := partAt_eq_some_iff.2 ⟨before, after, htext, hbefore, hparts⟩
    rcases hmark with rfl | ⟨rfl, hno⟩
    · rw [hpart]
    · rw [partAt_eq_none_iff.2 hno, hpart]

theorem splitHeader_decides (text : String) :
    Decides (splitHeader text)
      (fun e => ('=' ∉ text.toList ∧ ':' ∉ text.toList) ∧ e = .invalid .header text .headerForm)
      (IsHeaderText text) := by
  cases h : splitHeader text with
  | ok parts =>
    have hparts := splitHeader_eq_ok_iff.1 h
    refine .of_ok rfl (fun e he => ?_) hparts
    obtain ⟨before, mark, after, htext, -, hmark, -⟩ := hparts
    rcases hmark with rfl | ⟨rfl, -⟩
    · exact he.1.1 (by simp [htext])
    · exact he.1.2 (by simp [htext])
  | error e =>
    rw [splitHeader_eq] at h
    cases hequals : partAt '=' text with
    | some parts => simp [hequals] at h
    | none =>
      cases hcolon : partAt ':' text with
      | some parts => simp [hequals, hcolon] at h
      | none =>
        rw [hequals, hcolon] at h
        exact .of_error rfl ⟨⟨partAt_eq_none_iff.1 hequals, partAt_eq_none_iff.1 hcolon⟩,
          (Except.error.inj h).symm⟩

theorem readText_decides (text : String) :
    Decides (readText text) (RefusesHeaderText text) (ReadsText text) := by
  have hfield : ∀ parts, IsHeaderText text parts → Decides (readField parts)
      (fun e => ∃ parts, IsHeaderText text parts ∧ RefusesField parts e) (ReadsText text) := by
    intro parts hparts
    refine (readField_decides parts).imp (fun e => ⟨?_, fun he => ⟨parts, hparts, he⟩⟩)
      fun field hreads => ⟨parts, hparts, hreads⟩
    rintro ⟨parts', hparts', he⟩
    have hsame := (splitHeader_eq_ok_iff.2 hparts').symm.trans (splitHeader_eq_ok_iff.2 hparts)
    exact Except.ok.inj hsame ▸ he
  refine ((splitHeader_decides text).bind hfield).imp (fun e => ⟨fun he => ?_, ?_⟩) fun _ => id
  · cases he with
    | form bad => exact .inl ⟨bad, rfl⟩
    | field h bad => exact .inr ⟨_, h, bad⟩
  · rintro (⟨bad, rfl⟩ | ⟨parts, h, bad⟩)
    · exact .form bad
    · exact .field h bad

theorem readField_of_reads {parts : String × String} {field : HeaderName × HeaderValue}
    (h : Reads parts field) : readField parts = .ok field := by
  unfold readField
  rw [h.1]
  dsimp only
  rw [h.2]

theorem readText_of_readsText {text : String} {field : HeaderName × HeaderValue}
    (h : ReadsText text field) : readText text = .ok field := by
  obtain ⟨parts, hparts, hreads⟩ := h
  rw [readText, splitHeader_eq_ok_iff.2 hparts]
  exact readField_of_reads hreads

theorem not_refusesField_of_reads {parts : String × String} {field : HeaderName × HeaderValue}
    (h : Reads parts field) : ∀ e, ¬RefusesField parts e := by
  have hdecides := readField_decides parts
  rw [readField_of_reads h] at hdecides
  exact hdecides.1

theorem not_refusesHeaderText_of_readsText {text : String} {field : HeaderName × HeaderValue}
    (h : ReadsText text field) : ∀ e, ¬RefusesHeaderText text e := by
  have hdecides := readText_decides text
  rw [readText_of_readsText h] at hdecides
  exact hdecides.1

theorem Reads.eq {parts : String × String} {field other : HeaderName × HeaderValue}
    (h : Reads parts field) (h' : Reads parts other) : field = other :=
  Prod.ext (Option.some.inj (h.1.symm.trans h'.1)) (Option.some.inj (h.2.symm.trans h'.2))

theorem IsHeaderText.eq {text : String} {parts other : String × String}
    (h : IsHeaderText text parts) (h' : IsHeaderText text other) : parts = other :=
  Except.ok.inj ((splitHeader_eq_ok_iff.2 h).symm.trans (splitHeader_eq_ok_iff.2 h'))

theorem ReadsText.eq {text : String} {field other : HeaderName × HeaderValue}
    (h : ReadsText text field) (h' : ReadsText text other) : field = other := by
  obtain ⟨parts, hparts, hreads⟩ := h
  obtain ⟨parts', hparts', hreads'⟩ := h'
  obtain rfl := hparts.eq hparts'
  exact hreads.eq hreads'

theorem rightUnique_reads : Relator.RightUnique Reads := fun _ _ _ h h' => h.eq h'

theorem rightUnique_readsText : Relator.RightUnique ReadsText := fun _ _ _ h h' => h.eq h'

/-! ## Other settings -/

theorem mergeCredentials_decides (c : CommandLine) (file : Option SettingsFile) :
    Decides (mergeCredentials c file)
      (fun e => (Draft.of c file).credentials = none ∧ e = .conflictingCredentials)
      fun credentials => (Draft.of c file).credentials = some credentials := by
  rw [mergeCredentials_eq]
  cases (Draft.of c file).credentials with
  | none => exact .of_error rfl ⟨rfl, rfl⟩
  | some credentials => exact .of_ok rfl (fun e he => absurd he.1 (by simp)) rfl

/-- A factor is of use exactly if it is not below one and is finite. Nothing is below or above what
    is no number, but this is not finite either. -/
theorem isFactor_iff (x : Binary64) :
    IsFactor x ↔ (x.lt (Binary64.ofNat 1) || !x.isFinite) = false := by
  obtain ⟨m, e, hone⟩ : ∃ m e, Binary64.ofNat 1 = .finite false m e := ⟨_, _, rfl⟩
  unfold IsFactor
  rw [hone]
  cases x <;> simp [Binary64.isFinite, Binary64.le]

/-- The last step of a policy ends the program unless the factor is of use. -/
theorem withMultiplier_decides {d : Draft} (hattempts : d.attempts ≠ 0)
    (hfactor : IsFactor d.multiplier) {initialDelay : Duration}
    (hinitial : initialDelay = .ofSeconds d.initialDelay) :
    Decides (match (((RetryPolicy.standard.withMaxAttempts d.attempts).withInitialDelay
        initialDelay).withMaxDelay (.ofSeconds d.maxDelay)).withMultiplier d.multiplier with
      | .ok policy => .ok policy
      | .error crash => .error (.crash crash)) (fun _ => False) fun policy => policy =
        ⟨d.attempts, .ofSeconds d.initialDelay, .ofSeconds d.maxDelay, d.multiplier⟩ := by
  have hmax : max d.attempts 1 = d.attempts := Nat.max_eq_left (Nat.one_le_iff_ne_zero.2 hattempts)
  subst hinitial
  unfold RetryPolicy.withMultiplier
  rw [if_pos hfactor.2]
  refine .of_ok rfl (fun _ => id) ?_
  simp only [RetryPolicy.withMaxAttempts, RetryPolicy.withInitialDelay, RetryPolicy.withMaxDelay,
    hmax]

theorem refusesSeconds_iff {setting : Setting} {n : Nat} {e : SettingsError} :
    RefusesSeconds setting n e ↔ n = 0 ∧ e = .invalid setting (toString n) .zero := by
  constructor
  · rintro ⟨⟩
    exact ⟨rfl, rfl⟩
  · rintro ⟨rfl, rfl⟩
    exact .zero

theorem mergeRetry_decides (c : CommandLine) (file : Option SettingsFile) :
    let d := Draft.of c file
    Decides (mergeRetry c file)
      (fun e => RefusesSeconds .retryAttempts d.attempts e ∨
        RefusesSeconds .retryDelay d.initialDelay e ∨
        (¬IsFactor d.multiplier ∧
          e = .invalid .retryMultiplier (d.multiplier.text .plain) .multiplier) ∨
        d.maxDelay < d.initialDelay ∧
          e = .invalid .retryMaxDelay (toString d.maxDelay) (.belowInitialDelay d.initialDelay))
      fun policy => policy =
        ⟨d.attempts, .ofSeconds d.initialDelay, .ofSeconds d.maxDelay, d.multiplier⟩ := by
  intro d
  have hfactor : (d.multiplier.lt (Binary64.ofNat 1) || !d.multiplier.isFinite) = true ↔
      ¬IsFactor d.multiplier := by
    rw [isFactor_iff, Bool.not_eq_false]
  rw [mergeRetry_eq]
  refine (Decides.guard fun hattempts =>
    (positiveSeconds_decides .retryDelay d.initialDelay).bind fun initialDelay hinitial =>
      .guard fun hfinite => .guard fun _ => withMultiplier_decides hattempts
        (Classical.not_not.1 fun hnot => hfinite (hfactor.2 hnot)) hinitial).imp (fun e => ?_)
    fun _ => id
  rw [refusesSeconds_iff (n := d.attempts), hfactor, or_false]

theorem mergePolling_decides (c : CommandLine) (file : Option SettingsFile) :
    let d := Draft.of c file
    Decides (mergePolling c file)
      (fun e => RefusesSeconds .pollingDelay d.pollingDelay e ∨
        RefusesSeconds .pollingDuration d.pollingDuration e ∨
        ∃ code ∈ d.pollingCodes, RefusesCode .pollingStatus code e)
      fun polling => polling = ⟨d.polls, .ofSeconds d.pollingDelay, .ofSeconds d.pollingDuration,
        d.pollingCodes.map Status.mk⟩ := by
  intro d
  rw [mergePolling_eq]
  refine ((positiveSeconds_decides .pollingDelay d.pollingDelay).bind fun delay hdelay =>
    (positiveSeconds_decides .pollingDuration d.pollingDuration).bind fun duration hduration =>
    (checkCodes_decides .pollingStatus d.pollingCodes).bind fun codes hcodes =>
    .of_ok rfl (fun _ => id) ?_).imp (by simp) fun _ => id
  rw [hdelay, hduration, hcodes]

end Courier
