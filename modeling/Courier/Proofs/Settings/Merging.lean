import Courier.Proofs.Settings.Room
import Mathlib.Data.List.Nodup
import Mathlib.Data.Nat.Digits.Defs
import Std.Data.String.ToNat

set_option autoImplicit false

/-! # What settings amount to

All checks together decide about a draft: there are settings exactly if nothing is refused and all
headers find room, and then they are fit for use. -/

namespace Courier

/-! ## All settings -/

theorem Draft.refuses_iff (d : Draft) (e : SettingsError) : d.Refuses e ↔
    RefusesUrl d.url e ∨ RefusesMethod d.method e ∨
      ((∃ parts ∈ d.fileHeaders, RefusesField parts e) ∨
        ∃ text ∈ d.lineHeaders, RefusesHeaderText text e) ∨
      (∃ code ∈ d.expect, RefusesCode .expectedStatus code e) ∨
      (d.credentials = none ∧ e = .conflictingCredentials) ∨
      (RefusesSeconds .retryAttempts d.attempts e ∨
        RefusesSeconds .retryDelay d.initialDelay e ∨
        (¬IsFactor d.multiplier ∧
          e = .invalid .retryMultiplier (d.multiplier.text .plain) .multiplier) ∨
        d.maxDelay < d.initialDelay ∧
          e = .invalid .retryMaxDelay (toString d.maxDelay) (.belowInitialDelay d.initialDelay)) ∨
      RefusesSeconds .pollingDelay d.pollingDelay e ∨
      RefusesSeconds .pollingDuration d.pollingDuration e ∨
      ∃ code ∈ d.pollingCodes, RefusesCode .pollingStatus code e := by
  constructor
  · intro h
    cases h with
    | url h => exact .inl h
    | method h => exact .inr (.inl h)
    | fileHeader given h => exact .inr (.inr (.inl (.inl ⟨_, given, h⟩)))
    | lineHeader given h => exact .inr (.inr (.inl (.inr ⟨_, given, h⟩)))
    | expect given h => exact .inr (.inr (.inr (.inl ⟨_, given, h⟩)))
    | credentials h => exact .inr (.inr (.inr (.inr (.inl ⟨h, rfl⟩))))
    | attempts h => exact .inr (.inr (.inr (.inr (.inr (.inl (.inl h))))))
    | initialDelay h => exact .inr (.inr (.inr (.inr (.inr (.inl (.inr (.inl h)))))))
    | multiplier h =>
      exact .inr (.inr (.inr (.inr (.inr (.inl (.inr (.inr (.inl ⟨h, rfl⟩))))))))
    | maxDelay h => exact .inr (.inr (.inr (.inr (.inr (.inl (.inr (.inr (.inr ⟨h, rfl⟩))))))))
    | pollingDelay h => exact .inr (.inr (.inr (.inr (.inr (.inr (.inl h))))))
    | pollingDuration h => exact .inr (.inr (.inr (.inr (.inr (.inr (.inr (.inl h)))))))
    | pollingCodes given h =>
      exact .inr (.inr (.inr (.inr (.inr (.inr (.inr (.inr ⟨_, given, h⟩)))))))
  · rintro (h | h | (⟨_, given, h⟩ | ⟨_, given, h⟩) | ⟨_, given, h⟩ | ⟨h, rfl⟩ |
      (h | h | ⟨h, rfl⟩ | ⟨h, rfl⟩) | h | h | ⟨_, given, h⟩)
    · exact .url h
    · exact .method h
    · exact .fileHeader given h
    · exact .lineHeader given h
    · exact .expect given h
    · exact .credentials h
    · exact .attempts h
    · exact .initialDelay h
    · exact .multiplier h
    · exact .maxDelay h
    · exact .pollingDelay h
    · exact .pollingDuration h
    · exact .pollingCodes given h

/-- A draft with other headers of the file and of the command line. -/
def Draft.withHeaders (d : Draft) (table : List (String × String)) (lines : List String) : Draft :=
  { d with fileHeaders := table, lineHeaders := lines }

theorem Draft.refuses_withHeaders_iff {d : Draft} {table : List (String × String)}
    {lines : List String} {e : SettingsError} : (d.withHeaders table lines).Refuses e ↔
      (d.withHeaders [] []).Refuses e ∨ (∃ parts ∈ table, RefusesField parts e) ∨
        ∃ text ∈ lines, RefusesHeaderText text e := by
  rw [Draft.refuses_iff, Draft.refuses_iff]
  simp only [Draft.withHeaders, List.not_mem_nil, false_and, exists_false, false_or]
  ac_nf

/-- All checks together decide about the draft of the two sources. -/
theorem Settings.mergeWithin_decides (room : HeaderRoom) (c : CommandLine)
    (file : Option SettingsFile) : Decides (Settings.mergeWithin room c file)
      (fun e => (Draft.of c file).Refuses e ∨
        (Draft.of c file).Overflows room ∧ e = .crash .headersFull)
      (Draft.of c file).Describes := by
  have hmerge : Settings.mergeWithin room c file =
      mergeUrl c file >>= fun url => mergeMethod c file >>= fun method =>
      mergeHeaders room c file >>= fun headers =>
      checkCodes .expectedStatus (Draft.of c file).expect >>= fun expect =>
      mergeCredentials c file >>= fun credentials =>
      mergeRetry c file >>= fun retry => mergePolling c file >>= fun polling =>
      .ok ⟨url, method, headers, (Draft.of c file).body, expect, (Draft.of c file).clientRequestId,
        credentials, retry, polling, (Draft.of c file).verbose⟩ := by
    rw [← mergeExpect_eq]
    rfl
  rw [hmerge]
  refine Decides.imp ((mergeUrl_decides c file).bind fun url hurl =>
    (mergeMethod_decides c file).bind fun method hmethod =>
    (mergeHeaders_decides room c file).bind fun headers hheaders =>
    (checkCodes_decides .expectedStatus (Draft.of c file).expect).bind fun expect hexpect =>
    (mergeCredentials_decides c file).bind fun credentials hcredentials =>
    (mergeRetry_decides c file).bind fun retry hretry =>
    (mergePolling_decides c file).bind fun polling hpolling =>
    .of_ok rfl (fun _ => id)
      ⟨hurl, hmethod, hheaders, rfl, hexpect, rfl, hcredentials, hretry, hpolling, rfl⟩)
    (fun e => ?_) fun _ => id
  rw [Draft.refuses_iff, or_false]
  -- Room is checked with the headers, and is told of last.
  have hlater (url method headers others full : Prop) :
      (url ∨ method ∨ headers ∨ others) ∨ full ↔ url ∨ method ∨ (headers ∨ full) ∨ others := by
    tauto
  exact hlater _ _ _ _ _

theorem RefusesUrl.ne_crash {url : Option String} {e : SettingsError} (h : RefusesUrl url e)
    (crash : Crash) : e ≠ .crash crash := by
  cases h <;> simp

theorem RefusesField.ne_crash {parts : String × String} {e : SettingsError}
    (h : RefusesField parts e) (crash : Crash) : e ≠ .crash crash := by
  cases h <;> simp

theorem RefusesMethod.ne_crash {name : String} {e : SettingsError} (h : RefusesMethod name e)
    (crash : Crash) : e ≠ .crash crash := by
  cases h
  simp

theorem RefusesHeaderText.ne_crash {text : String} {e : SettingsError}
    (h : RefusesHeaderText text e) (crash : Crash) : e ≠ .crash crash := by
  cases h with
  | form bad => simp
  | field h bad => exact bad.ne_crash crash

/-- No setting is refused because the program has ended. -/
theorem Draft.Refuses.ne_crash {d : Draft} {e : SettingsError} (h : d.Refuses e) (crash : Crash) :
    e ≠ .crash crash := by
  cases h with
  | url h => exact h.ne_crash crash
  | method h => exact h.ne_crash crash
  | fileHeader given h => exact h.ne_crash crash
  | lineHeader given h => exact h.ne_crash crash
  | expect given h => cases h; simp
  | credentials h => simp
  | attempts h => obtain ⟨-, rfl⟩ := refusesSeconds_iff.1 h; simp
  | initialDelay h => obtain ⟨-, rfl⟩ := refusesSeconds_iff.1 h; simp
  | multiplier h => simp
  | maxDelay h => simp
  | pollingDelay h => obtain ⟨-, rfl⟩ := refusesSeconds_iff.1 h; simp
  | pollingDuration h => obtain ⟨-, rfl⟩ := refusesSeconds_iff.1 h; simp
  | pollingCodes given h => cases h; simp

/-! ## Sound settings -/

/-- Whether settings are fit for use: there is at least one attempt, delays do not shrink and are
    not zero, and there are status codes to compare with. -/
structure Settings.Sound (s : Settings) : Prop where
  attempts : 1 ≤ s.retry.maxAttempts
  initialDelay : 0 < s.retry.initialDelay.nanos
  maxDelay : s.retry.initialDelay.nanos ≤ s.retry.maxDelay.nanos
  multiplier : IsFactor s.retry.multiplier
  pollingDelay : 0 < s.polling.delay.nanos
  pollingDuration : 0 < s.polling.duration.nanos
  expect : s.expect ≠ [] ∧ ∀ status ∈ s.expect, 100 ≤ status.code ∧ status.code ≤ 999
  pollingCodes : s.polling.codes ≠ [] ∧
    ∀ status ∈ s.polling.codes, 100 ≤ status.code ∧ status.code ≤ 999

theorem codes_of_not_refused {setting : Setting} {codes : List Nat}
    (h : ∀ code ∈ codes, ∀ e, ¬RefusesCode setting code e) :
    ∀ status ∈ codes.map Status.mk, 100 ≤ status.code ∧ status.code ≤ 999 := by
  intro status hstatus
  obtain ⟨code, hcode, rfl⟩ := List.mem_map.1 hstatus
  have hgood : ¬(code < 100 ∨ 999 < code) := fun bad => h code hcode _ (.invalid bad)
  show 100 ≤ code ∧ code ≤ 999
  omega

theorem pos_of_not_refused {setting : Setting} {n : Nat} (h : ∀ e, ¬RefusesSeconds setting n e) :
    0 < (Duration.ofSeconds n).nanos := by
  cases n with
  | zero => exact absurd .zero (h _)
  | succ n => exact Nat.mul_pos (Nat.succ_pos n) (by decide)

/-- What is described is fit for use if nothing is refused. -/
theorem Draft.Describes.sound {d : Draft} {s : Settings} (h : d.Describes s)
    (hexpect : d.expect ≠ []) (hcodes : d.pollingCodes ≠ []) (hnone : ∀ e, ¬d.Refuses e) :
    s.Sound := by
  obtain ⟨-, -, -, -, hexpected, -, -, hretry, hpolling, -⟩ := h
  constructor
  · rw [hretry]
    exact Nat.one_le_iff_ne_zero.2 fun hzero =>
      hnone _ (.attempts (refusesSeconds_iff.2 ⟨hzero, rfl⟩))
  · rw [hretry]
    exact pos_of_not_refused fun e he => hnone e (.initialDelay he)
  · rw [hretry]
    have hle : d.initialDelay ≤ d.maxDelay := Nat.le_of_not_lt fun hlt => hnone _ (.maxDelay hlt)
    exact Nat.mul_le_mul_right _ hle
  · rw [hretry]
    exact Classical.not_not.1 fun hnot => hnone _ (.multiplier hnot)
  · rw [hpolling]
    exact pos_of_not_refused fun e he => hnone e (.pollingDelay he)
  · rw [hpolling]
    exact pos_of_not_refused fun e he => hnone e (.pollingDuration he)
  · rw [hexpected]
    exact ⟨by simpa using hexpect, codes_of_not_refused fun code hcode e he =>
      hnone e (.expect hcode he)⟩
  · rw [hpolling]
    exact ⟨by simpa using hcodes, codes_of_not_refused fun code hcode e he =>
      hnone e (.pollingCodes hcode he)⟩

/-! ## Room for all headers -/

theorem Draft.not_overflows_unlimited (d : Draft) : ¬d.Overflows .unlimited := by
  rintro (⟨_, _, _, _, -, -, hfull⟩ | ⟨_, -, _, _, _, _, -, -, hfull⟩)
  · exact absurd hfull (by simp [HeaderRoom.unlimited])
  · exact absurd hfull (by simp [HeaderRoom.unlimited])

/-- Where no headers are set, there is room for them. -/
theorem Draft.not_overflows_of_nil {d : Draft} {room : HeaderRoom} (hfile : d.fileHeaders = [])
    (hline : d.lineHeaders = []) : ¬d.Overflows room := by
  rintro (hfull | ⟨first, -, hfull⟩)
  · exact not_overfills_nil (hfile ▸ hfull)
  · exact not_overfills_nil (hline ▸ hfull)

/-- With room for all headers there is nothing else that decides. -/
theorem Settings.merge_decides (c : CommandLine) (file : Option SettingsFile) :
    Decides (Settings.merge c file) (Draft.of c file).Refuses (Draft.of c file).Describes :=
  (Settings.mergeWithin_decides .unlimited c file).imp
    (fun _ => (or_iff_left fun h => (Draft.of c file).not_overflows_unlimited h.1).symm) fun _ => id

section Sources

variable {room : HeaderRoom} {c : CommandLine} {file : Option SettingsFile}

/-- How much room there is makes no difference unless it is too little. -/
theorem Settings.mergeWithin_eq_merge (h : ¬(Draft.of c file).Overflows room) :
    Settings.mergeWithin room c file = Settings.merge c file := by
  have hheaders : mergeHeaders room c file = mergeHeaders .unlimited c file := by
    refine (mergeHeaders_eq_or_crash room c file).resolve_right fun hcrash => ?_
    have hdecides := mergeHeaders_decides room c file
    rw [hcrash] at hdecides
    rcases hdecides with (⟨parts, -, bad⟩ | ⟨text, -, bad⟩) | ⟨hfull, -⟩
    · exact bad.ne_crash _ rfl
    · exact bad.ne_crash _ rfl
    · exact h hfull
  unfold Settings.merge Settings.mergeWithin
  rw [hheaders]

/-- Nothing ends the program but headers that find no room, and they do so unless the URL or the
    method is refused before. -/
theorem Settings.mergeWithin_eq_crash_iff {crash : Crash} :
    Settings.mergeWithin room c file = .error (.crash crash) ↔ crash = .headersFull ∧
      (∀ e, ¬RefusesUrl (Draft.of c file).url e) ∧
      (∀ e, ¬RefusesMethod (Draft.of c file).method e) ∧ (Draft.of c file).Overflows room := by
  have hurl := mergeUrl_decides c file
  have hmethod := mergeMethod_decides c file
  constructor
  · intro hcrash
    have hdecides := Settings.mergeWithin_decides room c file
    rw [hcrash] at hdecides
    obtain ⟨hfull, rfl⟩ : (Draft.of c file).Overflows room ∧ crash = .headersFull := by
      rcases hdecides with hrefused | ⟨hfull, heq⟩
      · exact absurd rfl (hrefused.ne_crash crash)
      · exact ⟨hfull, SettingsError.crash.inj heq⟩
    unfold Settings.mergeWithin at hcrash
    cases hu : mergeUrl c file with
    | error e =>
      rw [hu] at hcrash hurl
      exact absurd (Except.error.inj hcrash) (hurl.ne_crash _)
    | ok url =>
      rw [hu] at hcrash hurl
      cases hm : mergeMethod c file with
      | error e =>
        rw [hm] at hcrash hmethod
        exact absurd (Except.error.inj hcrash) (hmethod.ne_crash _)
      | ok method =>
        rw [hm] at hmethod
        exact ⟨rfl, hurl.1, hmethod.1, hfull⟩
  · rintro ⟨rfl, hurlFine, hmethodFine, hfull⟩
    obtain ⟨url, hu⟩ := hurl.exists_ok_iff.2 hurlFine
    obtain ⟨method, hm⟩ := hmethod.exists_ok_iff.2 hmethodFine
    unfold Settings.mergeWithin
    rw [hu, hm, mergeHeaders_of_overflows hfull]
    rfl

end Sources

/-- **Settings are what their sources amount to.** The command line and the settings file count only
    by the draft of them: where drafts are the same, so is the outcome, and no file is the same as
    one that says nothing. There are settings exactly if nothing of the draft is refused and all
    headers find room. Then they are those that the draft describes, and fit for use; otherwise the
    error tells of something that is refused, or the program ends for want of room. The program ends
    for nothing else. How much room there is makes no other difference.

    What is said of the URL is said for hosts in ASCII: a URL whose host is an international name is
    refused as one with no valid host, see `Host.name?`. -/
theorem settings_are_merged (room : HeaderRoom) (c : CommandLine) (file : Option SettingsFile) :
    (∀ c' file', Draft.of c' file' = Draft.of c file →
      Settings.mergeWithin room c' file' = Settings.mergeWithin room c file) ∧
    Settings.mergeWithin room c none = Settings.mergeWithin room c (some .empty) ∧
    ((∃ s, Settings.mergeWithin room c file = .ok s) ↔
      (∀ e, ¬(Draft.of c file).Refuses e) ∧ ¬(Draft.of c file).Overflows room) ∧
    (∀ s, Settings.mergeWithin room c file = .ok s → (Draft.of c file).Describes s ∧ s.Sound) ∧
    (∀ e, Settings.mergeWithin room c file = .error e → (∀ crash, e ≠ .crash crash) →
      (Draft.of c file).Refuses e) ∧
    (∀ crash, Settings.mergeWithin room c file = .error (.crash crash) ↔ crash = .headersFull ∧
      (∀ e, ¬RefusesUrl (Draft.of c file).url e) ∧
      (∀ e, ¬RefusesMethod (Draft.of c file).method e) ∧ (Draft.of c file).Overflows room) ∧
    (¬(Draft.of c file).Overflows room →
      Settings.mergeWithin room c file = Settings.merge c file) := by
  have hexpect := Draft.expect_ne_nil c file
  have hcodes := Draft.pollingCodes_ne_nil c file
  have hdecides := Settings.mergeWithin_decides room c file
  refine ⟨fun c' file' => merge_of_draft_eq room, merge_of_draft_eq room (Draft.of_none c), ?_,
    fun s hs => ?_, fun e he hcrash => ?_, fun _ => Settings.mergeWithin_eq_crash_iff,
    Settings.mergeWithin_eq_merge⟩
  · rw [hdecides.exists_ok_iff]
    exact ⟨fun h => ⟨fun e he => h e (.inl he), fun hfull => h _ (.inr ⟨hfull, rfl⟩)⟩,
      fun h e he => he.elim (h.1 e) fun hfull => h.2 hfull.1⟩
  · rw [hs] at hdecides
    exact ⟨hdecides.2, hdecides.2.sound hexpect hcodes fun e he => hdecides.1 e (.inl he)⟩
  · rw [he] at hdecides
    exact hdecides.resolve_right fun hfull => hcrash _ hfull.2

/-- A command line that says where to send a request. -/
def addressedLine : CommandLine := { CommandLine.empty with url := some "http://h/" }

/-- A file with a URL that is none. -/
def astrayFile : SettingsFile :=
  { SettingsFile.empty with request := { SettingsFile.empty.request with url := some "?" } }

/-- A file that says where to send a request. -/
def addressedFile : SettingsFile :=
  { SettingsFile.empty with request := { SettingsFile.empty.request with url := some "http://h/" } }

/-- A file with a factor that is no number. -/
def factorlessFile : SettingsFile :=
  { SettingsFile.empty with retry := { SettingsFile.empty.retry with multiplier := some .nan } }

/-- A URL in the file does not matter if there is one on the command line, a factor that is no
    number is refused, and where no header is set there is room for all. -/
theorem settings_are_merged_addressed :
    Draft.of .empty (some addressedFile) = Draft.of addressedLine (some astrayFile) ∧
    Settings.mergeWithin .standard .empty (some addressedFile) =
      Settings.mergeWithin .standard addressedLine (some astrayFile) ∧
    (∃ s, Settings.mergeWithin .standard addressedLine (some astrayFile) = .ok s ∧
      (Draft.of addressedLine (some astrayFile)).Describes s ∧ s.Sound) ∧
    (∃ e, Settings.mergeWithin .standard addressedLine (some factorlessFile) = .error e ∧
      (∀ crash, e ≠ .crash crash) ∧ (Draft.of addressedLine (some factorlessFile)).Refuses e) ∧
    ¬(Draft.of addressedLine (some astrayFile)).Overflows .standard ∧
    Settings.mergeWithin .standard addressedLine (some astrayFile) =
      Settings.merge addressedLine (some astrayFile) := by
  have hdraft : Draft.of .empty (some addressedFile) = Draft.of addressedLine (some astrayFile) :=
    rfl
  have hok : (Settings.mergeWithin .standard addressedLine (some astrayFile)).toOption.isSome =
      true := by decide +kernel
  have herror : (Settings.mergeWithin .standard addressedLine
      (some factorlessFile)).toOption.isSome = false := by decide +kernel
  have hroom : ¬(Draft.of addressedLine (some astrayFile)).Overflows .standard :=
    Draft.not_overflows_of_nil rfl rfl
  have hmerged := settings_are_merged .standard addressedLine (some astrayFile)
  have hrefused := settings_are_merged .standard addressedLine (some factorlessFile)
  refine ⟨hdraft, hmerged.1 .empty (some addressedFile) hdraft, ?_, ?_, hroom,
    hmerged.2.2.2.2.2.2 hroom⟩
  · cases h : Settings.mergeWithin .standard addressedLine (some astrayFile) with
    | error e => simp [h, Except.toOption] at hok
    | ok s => exact ⟨s, rfl, hmerged.2.2.2.1 s h⟩
  · cases h : Settings.mergeWithin .standard addressedLine (some factorlessFile) with
    | ok s => simp [h, Except.toOption] at herror
    | error e =>
      have hcrash : ∀ crash, e ≠ .crash crash := by
        rintro crash rfl
        exact Draft.not_overflows_of_nil rfl rfl ((hrefused.2.2.2.2.2.1 crash).1 h).2.2.2
      exact ⟨e, rfl, hcrash, hrefused.2.2.2.2.1 e h hcrash⟩

/-! ## Headers without room -/

/-- A header whose name is a number. -/
def numberedField (n : Nat) : HeaderName × HeaderValue := (⟨n.repr⟩, ⟨[49]⟩)

/-- A header whose name is a number, as it stands on the command line. -/
def numberedText (n : Nat) : String := n.repr ++ "=1"

/-- A command line with headers whose names are the first numbers. -/
def numberedLine (n : Nat) : CommandLine :=
  { CommandLine.empty with url := some "ftp://h/", headers := (List.range n).map numberedText }

theorem legal_of_mem_repr {n : Nat} {c : Char} (h : c ∈ n.repr.toList) :
    isTokenChar c = true ∧ c.toLower = c ∧ isBlank c = false ∧ c ≠ '=' := by
  have hdigit : c.isDigit = true :=
    Nat.isDigit_of_mem_toDigits (by decide) (by decide) (Nat.toList_repr ▸ h)
  obtain ⟨hlow, hhigh⟩ : 48 ≤ c.toNat ∧ c.toNat ≤ 57 := Char.isDigit_iff_toNat.1 hdigit
  refine ⟨by simp [isTokenChar, Char.isAlphanum, hdigit], dif_neg fun hupper => ?_, ?_, ?_⟩
  · have hletter : 65 ≤ c.toNat := UInt32.le_iff_toNat_le.1 hupper.1
    omega
  · simp only [isBlank, Bool.or_eq_false_iff, Bool.and_eq_false_iff, decide_eq_false_iff_not,
      beq_eq_false_iff_ne]
    omega
  · rintro rfl
    exact absurd hhigh (by decide)

section Numbered

variable {n : Nat}

theorem readsText_numbered (h : n < 10 ^ 5) : ReadsText (numberedText n) (numberedField n) := by
  refine ⟨(n.repr, "1"), ⟨n.repr.toList, '=', ['1'], ?_, fun hmem => ?_, .inl rfl, ?_⟩, ?_, ?_⟩
  · rw [numberedText, String.toList_append]
    rfl
  · exact (legal_of_mem_repr hmem).2.2.2 rfl
  · rw [Blank.trim_of_forall fun c hc => (legal_of_mem_repr hc).2.2.1, String.ofList_toList]
    rfl
  · have hlength : n.repr.length ≤ 65535 := (Nat.repr_length n 5 (by decide) h).trans (by decide)
    have hlower : n.repr.toList.map Char.toLower = n.repr.toList :=
      (List.map_congr_left fun c hc => (legal_of_mem_repr hc).2.1).trans (List.map_id _)
    have hlegal : n.repr.toList.all isTokenChar = true :=
      List.all_eq_true.2 fun c hc => (legal_of_mem_repr hc).1
    have hname : HeaderName.parse? n.repr =
        some ⟨String.ofList (n.repr.toList.map Char.toLower)⟩ :=
      if_pos (by simp [-Nat.toList_repr, hlength, hlegal])
    rw [hname, hlower, String.ofList_toList]
    rfl
  · exact (by decide +kernel : HeaderValue.parse? "1" = some ⟨[49]⟩)

theorem forall₂_numbered (h : n ≤ 10 ^ 5) : List.Forall₂ ReadsText
    ((List.range n).map numberedText) ((List.range n).map numberedField) := by
  rw [List.forall₂_map_left_iff, List.forall₂_map_right_iff, List.forall₂_same]
  exact fun k hk => readsText_numbered ((List.mem_range.1 hk).trans_le h)

/-- Nothing is wrong with headers whose names are numbers. -/
theorem numberedLine_not_refused (h : n ≤ 10 ^ 5) (e : SettingsError) :
    ¬(Draft.of (numberedLine n) none).Refuses e := by
  have hothers : (Settings.merge (numberedLine 0) none).toOption.isSome = true := by
    decide +kernel
  have hnone : ∀ e, ¬(Draft.of (numberedLine 0) none).Refuses e := by
    refine (Settings.merge_decides (numberedLine 0) none).exists_ok_iff.1 ?_
    cases hmerge : Settings.merge (numberedLine 0) none with
    | error e => simp [hmerge, Except.toOption] at hothers
    | ok s => exact ⟨s, rfl⟩
  intro he
  have he' : ((Draft.of (numberedLine 0) none).withHeaders []
      ((List.range n).map numberedText)).Refuses e := he
  rcases Draft.refuses_withHeaders_iff.1 he' with hrefused | ⟨parts, hparts, -⟩ | ⟨text, htext, bad⟩
  · exact hnone e hrefused
  · exact absurd hparts List.not_mem_nil
  · obtain ⟨k, hk, rfl⟩ := List.mem_map.1 htext
    have hlegal := readsText_numbered ((List.mem_range.1 hk).trans_le h)
    exact not_refusesHeaderText_of_readsText hlegal e bad

theorem numberedLine_overflows (hlow : 24576 ≤ n) (hhigh : n < 10 ^ 5) :
    (Draft.of (numberedLine (n + 1)) none).Overflows .standard := by
  have hreads := forall₂_numbered hhigh
  have hinjective : Function.Injective fun n => (numberedField n).1 := fun _ _ h =>
    Nat.repr_inj.1 (HeaderName.mk.inj h)
  have hnames : (((List.range n).map numberedField).map Prod.fst).Nodup := by
    rw [List.map_map]
    exact List.Nodup.map hinjective List.nodup_range
  refine .inr ⟨[], .nil, (List.range (n + 1)).map numberedText, [],
    (List.range n).map numberedField, numberedField n, (List.append_nil _).symm, ?_, ?_⟩
  · rw [List.range_succ, List.map_append, List.map_append] at hreads
    rwa [List.range_succ, List.map_append]
  · exact HeaderRoom.standard_eq_false (by simpa using hlow) hnames

/-- One header more than a map holds ends the program. -/
theorem numberedLine_crashes :
    Settings.mergeWithin .standard (numberedLine 24577) none = .error (.crash .headersFull) := by
  have hnone := numberedLine_not_refused (n := 24577) (by decide)
  exact Settings.mergeWithin_eq_crash_iff.2 ⟨rfl, fun e h => hnone e (.url h),
    fun e h => hnone e (.method h), numberedLine_overflows (by decide) (by decide)⟩

end Numbered

/-- Nothing of a command line need be wrong for the program to end. -/
theorem not_settings_are_merged_crowded :
    (∀ e, ¬(Draft.of (numberedLine 24577) none).Refuses e) ∧
    Settings.mergeWithin .standard (numberedLine 24577) none = .error (.crash .headersFull) :=
  ⟨numberedLine_not_refused (by decide), numberedLine_crashes⟩

end Courier
