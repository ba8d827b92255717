import Courier.Program
import Courier.Proofs.Judgement.Runs
import Courier.Proofs.Preparing.Order
import Courier.Proofs.Settings.Fields

set_option autoImplicit false

/-! # Exit codes

A call of the program is refused before anything is sent if its settings cannot be used, or if the
template cannot be written; what is refused, and for what reason, is said without regard to the
order of the checks. Any other call of the program writes a template or goes on to send, and fails
if it cannot start to, if it does not succeed, or if what it brings cannot be printed. The exit
codes tell these ends apart, and all of them from a crash: `exit_codes`. -/

namespace Courier

/-! ## Settings files -/

/-- Why a settings file is refused as a whole. -/
inductive SettingsFile.RefusedAt (files : FileTree) (path : String) : SettingsError → Prop
  | unreadable {e : FileError} (bad : files.read path = .error e) :
      RefusedAt files path (.file .read path e)
  | notText {content : Bytes} (h : files.read path = .ok content)
      (bad : Utf8.decode? content = none) : RefusedAt files path (.file .read path .notText)
  | malformed {content : Bytes} {text : String} (h : files.read path = .ok content)
      (decoded : Utf8.decode? content = some text)
      (bad : (Toml.parse? text).bind SettingsFile.ofTable? = none) :
      RefusedAt files path .malformed

/-- Whether a settings file is found at a path. -/
def SettingsFile.FoundAt (files : FileTree) (path : String) (file : SettingsFile) : Prop :=
  ∃ content text, files.read path = .ok content ∧ Utf8.decode? content = some text ∧
    (Toml.parse? text).bind SettingsFile.ofTable? = some file

theorem SettingsFile.FoundAt.unique {files : FileTree} {path : String} {f g : SettingsFile}
    (hf : FoundAt files path f) (hg : FoundAt files path g) : f = g := by
  obtain ⟨content, text, hread, hdecode, hparse⟩ := hf
  obtain ⟨content', text', hread', hdecode', hparse'⟩ := hg
  obtain rfl := Except.ok.inj (hread.symm.trans hread')
  obtain rfl := Option.some.inj (hdecode.symm.trans hdecode')
  exact Option.some.inj (hparse.symm.trans hparse')

theorem SettingsFile.FoundAt.not_refused {files : FileTree} {path : String} {f : SettingsFile}
    (h : FoundAt files path f) {e : SettingsError} : ¬RefusedAt files path e := by
  obtain ⟨content, text, hread, hdecode, hparse⟩ := h
  intro hrefused
  cases hrefused with
  | unreadable bad => exact absurd (hread.symm.trans bad) (by simp)
  | notText h bad =>
    obtain rfl := Except.ok.inj (hread.symm.trans h)
    exact absurd (hdecode.symm.trans bad) (by simp)
  | malformed h decoded bad =>
    obtain rfl := Except.ok.inj (hread.symm.trans h)
    obtain rfl := Option.some.inj (hdecode.symm.trans decoded)
    exact absurd (hparse.symm.trans bad) (by simp)

/-- Loading decides about a settings file. -/
theorem SettingsFile.load_decides (path : String) (files : FileTree) :
    Decides (SettingsFile.load path files) (RefusedAt files path) (FoundAt files path) := by
  unfold SettingsFile.load SettingsFile.parse
  cases hread : files.read path with
  | error e => exact RefusedAt.unreadable hread
  | ok content =>
    dsimp only
    cases hdecode : Utf8.decode? content with
    | none => exact RefusedAt.notText hread hdecode
    | some text =>
      dsimp only
      cases hparse : (Toml.parse? text).bind SettingsFile.ofTable? with
      | none => exact RefusedAt.malformed hread hdecode hparse
      | some f =>
        have hfound : FoundAt files path f := ⟨content, text, hread, hdecode, hparse⟩
        exact ⟨fun _ => hfound.not_refused, hfound⟩

/-! ## Calls -/

/-- The settings file that a command line counts on, if it names one. -/
inductive CommandLine.Finds (files : FileTree) (c : CommandLine) : Option SettingsFile → Prop
  | none (unnamed : c.config = none) : Finds files c none
  | some {path : String} {file : SettingsFile} (named : c.config = some path)
      (found : SettingsFile.FoundAt files path file) : Finds files c (some file)

/-- Why a call is refused before anything is sent. -/
inductive Invocation.Refused (files : FileTree) : Invocation → SettingsError → Prop
  | file {c : CommandLine} {path : String} {e : SettingsError} (named : c.config = some path)
      (bad : SettingsFile.RefusedAt files path e) : Refused files (.send c) e
  | setting {c : CommandLine} {file : Option SettingsFile} {e : SettingsError}
      (found : c.Finds files file) (bad : (Draft.of c file).Refuses e) : Refused files (.send c) e
  | template {path : String} {e : FileError}
      (bad : files.write path (Utf8.encode templateText) = .error e) :
      Refused files (.init path) (.file .write path e)

theorem CommandLine.Finds.unique {files : FileTree} {c : CommandLine}
    {file file' : Option SettingsFile} (h : c.Finds files file) (h' : c.Finds files file') :
    file = file' := by
  cases h with
  | none unnamed =>
    cases h' with
    | none => rfl
    | some named => exact absurd (unnamed.symm.trans named) (by simp)
  | some named found =>
    cases h' with
    | none unnamed => exact absurd (unnamed.symm.trans named) (by simp)
    | some named' found' =>
      obtain rfl := Option.some.inj (named.symm.trans named')
      rw [found.unique found']

theorem Invocation.refused_send_iff {files : FileTree} {c : CommandLine}
    {file : Option SettingsFile} (found : c.Finds files file) (e : SettingsError) :
    (Invocation.send c).Refused files e ↔ (Draft.of c file).Refuses e := by
  refine ⟨fun h => ?_, .setting found⟩
  cases h with
  | file named bad =>
    cases found with
    | none unnamed => exact absurd (unnamed.symm.trans named) (by simp)
    | some named' found =>
      obtain rfl := Option.some.inj (named'.symm.trans named)
      exact absurd bad found.not_refused
  | setting found' bad => rwa [found.unique found']

/-- Whether the headers of a call find no room. -/
def CommandLine.Overflows (c : CommandLine) (room : HeaderRoom) (files : FileTree) : Prop :=
  ∃ file, c.Finds files file ∧ (Draft.of c file).Overflows room

/-- Loading decides about the settings of a command line. -/
theorem Settings.load_decides (room : HeaderRoom) (c : CommandLine) (files : FileTree) :
    Decides (Settings.load room c files)
      (fun e => (Invocation.send c).Refused files e ∨
        c.Overflows room files ∧ e = .crash .headersFull)
      fun s => ∃ file, c.Finds files file ∧ (Draft.of c file).Describes s := by
  have hmerge : ∀ {file}, c.Finds files file → Decides (Settings.mergeWithin room c file)
      (fun e => (Invocation.send c).Refused files e ∨
        c.Overflows room files ∧ e = .crash .headersFull)
      fun s => ∃ file, c.Finds files file ∧ (Draft.of c file).Describes s := by
    intro file found
    have hfull : c.Overflows room files ↔ (Draft.of c file).Overflows room :=
      ⟨fun ⟨_, found', h⟩ => found.unique found' ▸ h, fun h => ⟨file, found, h⟩⟩
    refine (Settings.mergeWithin_decides room c _).imp (fun e => ?_) fun s hs => ⟨_, found, hs⟩
    rw [Invocation.refused_send_iff found, hfull]
  unfold Settings.load
  cases hconfig : c.config with
  | none => exact hmerge (.none hconfig)
  | some path =>
    have hload := SettingsFile.load_decides path files
    dsimp only
    cases hfile : SettingsFile.load path files with
    | error e =>
      rw [hfile] at hload
      exact Or.inl (Invocation.Refused.file hconfig hload)
    | ok file =>
      rw [hfile] at hload
      exact hmerge (.some hconfig hload.2)

theorem Settings.load_of_unnamed {room : HeaderRoom} {c : CommandLine} {files : FileTree}
    (h : c.config = none) : Settings.load room c files = Settings.mergeWithin room c none := by
  unfold Settings.load
  rw [h]

/-- A settings file is never what ends the program. -/
theorem SettingsFile.RefusedAt.ne_crash {files : FileTree} {path : String} {e : SettingsError}
    (h : RefusedAt files path e) (crash : Crash) : e ≠ .crash crash := by
  cases h <;> simp

/-- Loading ends the program only for want of room, which is found out after the URL and the method
    have been accepted. -/
theorem Settings.load_eq_crash_iff {room : HeaderRoom} {c : CommandLine} {files : FileTree}
    {crash : Crash} : Settings.load room c files = .error (.crash crash) ↔ crash = .headersFull ∧
      ∃ file, c.Finds files file ∧ (∀ e, ¬RefusesUrl (Draft.of c file).url e) ∧
        (∀ e, ¬RefusesMethod (Draft.of c file).method e) ∧ (Draft.of c file).Overflows room := by
  have hmerge : ∀ {file}, c.Finds files file →
      (Settings.mergeWithin room c file = .error (.crash crash) ↔ crash = .headersFull ∧
        ∃ file, c.Finds files file ∧ (∀ e, ¬RefusesUrl (Draft.of c file).url e) ∧
          (∀ e, ¬RefusesMethod (Draft.of c file).method e) ∧
          (Draft.of c file).Overflows room) := by
    intro file found
    rw [Settings.mergeWithin_eq_crash_iff]
    exact and_congr_right fun _ => ⟨fun h => ⟨file, found, h⟩,
      fun ⟨_, found', h⟩ => found.unique found' ▸ h⟩
  unfold Settings.load
  cases hconfig : c.config with
  | none => exact hmerge (.none hconfig)
  | some path =>
    have hload := SettingsFile.load_decides path files
    dsimp only
    cases hfile : SettingsFile.load path files with
    | error e =>
      rw [hfile] at hload
      refine iff_of_false (fun h => hload.ne_crash crash (Except.error.inj h)) ?_
      rintro ⟨-, file, found, -⟩
      cases found with
      | none unnamed => exact absurd (hconfig.symm.trans unnamed) (by simp)
      | some named found =>
        obtain rfl := Option.some.inj (hconfig.symm.trans named)
        exact found.not_refused hload
    | ok file =>
      rw [hfile] at hload
      exact hmerge (.some hconfig hload.2)

/-! ## Crowded requests -/

theorem Credentials.authorizer_step? (c : Credentials) (files : FileTree) (now : Instant)
    (w : World) : (c.authorizer files now w).1.toOption = c.step? files := by
  unfold Credentials.authorizer Credentials.step?
  cases c with
  | absent => rfl
  | bearer token => rfl
  | tokenFile path =>
    dsimp only
    cases Token.load path files with
    | error e => rfl
    | ok token =>
      dsimp only
      cases token.isExpired now with
      | error _ => rfl
      | ok isExpired => cases isExpired <;> rfl

/-- A request is crowded by the first header that finds no room when its steps are taken in turn,
    those of the run before those of the session. -/
theorem Settings.crowds_iff (s : Settings) (room : HeaderRoom) (files : FileTree) (now : Instant)
    (w : World) : s.crowds room files = true ↔ ∃ authorizer front step back r next,
      (s.credentials.authorizer files now w).1.toOption = some authorizer ∧
      partsOf (s.requestSteps ++ (s.session authorizer).steps) = front ++ step :: back ∧
      prepared front s.draftRequest = .ok r ∧ step.makes r = .ok next ∧ step.setsHeader = true ∧
      room r.headers.toArray = false := by
  rw [Credentials.authorizer_step?]
  unfold Settings.crowds
  cases s.credentials.step? files with
  | none => simp
  | some authorizer =>
    refine (Courier.crowds_iff (not_both_of_mem_partsOf _)).trans ⟨?_, ?_⟩
    · rintro ⟨front, step, back, r, next, h⟩
      exact ⟨authorizer, front, step, back, r, next, rfl, h⟩
    · rintro ⟨_, front, step, back, r, next, hsame, h⟩
      obtain rfl := Option.some.inj hsame
      exact ⟨front, step, back, r, next, h⟩

/-! ## Ends -/

/-- Whether a call has settings that are accepted. -/
def Invocation.Accepts (i : Invocation) (place : Surroundings) (files : FileTree) (s : Settings) :
    Prop :=
  ∃ c, i = .send c ∧ Settings.load place.room c files = .ok s

/-- Whether a call starts to send, with some settings. -/
def Invocation.Starts (i : Invocation) (place : Surroundings) (files : FileTree) (s : Settings) :
    Prop :=
  i.Accepts place files s ∧ place.runtime = none ∧ s.crowds place.room files = false

/-- Why a call fails with settings that are accepted, and what the world is then. -/
inductive Invocation.Fails (i : Invocation) (place : Surroundings) (files : FileTree)
    (now : Instant) (sender : Sender) (w : World) : World → Prop
  /-- There is nothing to send it in. -/
  | unstarted {s : Settings} {e : IoError} (accepts : i.Accepts place files s)
      (bad : place.runtime = some e) : Fails i place files now sender w w
  /-- The requests have been started and have failed. -/
  | performed {s : Settings} {e : RunError} {w' : World} (starts : i.Starts place files s)
      (h : perform s files now sender w = some (.error e, w')) :
      Fails i place files now sender w w'
  /-- The requests have succeeded, but what they have brought cannot be printed. -/
  | unprinted {s : Settings} {body : String} {e : IoError} {w' : World}
      (starts : i.Starts place files s)
      (h : perform s files now sender w = some (.ok body, w'))
      (bad : place.stdout (body ++ "\n") = some e) : Fails i place files now sender w w'

/-- Why a call ends in a crash. -/
inductive Invocation.Crashes (place : Surroundings) (files : FileTree) : Invocation → Crash → Prop
  /-- A header of the settings finds no room. -/
  | settings {c : CommandLine} {file : Option SettingsFile} (found : c.Finds files file)
      (url : ∀ e, ¬RefusesUrl (Draft.of c file).url e)
      (method : ∀ e, ¬RefusesMethod (Draft.of c file).method e)
      (full : (Draft.of c file).Overflows place.room) : Crashes place files (.send c) .headersFull
  /-- A header that the request is given finds no room. -/
  | request {i : Invocation} {s : Settings} (accepts : i.Accepts place files s)
      (started : place.runtime = none) (full : s.crowds place.room files = true) :
      Crashes place files i .headersFull
  /-- That the template has been written cannot be printed. -/
  | message {path : String} {t : FileTree} {e : IoError}
      (written : writeTemplate path files = .ok t)
      (bad : place.stdout (templateMessage path) = some e) :
      Crashes place files (.init path) (.notPrinted e.message)

/-- The code of arguments that are not taken: asking for help or for the version is no failure. -/
def UsageError.status (e : UsageError) : Nat := if e = .help ∨ e = .version then 0 else 2

theorem UsageError.outcome_exitCode (e : UsageError) : e.outcome.exitCode = e.status := by
  cases e <;> rfl

section Ends

variable {i : Invocation} {place : Surroundings} {files t : FileTree} {now : Instant}
  {sender : Sender} {w w' : World}

theorem Invocation.Accepts.not_refused {s : Settings} (h : i.Accepts place files s)
    (e : SettingsError) : ¬i.Refused files e := by
  obtain ⟨c, rfl, hload⟩ := h
  have hdecides := Settings.load_decides place.room c files
  rw [hload] at hdecides
  exact fun he => hdecides.1 e (.inl he)

theorem Invocation.Accepts.unique {s s' : Settings} (h : i.Accepts place files s)
    (h' : i.Accepts place files s') : s = s' := by
  obtain ⟨c, rfl, hload⟩ := h
  obtain ⟨c', hc, hload'⟩ := h'
  obtain rfl := Invocation.send.inj hc
  exact Except.ok.inj (hload.symm.trans hload')

theorem Invocation.not_accepts_init {path : String} {s : Settings} :
    ¬(Invocation.init path).Accepts place files s := by
  rintro ⟨c, hc, -⟩
  exact absurd hc (by simp)

theorem Invocation.not_accepts_of_error {c : CommandLine} {e : SettingsError} {s : Settings}
    (h : Settings.load place.room c files = .error e) :
    ¬(Invocation.send c).Accepts place files s := by
  rintro ⟨c', hc, hload⟩
  obtain rfl := Invocation.send.inj hc
  exact absurd (h.symm.trans hload) (by simp)

/-- With settings that are accepted it is only the request that can crash. -/
theorem Invocation.Accepts.crashes {s : Settings} (h : i.Accepts place files s) {crash : Crash}
    (hcrash : i.Crashes place files crash) :
    place.runtime = none ∧ s.crowds place.room files = true := by
  cases hcrash with
  | settings found url method full =>
    obtain ⟨c, hc, hload⟩ := h
    obtain rfl := Invocation.send.inj hc
    have hcrash := Settings.load_eq_crash_iff.2 ⟨rfl, _, found, url, method, full⟩
    exact absurd (hload.symm.trans hcrash) (by simp)
  | request accepts started full =>
    obtain rfl := h.unique accepts
    exact ⟨started, full⟩
  | message written bad => exact absurd h Invocation.not_accepts_init

theorem Invocation.Fails.exists_accepts (h : i.Fails place files now sender w w') :
    ∃ s, i.Accepts place files s ∧
      ¬(place.runtime = none ∧ s.crowds place.room files = true) := by
  cases h with
  | unstarted accepts bad => exact ⟨_, accepts, by simp [bad]⟩
  | performed starts h => exact ⟨_, starts.1, by simp [starts.2.2]⟩
  | unprinted starts h bad => exact ⟨_, starts.1, by simp [starts.2.2]⟩

/-- How a call ends whose arguments are taken: the code, and the world that it leaves. -/
inductive Invocation.Ends (i : Invocation) (place : Surroundings) (files : FileTree) (now : Instant)
    (sender : Sender) (w : World) : Nat → World → Prop
  | refused {e : SettingsError} (h : i.Refused files e)
      (unbroken : ∀ crash, ¬i.Crashes place files crash) : Ends i place files now sender w 1 w
  | crashed {crash : Crash} {w' : World} (h : i.Crashes place files crash) :
      Ends i place files now sender w 101 w'
  | written {path : String} (h : i = .init path) (unrefused : ∀ e, ¬i.Refused files e)
      (unbroken : ∀ crash, ¬i.Crashes place files crash) : Ends i place files now sender w 0 w
  | failed {w' : World} (h : i.Fails place files now sender w w') :
      Ends i place files now sender w 2 w'
  | succeeded {s : Settings} {body : String} {w' : World} (starts : i.Starts place files s)
      (h : perform s files now sender w = some (.ok body, w'))
      (printed : place.stdout (body ++ "\n") = none) : Ends i place files now sender w 0 w'

section Send

variable {c : CommandLine}

/-- A call whose settings cannot be used does nothing but complain. -/
theorem Invocation.run_send_of_error {e : SettingsError}
    (h : Settings.load place.room c files = .error e) :
    (Invocation.send c).run place files now sender w = some ((e.outcome, files), w) := by
  unfold Invocation.run
  dsimp only
  rw [h]
  rfl

/-- A call with settings that are accepted comes to what they come to, and leaves the files
    alone. -/
theorem Invocation.run_send_of_ok {s : Settings} (h : Settings.load place.room c files = .ok s) :
    (Invocation.send c).run place files now sender w =
      (s.run place files now sender w).map fun p => ((p.1, files), p.2) := by
  unfold Invocation.run
  dsimp only
  rw [h]
  dsimp only
  rw [Run.bind_apply]
  cases s.run place files now sender w <;> rfl

end Send

/-- A call that would write a template ends without sending anything. -/
theorem Invocation.run_init_ends {path : String} {o : Outcome}
    (ran : (Invocation.init path).run place files now sender w = some ((o, t), w')) :
    (Invocation.init path).Ends place files now sender w o.exitCode w' := by
  have hcrashes : ∀ crash, (Invocation.init path).Crashes place files crash →
      ∃ t e, writeTemplate path files = .ok t ∧ place.stdout (templateMessage path) = some e := by
    intro crash hcrash
    cases hcrash with
    | request accepts started full => exact absurd accepts Invocation.not_accepts_init
    | message written bad => exact ⟨_, _, written, bad⟩
  unfold Invocation.run at ran
  dsimp only at ran
  cases htemplate : writeTemplate path files with
  | error e =>
    rw [htemplate] at ran
    have hunbroken : ∀ crash, ¬(Invocation.init path).Crashes place files crash := by
      intro crash hcrash
      obtain ⟨t, e', written, -⟩ := hcrashes crash hcrash
      exact absurd (htemplate.symm.trans written) (by simp)
    unfold writeTemplate at htemplate
    cases hwrite : files.write path (Utf8.encode templateText) with
    | ok t' => simp [hwrite] at htemplate
    | error e' =>
      rw [hwrite] at htemplate
      obtain rfl := Except.error.inj htemplate
      cases ran
      exact .refused (.template hwrite) hunbroken
  | ok t' =>
    rw [htemplate] at ran
    dsimp only at ran
    cases hstdout : place.stdout (templateMessage path) with
    | some e =>
      rw [hstdout] at ran
      cases ran
      exact .crashed (.message htemplate hstdout)
    | none =>
      rw [hstdout] at ran
      cases ran
      refine .written rfl (fun e hrefused => ?_) fun crash hcrash => ?_
      · cases hrefused with
        | template bad => simp [writeTemplate, bad] at htemplate
      · obtain ⟨_, e, -, bad⟩ := hcrashes crash hcrash
        exact absurd (hstdout.symm.trans bad) (by simp)

/-- A call whose settings cannot be used ends without sending anything. -/
theorem Invocation.run_send_error_ends {c : CommandLine} {e : SettingsError}
    (hsettings : Settings.load place.room c files = .error e) :
    (Invocation.send c).Ends place files now sender w e.outcome.exitCode w := by
  have hload := Settings.load_decides place.room c files
  rw [hsettings] at hload
  by_cases hcrash : ∃ crash, e = .crash crash
  · obtain ⟨crash, rfl⟩ := hcrash
    obtain ⟨rfl, file, found, url, method, full⟩ := Settings.load_eq_crash_iff.1 hsettings
    exact .crashed (.settings found url method full)
  · have hcode : e.outcome.exitCode = 1 := by
      cases e with
      | crash crash => exact absurd ⟨crash, rfl⟩ hcrash
      | _ => rfl
    rw [hcode]
    refine .refused (hload.resolve_right fun h => hcrash ⟨_, h.2⟩) fun crash hbroken => ?_
    cases hbroken with
    | settings found url method full =>
      have hended := Settings.load_eq_crash_iff.2 ⟨rfl, _, found, url, method, full⟩
      exact hcrash ⟨_, Except.error.inj (hsettings.symm.trans hended)⟩
    | request accepts started full =>
      exact absurd accepts (Invocation.not_accepts_of_error hsettings)

/-- Nothing but the requests decides what settings come to, if these are started. -/
theorem Settings.run_of_started {s : Settings} (started : place.runtime = none)
    (fits : s.crowds place.room files = false) :
    s.run place files now sender w =
      (perform s files now sender w).map fun p => ((place.print p.1).outcome, p.2) := by
  unfold Settings.run
  rw [started]
  dsimp only
  rw [fits, if_neg (by simp), Run.bind_apply]
  cases perform s files now sender w <;> rfl

/-- A call whose settings are accepted sends what they describe, unless there is nothing to send it
    in or its request is given more headers than find room. -/
theorem Invocation.Accepts.run_ends {s : Settings} {o : Outcome} (accepts : i.Accepts place files s)
    (ran : s.run place files now sender w = some (o, w')) :
    i.Ends place files now sender w o.exitCode w' := by
  cases hruntime : place.runtime with
  | some e =>
    unfold Settings.run at ran
    rw [hruntime] at ran
    cases ran
    exact .failed (.unstarted accepts hruntime)
  | none =>
    cases hcrowds : s.crowds place.room files with
    | true =>
      unfold Settings.run at ran
      rw [hruntime] at ran
      dsimp only at ran
      rw [hcrowds, if_pos rfl, Run.bind_apply, Run.lift_apply] at ran
      cases ran
      exact .crashed (.request accepts hruntime hcrowds)
    | false =>
      have starts : i.Starts place files s := ⟨accepts, hruntime, hcrowds⟩
      rw [Settings.run_of_started hruntime hcrowds] at ran
      obtain ⟨⟨result, v⟩, hperform, hrest⟩ := Option.map_eq_some_iff.1 ran
      cases hrest
      cases result with
      | error e => exact .failed (.performed starts hperform)
      | ok body =>
        unfold Surroundings.print
        dsimp only
        cases hstdout : place.stdout (body ++ "\n") with
        | some e => exact .failed (.unprinted starts hperform hstdout)
        | none => exact .succeeded starts hperform hstdout

theorem Invocation.run_ends {o : Outcome}
    (ran : i.run place files now sender w = some ((o, t), w')) :
    i.Ends place files now sender w o.exitCode w' := by
  cases i with
  | init path => exact Invocation.run_init_ends ran
  | send c =>
    cases hsettings : Settings.load place.room c files with
    | error e =>
      rw [Invocation.run_send_of_error hsettings] at ran
      cases ran
      exact Invocation.run_send_error_ends hsettings
    | ok s =>
      rw [Invocation.run_send_of_ok hsettings] at ran
      obtain ⟨⟨o', v⟩, hrun, hrest⟩ := Option.map_eq_some_iff.1 ran
      cases hrest
      exact Invocation.Accepts.run_ends ⟨c, rfl, hsettings⟩ hrun

/-- A call goes on for ever only if its requests do. -/
theorem Invocation.run_eq_none_iff : i.run place files now sender w = none ↔
    ∃ s, i.Starts place files s ∧ perform s files now sender w = none := by
  cases i with
  | init path =>
    refine iff_of_false ?_ ?_
    · unfold Invocation.run
      dsimp only
      cases writeTemplate path files with
      | error e => exact Option.some_ne_none _
      | ok t' =>
        dsimp only
        cases place.stdout (templateMessage path) <;> exact Option.some_ne_none _
    · rintro ⟨s, ⟨accepts, -⟩, -⟩
      exact Invocation.not_accepts_init accepts
  | send c =>
    cases hsettings : Settings.load place.room c files with
    | error e =>
      rw [Invocation.run_send_of_error hsettings]
      refine iff_of_false (Option.some_ne_none _) ?_
      rintro ⟨s, ⟨accepts, -⟩, -⟩
      exact Invocation.not_accepts_of_error hsettings accepts
    | ok s =>
      have accepts : (Invocation.send c).Accepts place files s := ⟨c, rfl, hsettings⟩
      have hrun : s.run place files now sender w = none ↔ place.runtime = none ∧
          s.crowds place.room files = false ∧ perform s files now sender w = none := by
        cases hruntime : place.runtime with
        | some e =>
          unfold Settings.run
          rw [hruntime]
          exact iff_of_false (Option.some_ne_none _) (by simp)
        | none =>
          cases hcrowds : s.crowds place.room files with
          | true =>
            unfold Settings.run
            rw [hruntime]
            dsimp only
            rw [hcrowds, if_pos rfl]
            exact iff_of_false (Option.some_ne_none _) (by simp)
          | false =>
            rw [Settings.run_of_started hruntime hcrowds, Option.map_eq_none_iff]
            simp
      rw [Invocation.run_send_of_ok hsettings, Option.map_eq_none_iff, hrun]
      constructor
      · rintro ⟨hruntime, hcrowds, hperform⟩
        exact ⟨s, ⟨accepts, hruntime, hcrowds⟩, hperform⟩
      · rintro ⟨s', ⟨accepts', hruntime, hcrowds⟩, h⟩
        obtain rfl := accepts.unique accepts'
        exact ⟨hruntime, hcrowds, h⟩

/-- The code tells how a call ends. -/
theorem Invocation.Ends.exitCode_iff {code : Nat} (h : i.Ends place files now sender w code w') :
    (code = 101 ↔ ∃ crash, i.Crashes place files crash) ∧
      ((∀ crash, ¬i.Crashes place files crash) →
        (code = 1 ↔ ∃ e, i.Refused files e) ∧ (code = 2 ↔ i.Fails place files now sender w w') ∧
        (code = 0 ↔ ¬(∃ e, i.Refused files e) ∧ ¬i.Fails place files now sender w w') ∧
        (code = 1 → w' = w)) := by
  cases h with
  | refused h unbroken =>
    have hfails : ¬i.Fails place files now sender w w := by
      intro hfails
      obtain ⟨s, accepts, -⟩ := hfails.exists_accepts
      exact accepts.not_refused _ h
    have hrefused : ∃ e, i.Refused files e := ⟨_, h⟩
    simp [hfails, hrefused, unbroken]
  | crashed h =>
    have hcrash : ∃ crash, i.Crashes place files crash := ⟨_, h⟩
    exact ⟨iff_of_true rfl hcrash, fun unbroken => absurd h (unbroken _)⟩
  | written h unrefused unbroken =>
    have hfails : ¬i.Fails place files now sender w w := by
      subst h
      intro hfails
      obtain ⟨s, accepts, -⟩ := hfails.exists_accepts
      exact Invocation.not_accepts_init accepts
    simp [hfails, unrefused, unbroken]
  | failed h =>
    obtain ⟨s, accepts, hnot⟩ := h.exists_accepts
    have unbroken : ∀ crash, ¬i.Crashes place files crash :=
      fun crash hcrash => hnot (accepts.crashes hcrash)
    simp [h, accepts.not_refused, unbroken]
  | succeeded starts h printed =>
    have unbroken : ∀ crash, ¬i.Crashes place files crash := by
      intro crash hcrash
      have hcrowds := (starts.1.crashes hcrash).2
      rw [starts.2.2] at hcrowds
      exact absurd hcrowds (by simp)
    have hfails : ¬i.Fails place files now sender w w' := by
      intro hfails
      cases hfails with
      | unstarted accepts bad => exact absurd (starts.2.1.symm.trans bad) (by simp)
      | performed starts' h' =>
        obtain rfl := starts.1.unique starts'.1
        exact absurd (h.symm.trans h') (by simp)
      | unprinted starts' h' bad =>
        obtain rfl := starts.1.unique starts'.1
        obtain ⟨hresult, -⟩ := Prod.mk.inj (Option.some.inj (h.symm.trans h'))
        obtain rfl := Except.ok.inj hresult
        exact absurd (printed.symm.trans bad) (by simp)
    simp [hfails, starts.1.not_refused, unbroken]

/-- **Exit codes tell how a call ends.** Arguments that are not taken end a call with the code of
    their mistake. Otherwise a call that crashes has a code of its own. Of those that do not, the
    code is 1 exactly if the settings cannot be loaded or are refused, or the template cannot be
    written, and then nothing has been sent; it is 2 exactly if the requests cannot be started,
    have failed, or have brought what cannot be printed; and it is 0 in all other cases. A call goes
    on for ever only if its requests do. -/
theorem exit_codes (arguments : List Argument) (place : Surroundings) (files : FileTree)
    (now : Instant) (sender : Sender) (w : World) :
    (∀ o t w', runProgram arguments place files now sender w = some ((o, t), w') →
      (∀ e, Invocation.read place.nameOf arguments = .error e → o.exitCode = e.status ∧ w' = w) ∧
      ∀ i, Invocation.read place.nameOf arguments = .ok i →
        (o.exitCode = 101 ↔ ∃ crash, i.Crashes place files crash) ∧
        ((∀ crash, ¬i.Crashes place files crash) →
          (o.exitCode = 1 ↔ ∃ e, i.Refused files e) ∧
          (o.exitCode = 2 ↔ i.Fails place files now sender w w') ∧
          (o.exitCode = 0 ↔ ¬(∃ e, i.Refused files e) ∧ ¬i.Fails place files now sender w w') ∧
          (o.exitCode = 1 → w' = w))) ∧
    (runProgram arguments place files now sender w = none ↔ ∃ i s,
      Invocation.read place.nameOf arguments = .ok i ∧ i.Starts place files s ∧
        perform s files now sender w = none) := by
  unfold runProgram
  cases hread : Invocation.read place.nameOf arguments with
  | error e =>
    refine ⟨fun o t w' ran => ?_, iff_of_false (Option.some_ne_none _) ?_⟩
    · cases ran
      refine ⟨fun e' he => ?_, fun i hi => absurd hi (by simp)⟩
      obtain rfl := Except.error.inj he
      exact ⟨e.outcome_exitCode, rfl⟩
    · rintro ⟨i, s, hi, -⟩
      exact absurd hi (by simp)
  | ok i =>
    refine ⟨fun o t w' ran => ⟨fun e he => absurd he (by simp), fun i' hi => ?_⟩, ?_⟩
    · obtain rfl := Except.ok.inj hi
      exact (Invocation.run_ends ran).exitCode_iff
    · dsimp only
      rw [Invocation.run_eq_none_iff]
      simp

/-- A command line with a URL and a file of tokens. -/
def lostTokenLine : CommandLine :=
  { CommandLine.empty with url := some "http://h/", tokenFile := some "t" }

/-- The arguments of that command line. -/
def lostTokenArguments : List Argument := ["http://h/", "--token-file", "t"].map .ofText

/-- Without a URL there is nothing to send. With a file of tokens that is not there the requests are
    started and fail. -/
theorem exit_codes_unaddressed :
    (∃ o t, runProgram [] .usual .empty epoch disconnected .quiet = some ((o, t), .quiet) ∧
      o.exitCode = 1 ∧ (∀ crash, ¬(Invocation.send .empty).Crashes .usual .empty crash) ∧
      ∃ e, (Invocation.send .empty).Refused .empty e) ∧
    ∃ o t w, runProgram lostTokenArguments .usual .empty epoch disconnected .quiet =
        some ((o, t), w) ∧
      o.exitCode = 2 ∧ (∀ crash, ¬(Invocation.send lostTokenLine).Crashes .usual .empty crash) ∧
      (Invocation.send lostTokenLine).Fails .usual .empty epoch disconnected .quiet w := by
  have hread : Invocation.read Argument.lossy [] = .ok (.send .empty) := by decide +kernel
  have hread' : Invocation.read Argument.lossy lostTokenArguments = .ok (.send lostTokenLine) := by
    decide +kernel
  constructor
  · have hran : runProgram [] .usual .empty epoch disconnected .quiet =
        some ((SettingsError.missingUrl.outcome, .empty), .quiet) := rfl
    obtain ⟨hcrash, hcodes⟩ := ((exit_codes _ _ _ _ _ _).1 _ _ _ hran).2 _ hread
    have hunbroken : ∀ crash, ¬(Invocation.send .empty).Crashes .usual .empty crash :=
      fun crash h => absurd (hcrash.2 ⟨crash, h⟩) (by decide)
    exact ⟨_, _, hran, rfl, hunbroken, (hcodes hunbroken).1.1 rfl⟩
  · have hcode : (runProgram lostTokenArguments .usual .empty epoch disconnected
        .quiet).map (fun p => p.1.1.exitCode) = some 2 := by
      decide +kernel
    obtain ⟨⟨⟨o, t⟩, w⟩, hran, htwo⟩ := Option.map_eq_some_iff.1 hcode
    obtain ⟨hcrash, hcodes⟩ := ((exit_codes _ _ _ _ _ _).1 _ _ _ hran).2 _ hread'
    have hunbroken : ∀ crash, ¬(Invocation.send lostTokenLine).Crashes .usual .empty crash :=
      fun crash h => absurd ((hcrash.2 ⟨crash, h⟩).symm.trans htwo) (by decide)
    exact ⟨o, t, w, hran, htwo, hunbroken, (hcodes hunbroken).2.1.1 htwo⟩

end Ends

/-! ## Ends that are no failures of requests -/

/-- A run without polls comes to the text of the answer to its request, if that is accepted. -/
theorem perform_of_answered {s : Settings} {files : FileTree} {now : Instant} {sender : Sender}
    {w v u x y : World} {authorizer : PrepareStep} {request prepared : Request} {r : Response}
    {content : Bytes} (loads : s.credentials.authorizer files now w = (.ok authorizer, v))
    (asks : s.request v = (.ok request, u))
    (prepares : (s.session authorizer).prepareRequest request u = (.ok prepared, x))
    (answers : s.attempts sender prepared x = some (.ok r, y))
    (unpolled : s.polling.enabled = false) (read : r.content = .ok content)
    (accepted : r.status ∈ s.expect) :
    ∃ w', perform s files now sender w = some (.ok (Utf8.lossy content), w') := by
  have hsent : s.sendIn (s.session authorizer) sender request u = some (.ok r, y) := by
    rw [Settings.sendIn_apply, prepares]
    dsimp only
    rw [answers, Option.bind_some]
    dsimp only [SendResult.response?]
    rw [Settings.follow, unpolled, if_neg (by simp)]
    rfl
  have hconcluded := (s.conclude_verdict r y).eq_of_accepted read accepted
  refine ⟨(s.conclude (.ok r) y).2, ?_⟩
  rw [perform_apply, loads]
  dsimp only
  rw [asks]
  dsimp only
  rw [hsent, Option.map_some, ← hconcluded]
  rfl

/-- What the command line with nothing but a URL amounts to. -/
def addressedSettings : Settings :=
  ⟨⟨"http", some ⟨"", "", "h", none⟩, .rooted [""], false, none, none⟩, .get, [], none,
    [⟨200⟩, ⟨201⟩, ⟨202⟩, ⟨204⟩], none, .absent, ⟨3, .ofSeconds 5, .ofSeconds 60, .ofNat 2⟩,
    ⟨false, .ofSeconds 60, .ofSeconds 900, [⟨202⟩]⟩, false⟩

theorem load_addressedLine : Settings.load .standard addressedLine .empty = .ok addressedSettings :=
  eq_ok_of_toOption (by decide +kernel)

/-- A service that accepts every request without a word. -/
def kindSender : Sender := fun _ w => some (.ok ⟨⟨200⟩, [], none⟩, w)

/-- A request to that service succeeds. -/
theorem perform_kindSender : ∃ w',
    perform addressedSettings .empty epoch kindSender .quiet = some (.ok "", w') := by
  let plain := (Request.get addressedSettings.url).setCancellable true
  have hasked : (addressedSettings.request .quiet).1 = .ok plain :=
    eq_ok_of_toOption (by decide +kernel)
  have hprepared : (prepared (addressedSettings.session .asIs).steps plain).toOption.isSome =
      true := by decide +kernel
  cases asks : addressedSettings.request .quiet with
  | mk asked u =>
    obtain rfl : asked = _ := asks ▸ hasked
    rw [← (addressedSettings.session .asIs).prepareRequest_fst _ u] at hprepared
    cases prepares : (addressedSettings.session .asIs).prepareRequest plain u with
    | mk outcome x =>
      rw [prepares] at hprepared
      cases outcome with
      | error e => simp [Except.toOption] at hprepared
      | ok request =>
        have hanswers : addressedSettings.attempts kindSender request x =
            some (.ok ⟨⟨200⟩, [], none⟩, _) := retried_of_ok rfl
        exact perform_of_answered rfl asks prepares hanswers rfl rfl (by decide)

/-- Surroundings in which nothing can be printed. -/
def muteSurroundings : Surroundings :=
  { Surroundings.usual with stdout := fun _ => some (.of .other "Broken pipe (os error 32)") }

/-- A request succeeds, and the call fails because what it has brought cannot be printed. A call
    with more headers than find room does not fail, but crashes. -/
theorem not_exit_codes_unprinted :
    ((Invocation.send addressedLine).Starts muteSurroundings .empty addressedSettings ∧
      (∃ w', perform addressedSettings .empty epoch kindSender .quiet = some (.ok "", w')) ∧
      (runProgram [.ofText "http://h/"] muteSurroundings .empty epoch kindSender .quiet).map
        (fun p => p.1.1.exitCode) = some 2) ∧
    ((Invocation.send (numberedLine 24577)).run .usual .empty epoch kindSender .quiet).map
      (fun p => p.1.1.exitCode) = some 101 := by
  have hcrowds : addressedSettings.crowds .standard .empty = false := by decide +kernel
  obtain ⟨w', hperform⟩ := perform_kindSender
  have hread : Invocation.read Argument.lossy [.ofText "http://h/"] =
      .ok (.send addressedLine) := by decide +kernel
  have hload : Settings.load .standard (numberedLine 24577) .empty =
      .error (.crash .headersFull) := (Settings.load_of_unnamed rfl).trans numberedLine_crashes
  refine ⟨⟨⟨⟨_, rfl, load_addressedLine⟩, rfl, hcrowds⟩, ⟨w', hperform⟩, ?_⟩, ?_⟩
  · have hran : runProgram [.ofText "http://h/"] muteSurroundings .empty epoch kindSender .quiet =
        (Invocation.send addressedLine).run muteSurroundings .empty epoch kindSender .quiet := by
      unfold runProgram
      rw [show muteSurroundings.nameOf = Argument.lossy from rfl, hread]
    have hload' : Settings.load muteSurroundings.room addressedLine .empty =
        .ok addressedSettings := load_addressedLine
    have hcrowds' : addressedSettings.crowds muteSurroundings.room .empty = false := hcrowds
    rw [hran, Invocation.run_send_of_ok hload', Settings.run_of_started rfl hcrowds', hperform]
    rfl
  · have hload' : Settings.load Surroundings.usual.room (numberedLine 24577) .empty =
        .error (.crash .headersFull) := hload
    rw [Invocation.run_send_of_error hload']
    rfl

end Courier
