import Courier.Proofs.Settings.Fields
import Mathlib.Data.List.Nodup
import Mathlib.Data.List.Perm.Basic

set_option autoImplicit false

/-! # Tables of headers

The headers of a settings file are a table, and a table has no order; but its entries are read one
after another, in some order. Where this order makes a difference is said here exactly. It decides
which entry is told of if several are refused, and which value a name has if several entries stand
for one name, as two keys do that differ in case only. Otherwise all orders come to the same. -/

namespace Courier

/-! ## Reading and setting -/

/-- With room for all, headers that are read and taken one after another may be read first. -/
theorem takeAll_unlimited {α : Type} (read : α → Except SettingsError (HeaderName × HeaderValue))
    (as : List α) (given : Array (HeaderName × HeaderValue)) :
    takeAll .unlimited read as given = (as.mapM read).map given.appendList := by
  induction as generalizing given with
  | nil => rfl
  | cons a rest ih =>
    unfold takeAll at ih ⊢
    rw [List.foldlM_cons, List.mapM_cons]
    cases read a with
    | error e => rfl
    | ok field =>
      refine (ih (given.push field)).trans ?_
      show _ = Except.map _ ((rest.mapM read).bind fun fields => .ok (field :: fields))
      cases rest.mapM read <;> rfl

theorem mergeHeaders_unlimited (c : CommandLine) (f : SettingsFile) :
    mergeHeaders .unlimited c (some f) = (f.request.headers.mapM readField).bind fun first =>
      (c.headers.mapM readText).map fun rest => Headers.setAll [] (first ++ rest) := by
  have htable := takeAll_unlimited readField f.request.headers #[]
  refine (mergeHeaders_eq_takeAll _ _ _).trans ((congrArg (Except.bind · _) htable).trans ?_)
  cases f.request.headers.mapM readField with
  | error e => rfl
  | ok first =>
    have hline := takeAll_unlimited readText c.headers (Array.appendList #[] first)
    refine (congrArg (Except.map _) hline).trans ?_
    cases c.headers.mapM readText with
    | error e => rfl
    | ok rest =>
      have hlists : ((Array.appendList #[] first).appendList rest).toList = first ++ rest := by
        simp
      exact congrArg (fun fields => Except.ok (Headers.setAll [] fields)) hlists

/-! ## Tables in any order -/

section Tables

variable {table table' : List (String × String)}

/-- The headers that the legal entries of a table stand for. -/
def tableFields (table : List (String × String)) : Headers :=
  table.filterMap fun parts => (readField parts).toOption

/-- A table of legal entries is read entry by entry. -/
theorem mapM_readField (h : ∀ parts ∈ table, ∃ field, Reads parts field) :
    table.mapM readField = .ok (tableFields table) := by
  induction table with
  | nil => rfl
  | cons parts rest ih =>
    obtain ⟨⟨field, hfield⟩, hrest⟩ := List.forall_mem_cons.1 h
    have hread := readField_of_reads hfield
    have hfields : tableFields (parts :: rest) = field :: tableFields rest := by
      rw [tableFields, List.filterMap_cons, hread]
      rfl
    rw [List.mapM_cons, hread, ih hrest, hfields]
    rfl

/-- The first entry that is refused is told of. -/
theorem mapM_readField_cons {parts : String × String} {e : SettingsError}
    (h : readField parts = .error e) (rest : List (String × String)) :
    (parts :: rest).mapM readField = .error e := by
  rw [List.mapM_cons, h]
  rfl

/-- If one entry only is refused, it is told of in every order. -/
theorem mapM_readField_of_one {parts : String × String} {e : SettingsError} (hmem : parts ∈ table)
    (hparts : readField parts = .error e)
    (hothers : ∀ other ∈ table, other ≠ parts → ∃ field, Reads other field) :
    table.mapM readField = .error e := by
  induction table with
  | nil => exact absurd hmem List.not_mem_nil
  | cons first rest ih =>
    obtain ⟨hfirst, hrest⟩ := List.forall_mem_cons.1 hothers
    by_cases hone : first = parts
    · subst hone
      exact mapM_readField_cons hparts rest
    · obtain ⟨field, hfield⟩ := hfirst hone
      have hlater := (List.mem_cons.1 hmem).resolve_left (Ne.symm hone)
      rw [List.mapM_cons, readField_of_reads hfield, ih hlater hrest]
      rfl

theorem mem_tableFields {field : HeaderName × HeaderValue} (h : field ∈ tableFields table) :
    ∃ parts ∈ table, Reads parts field := by
  obtain ⟨parts, hparts, hread⟩ := List.mem_filterMap.1 h
  have hdecides := readField_decides parts
  cases hfield : readField parts with
  | error e => simp [hfield, Except.toOption] at hread
  | ok other =>
    rw [hfield] at hread
    obtain rfl := Option.some.inj hread
    exact ⟨parts, hparts, hdecides.describes hfield⟩

/-- A value that all entries of a name share is the last one in every order. -/
theorem lastValue?_tableFields_perm (hperm : table'.Perm table) {name : HeaderName}
    (hshared : ∀ parts ∈ table, ∀ other ∈ table, ∀ value value', Reads parts (name, value) →
      Reads other (name, value') → value = value') :
    lastValue? (tableFields table') name = lastValue? (tableFields table) name := by
  have hfields : (tableFields table').Perm (tableFields table) := hperm.filterMap _
  have hvalues : ((tableFields table').values name).Perm ((tableFields table).values name) :=
    (hfields.filter _).map _
  have hread : ∀ value ∈ (tableFields table).values name, ∃ parts ∈ table,
      Reads parts (name, value) := by
    intro value hvalue
    obtain ⟨field, hfield, rfl⟩ := List.mem_map.1 hvalue
    obtain ⟨hmem, hname⟩ := List.mem_filter.1 hfield
    obtain ⟨parts, hparts, hreads⟩ := mem_tableFields hmem
    obtain rfl : field.1 = name := by simpa using hname
    exact ⟨parts, hparts, hreads⟩
  unfold lastValue?
  cases hlast : ((tableFields table).values name).getLast? with
  | none =>
    rw [List.getLast?_eq_none_iff] at hlast ⊢
    rw [hlast] at hvalues
    exact hvalues.eq_nil
  | some value =>
    have hne : (tableFields table').values name ≠ [] := by
      intro hnil
      rw [hnil] at hvalues
      rw [hvalues.symm.eq_nil] at hlast
      exact absurd hlast (by simp)
    obtain ⟨parts, hparts, hreads⟩ := hread value (List.mem_of_getLast? hlast)
    obtain ⟨other, hother, hreads'⟩ := hread _ (hvalues.mem_iff.1 (List.getLast_mem hne))
    rw [List.getLast?_eq_some_getLast hne,
      hshared other hother parts hparts _ _ hreads' hreads]

end Tables

/-! ## Merging with a table -/

/-- A settings file with other headers. -/
def SettingsFile.withTable (f : SettingsFile) (table : List (String × String)) : SettingsFile :=
  { f with request := { f.request with headers := table } }

section Merging

variable {c : CommandLine} {file : SettingsFile}

/-- Settings that are merged with a table: the entries of the table are read when the URL and the
    method have been accepted, and what comes after that does not depend on them. -/
theorem merge_withTable {url : Url} {method : Method} (hurl : mergeUrl c (some file) = .ok url)
    (hmethod : mergeMethod c (some file) = .ok method) :
    ∃ rest : Except SettingsError (Headers × Settings), ∀ table,
      Settings.merge c (some (file.withTable table)) =
        (table.mapM readField).bind fun first => rest.map fun p =>
          { p.2 with headers := Headers.setAll [] (first ++ p.1) } := by
  refine ⟨(c.headers.mapM readText).bind fun lines =>
    (Settings.merge (c.withHeaders []) (some (file.withTable []))).map fun s => (lines, s),
    fun table => ?_⟩
  have hmerge : ∀ (lines : List String) (table : List (String × String)),
      Settings.merge (c.withHeaders lines) (some (file.withTable table)) =
        mergeHeaders .unlimited (c.withHeaders lines) (some (file.withTable table)) >>=
          fun headers =>
        mergeExpect c (some file) >>= fun expect => mergeCredentials c (some file) >>=
          fun credentials =>
        mergeRetry c (some file) >>= fun retry => mergePolling c (some file) >>= fun polling =>
        .ok ⟨url, method, headers, c.data.or file.request.data, expect,
          c.clientRequestId.or file.request.clientRequestId, credentials, retry, polling,
          c.verbose⟩ := by
    intro lines table
    have hexpect : mergeExpect (c.withHeaders lines) (some (file.withTable table)) =
        mergeExpect c (some file) :=
      (mergeExpect_eq _ _).trans (mergeExpect_eq c (some file)).symm
    have hcredentials : mergeCredentials (c.withHeaders lines) (some (file.withTable table)) =
        mergeCredentials c (some file) :=
      (mergeCredentials_eq _ _).trans (mergeCredentials_eq c (some file)).symm
    rw [← hexpect, ← hcredentials]
    show mergeUrl c (some file) >>= (fun url => mergeMethod c (some file) >>= fun method => _) = _
    rw [hurl, hmethod]
    rfl
  have hline := hmerge c.headers table
  rw [show c.withHeaders c.headers = c from rfl] at hline
  rw [hline, hmerge, mergeHeaders_unlimited]
  show Except.bind (Except.bind (table.mapM readField) _) _ = _
  cases table.mapM readField with
  | error e => rfl
  | ok first =>
    show Except.bind (Except.map _ (c.headers.mapM readText)) _ = _
    cases c.headers.mapM readText with
    | error e => rfl
    | ok lines =>
      -- The checks after the headers are the same whatever the headers are.
      have hnone : mergeHeaders .unlimited (c.withHeaders []) (some (file.withTable [])) = .ok [] :=
        rfl
      have hmap : ∀ {α β γ : Type} (check : Except SettingsError α)
          (next : α → Except SettingsError β) (f : β → γ),
          Except.map f (check >>= next) = check >>= fun a => Except.map f (next a) := by
        intro α β γ check next f
        cases check <;> rfl
      rw [hnone]
      show _ = Except.map _ (Except.map _ (_ >>= _))
      simp only [hmap]
      rfl

theorem readField_refuses {parts : String × String} {e : SettingsError}
    (h : RefusesField parts e) : ∃ e', readField parts = .error e' ∧ RefusesField parts e' := by
  have hdecides := readField_decides parts
  cases hread : readField parts with
  | ok field =>
    rw [hread] at hdecides
    exact absurd h (hdecides.1 e)
  | error e' =>
    rw [hread] at hdecides
    exact ⟨e', rfl, hdecides⟩

/-- An error tells of the entry that it is about by its key. -/
theorem RefusesField.key_eq {parts other : String × String} {e : SettingsError}
    (h : RefusesField parts e) (h' : RefusesField other e) : parts.1 = other.1 := by
  cases h with
  | name bad =>
    generalize he : SettingsError.invalid .header parts.1 .headerName = e at h'
    cases h' with
    | name bad' => simpa using he
    | value bad' => simp at he
  | value bad =>
    generalize he : SettingsError.invalid .header parts.2 (.headerValue parts.1) = e at h'
    cases h' with
    | name bad' => simp at he
    | value bad' =>
      simp only [SettingsError.invalid.injEq, Unusable.headerValue.injEq] at he
      exact he.2.2

/-- Whether two outcomes are the same: the same error, or settings that differ in the order of their
    headers at most. -/
inductive SameOutcome : Except SettingsError Settings → Except SettingsError Settings → Prop
  | accepted {s s' : Settings} (rest : s' = { s with headers := s'.headers })
      (headers : ∀ name, s'.headers.values name = s.headers.values name) :
      SameOutcome (.ok s) (.ok s')
  | refused (e : SettingsError) : SameOutcome (.error e) (.error e)

/-- Whether it matters in which order a table is read. The URL and the method come first. Then
    either two entries are refused, or nothing is refused at all, two entries give one name two
    values, and the command line gives this name none. -/
inductive Contested (c : CommandLine) (file : SettingsFile) (table : List (String × String)) : Prop
  | refused {url : Url} {method : Method} (accepted : mergeUrl c (some file) = .ok url)
      (known : mergeMethod c (some file) = .ok method) {parts other : String × String}
      (first : parts ∈ table) (second : other ∈ table) (ne : parts ≠ other) {e e' : SettingsError}
      (bad : RefusesField parts e) (worse : RefusesField other e')
  | values {s : Settings} (accepted : Settings.merge c (some (file.withTable [])) = .ok s)
      (legal : ∀ parts ∈ table, ∃ field, Reads parts field) {parts other : String × String}
      (first : parts ∈ table) (second : other ∈ table) {name : HeaderName}
      {value value' : HeaderValue} (reads : Reads parts (name, value))
      (otherwise : Reads other (name, value')) (ne : value ≠ value')
      (unnamed : s.headers.values name = [])

/-- What is refused before the headers is told of whatever the table holds. -/
theorem merge_withTable_refused (c : CommandLine) (file : SettingsFile) :
    (∃ e, ∀ table, Settings.merge c (some (file.withTable table)) = .error e) ∨
      ∃ url method, mergeUrl c (some file) = .ok url ∧ mergeMethod c (some file) = .ok method := by
  have hmerge : ∀ table, ∃ next : Url → Method → Except SettingsError Settings,
      Settings.merge c (some (file.withTable table)) =
        mergeUrl c (some file) >>= fun url => mergeMethod c (some file) >>= next url :=
    fun _ => ⟨_, rfl⟩
  cases hurl : mergeUrl c (some file) with
  | error e =>
    refine .inl ⟨e, fun table => ?_⟩
    obtain ⟨next, hnext⟩ := hmerge table
    rw [hnext, hurl]
    rfl
  | ok url =>
    cases hmethod : mergeMethod c (some file) with
    | error e =>
      refine .inl ⟨e, fun table => ?_⟩
      obtain ⟨next, hnext⟩ := hmerge table
      rw [hnext, hurl, hmethod]
      rfl
    | ok method => exact .inr ⟨url, method, rfl, rfl⟩

variable {table : List (String × String)}

theorem exists_reads_or_refuses (parts : String × String) :
    (∃ field, Reads parts field) ∨ ∃ e, RefusesField parts e := by
  have hdecides := readField_decides parts
  cases hread : readField parts with
  | ok field => exact .inl ⟨field, hdecides.describes hread⟩
  | error e =>
    rw [hread] at hdecides
    exact .inr ⟨e, hdecides⟩

/-- If it does not matter, every order comes to the same. -/
theorem sameOutcome_of_not_contested (h : ¬Contested c file table)
    {table' : List (String × String)} (hperm : table'.Perm table) :
    SameOutcome (Settings.merge c (some (file.withTable table)))
      (Settings.merge c (some (file.withTable table'))) := by
  rcases merge_withTable_refused c file with ⟨e, he⟩ | ⟨url, method, hurl, hmethod⟩
  · rw [he, he]
    exact .refused e
  obtain ⟨rest, hmerge⟩ := merge_withTable hurl hmethod
  by_cases hlegal : ∀ parts ∈ table, ∃ field, Reads parts field
  · have hlegal' : ∀ parts ∈ table', ∃ field, Reads parts field :=
      fun parts hparts => hlegal parts (hperm.mem_iff.1 hparts)
    have hnone := hmerge []
    rw [hmerge, hmerge, mapM_readField hlegal, mapM_readField hlegal']
    cases rest with
    | error e => exact .refused e
    | ok p =>
      refine .accepted rfl fun name => ?_
      show Headers.values (Headers.setAll [] _) name = Headers.values (Headers.setAll [] _) name
      rw [Headers.values_setAll_nil, Headers.values_setAll_nil, lastValue?_append,
        lastValue?_append]
      cases hline : lastValue? p.1 name with
      | some value => rfl
      | none =>
        have hunnamed : Headers.values (Headers.setAll [] ([] ++ p.1)) name = [] := by
          rw [Headers.values_setAll_nil, List.nil_append, hline]
          rfl
        rw [Option.none_or, Option.none_or, lastValue?_tableFields_perm hperm]
        intro parts hparts other hother value value' hreads hreads'
        exact Classical.not_not.1 fun hne =>
          h (.values hnone hlegal hparts hother hreads hreads' hne hunnamed)
  · simp only [not_forall] at hlegal
    obtain ⟨parts, hparts, hnot⟩ := hlegal
    obtain ⟨e, hrefused⟩ := (exists_reads_or_refuses parts).resolve_left hnot
    obtain ⟨e', hread, -⟩ := readField_refuses hrefused
    have hothers : ∀ other ∈ table, other ≠ parts → ∃ field, Reads other field := by
      intro other hother hne
      refine (exists_reads_or_refuses other).resolve_right fun ⟨_, hworse⟩ => ?_
      exact h (.refused hurl hmethod hparts hother (Ne.symm hne) hrefused hworse)
    have hothers' : ∀ other ∈ table', other ≠ parts → ∃ field, Reads other field :=
      fun other hother => hothers other (hperm.mem_iff.1 hother)
    rw [hmerge, hmerge, mapM_readField_of_one hparts hread hothers,
      mapM_readField_of_one (hperm.mem_iff.2 hparts) hread hothers']
    exact .refused e'

/-- The value of an entry that is read last counts if the command line does not name its header. -/
theorem merge_of_last {s : Settings} (hmerged : Settings.merge c (some (file.withTable [])) = .ok s)
    (hlegal : ∀ parts ∈ table, ∃ field, Reads parts field) {entry : String × String}
    (hentry : entry ∈ table) {field : HeaderName × HeaderValue} (hreads : Reads entry field)
    (hunnamed : s.headers.values field.1 = []) :
    ∃ s', Settings.merge c (some (file.withTable (table.erase entry ++ [entry]))) = .ok s' ∧
      s'.headers.values field.1 = [field.2] := by
  rcases merge_withTable_refused c file with ⟨e, he⟩ | ⟨url, method, hurl, hmethod⟩
  · exact absurd (hmerged.symm.trans (he [])) (by simp)
  obtain ⟨rest, hmerge⟩ := merge_withTable hurl hmethod
  have hlegal' : ∀ parts ∈ table.erase entry ++ [entry], ∃ field, Reads parts field := by
    intro parts hparts
    rcases List.mem_append.1 hparts with hparts | hparts
    · exact hlegal parts (List.mem_of_mem_erase hparts)
    · exact hlegal parts (List.mem_singleton.1 hparts ▸ hentry)
  have hlast : tableFields (table.erase entry ++ [entry]) =
      tableFields (table.erase entry) ++ [field] := by
    rw [tableFields, List.filterMap_append, List.filterMap_cons, readField_of_reads hreads]
    rfl
  rw [hmerge, mapM_readField hlegal', hlast]
  rw [hmerge] at hmerged
  cases rest with
  | error e =>
    have hrefused : Except.error e = Except.ok s := hmerged
    cases hrefused
  | ok p =>
    obtain rfl := Except.ok.inj hmerged
    refine ⟨_, rfl, ?_⟩
    have hnone : lastValue? p.1 field.1 = none := by
      have hvalues : Headers.values (Headers.setAll [] p.1) field.1 = [] := hunnamed
      rw [Headers.values_setAll_nil] at hvalues
      simpa using hvalues
    show Headers.values (Headers.setAll [] _) field.1 = [field.2]
    rw [Headers.values_setAll_nil, lastValue?_append, lastValue?_append, hnone,
      lastValue?_singleton_self]
    rfl

/-- If it matters, there are two orders that come to something else. -/
theorem Contested.exists_perm (h : Contested c file table) (hkeys : (table.map Prod.fst).Nodup) :
    ∃ first second : List (String × String), first.Perm table ∧ second.Perm table ∧
      ∀ outcome, SameOutcome outcome (Settings.merge c (some (file.withTable first))) →
        ¬SameOutcome outcome (Settings.merge c (some (file.withTable second))) := by
  cases h with
  | @refused url method hurl hmethod parts other hparts hother hne e e' hbad hworse =>
    -- An entry that comes first is told of.
    obtain ⟨rest, hmerge⟩ := merge_withTable hurl hmethod
    obtain ⟨d, hread, hd⟩ := readField_refuses hbad
    obtain ⟨d', hread', hd'⟩ := readField_refuses hworse
    refine ⟨parts :: table.erase parts, other :: table.erase other,
      (List.perm_cons_erase hparts).symm, (List.perm_cons_erase hother).symm,
      fun outcome hfirst hsecond => ?_⟩
    rw [hmerge, mapM_readField_cons hread] at hfirst
    rw [hmerge, mapM_readField_cons hread'] at hsecond
    have hsame : d = d' := by
      cases hfirst with
      | refused => cases hsecond with
        | refused => rfl
    subst hsame
    exact hne (List.inj_on_of_nodup_map hkeys hparts hother (hd.key_eq hd'))
  | @values s hmerged hlegal parts other hparts hother name value value' hreads hreads' hne hnone =>
    -- A value that comes last counts.
    have hlast : ∀ {entry : String × String} {v : HeaderValue}, entry ∈ table →
        Reads entry (name, v) → ∀ outcome, SameOutcome outcome
          (Settings.merge c (some (file.withTable (table.erase entry ++ [entry])))) →
        ∃ s, outcome = .ok s ∧ s.headers.values name = [v] := by
      intro entry v hentry hreads outcome hsame
      obtain ⟨s', hs', hvalues⟩ := merge_of_last hmerged hlegal hentry hreads hnone
      rw [hs'] at hsame
      cases hsame with
      | accepted rest headers => exact ⟨_, rfl, (headers name).symm.trans hvalues⟩
    refine ⟨table.erase parts ++ [parts], table.erase other ++ [other], ?_, ?_,
      fun outcome hfirst hsecond => ?_⟩
    · exact (List.perm_append_singleton _ _).trans (List.perm_cons_erase hparts).symm
    · exact (List.perm_append_singleton _ _).trans (List.perm_cons_erase hother).symm
    · obtain ⟨s₁, rfl, hvalues₁⟩ := hlast hparts hreads outcome hfirst
      obtain ⟨s₂, hs, hvalues₂⟩ := hlast hother hreads' _ hsecond
      obtain rfl := Except.ok.inj hs
      exact hne (List.cons.inj (hvalues₁.symm.trans hvalues₂)).1

/-- Legal entries for different names do not contest. -/
theorem not_contested_of_names (hlegal : ∀ parts ∈ table, ∃ field, Reads parts field)
    (hnames : ∀ parts ∈ table, ∀ other ∈ table,
      HeaderName.parse? parts.1 = HeaderName.parse? other.1 → parts = other) :
    ¬Contested c file table := by
  intro h
  cases h with
  | @refused _ _ _ _ parts _ hparts _ _ e _ hbad _ =>
    obtain ⟨field, hreads⟩ := hlegal parts hparts
    exact not_refusesField_of_reads hreads e hbad
  | @values _ _ _ parts other hparts hother _ _ _ hreads hreads' hne _ =>
    obtain rfl := hnames parts hparts other hother (hreads.1.trans hreads'.1.symm)
    exact hne (congrArg Prod.snd (hreads.eq hreads'))

/-- **The order of a table.** The headers of a settings file are told apart by their keys. Settings
are the same, or the same is refused, in whatever order they are read, exactly if no two of them
contest: two are not refused both, and if nothing at all is refused, two that stand for one name
have one value or give way to a header of the command line. -/
theorem table_order_immaterial_iff (c : CommandLine) (file : SettingsFile)
    {table : List (String × String)} (hkeys : (table.map Prod.fst).Nodup) :
    (∀ table', table'.Perm table → SameOutcome (Settings.merge c (some (file.withTable table)))
      (Settings.merge c (some (file.withTable table')))) ↔ ¬Contested c file table := by
  constructor
  · intro hsame hcontested
    obtain ⟨first, second, hfirst, hsecond, hdiffer⟩ := hcontested.exists_perm hkeys
    exact hdiffer _ (hsame first hfirst) (hsame second hsecond)
  · intro h table' hperm
    exact sameOutcome_of_not_contested h hperm

end Merging

/-- Two headers of different names may be read in either order. -/
theorem table_order_immaterial_iff_distinct :
    ([("accept", "a"), ("host", "b")].map Prod.fst).Nodup ∧
    SameOutcome
      (Settings.merge addressedLine (some (SettingsFile.empty.withTable
        [("accept", "a"), ("host", "b")])))
      (Settings.merge addressedLine (some (SettingsFile.empty.withTable
        [("host", "b"), ("accept", "a")]))) := by
  have hkeys : ([("accept", "a"), ("host", "b")].map Prod.fst).Nodup := by decide
  have haccept : Reads ("accept", "a") (⟨"accept"⟩, ⟨Utf8.encode "a"⟩) :=
    ⟨by decide +kernel, by decide +kernel⟩
  have hhost : Reads ("host", "b") (⟨"host"⟩, ⟨Utf8.encode "b"⟩) :=
    ⟨by decide +kernel, by decide +kernel⟩
  have hnot : ¬Contested addressedLine .empty [("accept", "a"), ("host", "b")] := by
    refine not_contested_of_names ?_ (by decide +kernel)
    simp only [List.forall_mem_cons]
    exact ⟨⟨_, haccept⟩, ⟨_, hhost⟩, by simp⟩
  exact ⟨hkeys, (table_order_immaterial_iff addressedLine .empty hkeys).2 hnot _ (.swap _ _ _)⟩

/-- Two keys that differ in case stand for one name, so the order decides about its value; and of
two keys that are no names the order decides which one is told of. -/
theorem table_order_counts :
    ([("X-A", "1"), ("x-a", "2")].map Prod.fst).Nodup ∧
    ((Settings.merge addressedLine (some (SettingsFile.empty.withTable
      [("X-A", "1"), ("x-a", "2")]))).toOption.map fun s => s.headers) =
        some [(⟨"x-a"⟩, ⟨Utf8.encode "2"⟩)] ∧
    ((Settings.merge addressedLine (some (SettingsFile.empty.withTable
      [("x-a", "2"), ("X-A", "1")]))).toOption.map fun s => s.headers) =
        some [(⟨"x-a"⟩, ⟨Utf8.encode "1"⟩)] ∧
    Settings.merge addressedLine (some (SettingsFile.empty.withTable [("a b", ""), ("c d", "")])) =
      .error (.invalid .header "a b" .headerName) ∧
    Settings.merge addressedLine (some (SettingsFile.empty.withTable [("c d", ""), ("a b", "")])) =
      .error (.invalid .header "c d" .headerName) := by
  decide +kernel

end Courier
