import Courier.Proofs.Settings.Refusals

set_option autoImplicit false

/-! # Room for headers

Headers are read one after another, and each is put into a map before the next one is read. The map
has an end, and a legal header that finds no room in it ends the program. So of a header that is
refused and one that finds no room the earlier one decides what becomes of the settings. -/

namespace Courier

/-! ## Taking headers -/

/-- Takes another header if there is room for it. -/
def takeField (room : HeaderRoom) (given : Array (HeaderName × HeaderValue))
    (field : HeaderName × HeaderValue) : Except SettingsError (Array (HeaderName × HeaderValue)) :=
  if room given then .ok (given.push field) else .error (.crash .headersFull)

/-- Reads headers one after another, and takes each before the next is read. -/
def takeAll {α : Type} (room : HeaderRoom)
    (read : α → Except SettingsError (HeaderName × HeaderValue)) (as : List α)
    (given : Array (HeaderName × HeaderValue)) :
    Except SettingsError (Array (HeaderName × HeaderValue)) :=
  as.foldlM (fun given a => (read a).bind (takeField room given)) given

theorem addHeader_eq (room : HeaderRoom) (given : Array (HeaderName × HeaderValue))
    (parts : String × String) :
    addHeader room given parts.1 parts.2 = (readField parts).bind (takeField room given) := by
  unfold addHeader readField
  cases HeaderName.parse? parts.1 with
  | none => rfl
  | some name => cases HeaderValue.parse? parts.2 <;> rfl

/-- The headers of the file are read and taken, and then those of the command line. -/
theorem mergeHeaders_eq_takeAll (room : HeaderRoom) (c : CommandLine) (file : Option SettingsFile) :
    mergeHeaders room c file =
      (takeAll room readField (Draft.of c file).fileHeaders #[]).bind fun given =>
        (takeAll room readText (Draft.of c file).lineHeaders given).map fun given =>
          Headers.setAll [] given.toList := by
  have hline : (fun (given : Array (HeaderName × HeaderValue)) text => do
      let parts ← splitHeader text
      addHeader room given parts.1 parts.2) =
        fun given text => (readText text).bind (takeField room given) := by
    funext given text
    unfold readText
    cases splitHeader text with
    | error e => rfl
    | ok parts => exact addHeader_eq room given parts
  rw [mergeHeaders_eq, hline]
  simp only [addHeader_eq]
  rfl

section Room

variable {α : Type} {room : HeaderRoom} {read : α → Except SettingsError (HeaderName × HeaderValue)}
  {R : α → SettingsError → Prop} {D : α → HeaderName × HeaderValue → Prop}

section Cons

variable {a : α} {rest : List α} {given : Array (HeaderName × HeaderValue)}
  {field : HeaderName × HeaderValue}

theorem takeAll_cons_of_error {e : SettingsError} (h : read a = .error e) :
    takeAll room read (a :: rest) given = .error e := by
  rw [takeAll, List.foldlM_cons, h]
  rfl

theorem takeAll_cons_of_full (h : read a = .ok field) (full : room given = false) :
    takeAll room read (a :: rest) given = .error (.crash .headersFull) := by
  rw [takeAll, List.foldlM_cons, h, Except.bind, takeField, full, if_neg (by simp)]
  rfl

theorem takeAll_cons_of_room (h : read a = .ok field) (hroom : room given = true) :
    takeAll room read (a :: rest) given = takeAll room read rest (given.push field) := by
  rw [takeAll, List.foldlM_cons, h, Except.bind, takeField, if_pos hroom]
  rfl

end Cons

/-- Whether there is no room for a header when those before it have been taken. -/
def Overfills (room : HeaderRoom) (D : α → HeaderName × HeaderValue → Prop) (as : List α)
    (given : Headers) : Prop :=
  ∃ front back fields field, as = front ++ back ∧ List.Forall₂ D front (fields ++ [field]) ∧
    room (given ++ fields).toArray = false

theorem not_overfills_nil {given : Headers} : ¬Overfills room D [] given := by
  rintro ⟨front, back, fields, field, hsplit, hreads, -⟩
  obtain ⟨rfl, -⟩ := List.append_eq_nil_iff.1 hsplit.symm
  cases fields <;> cases hreads

/-- Either there is no room for the first header, or it is taken and there is none later. -/
theorem overfills_cons_iff (unique : Relator.RightUnique D)
    {a : α} {rest : List α} {given : Headers} {field : HeaderName × HeaderValue}
    (hfield : D a field) : Overfills room D (a :: rest) given ↔
      room given.toArray = false ∨ Overfills room D rest (given ++ [field]) := by
  constructor
  · rintro ⟨front, back, fields, last, hsplit, hreads, hfull⟩
    cases fields with
    | nil =>
      rw [List.append_nil] at hfull
      exact .inl hfull
    | cons first fields =>
      cases hreads with
      | cons hfirst hreads =>
        obtain ⟨rfl, rfl⟩ := List.cons.inj hsplit
        obtain rfl := unique hfield hfirst
        refine .inr ⟨_, back, fields, last, rfl, hreads, ?_⟩
        rw [List.append_assoc]
        exact hfull
  · rintro (hfull | ⟨front, back, fields, last, rfl, hreads, hfull⟩)
    · refine ⟨[a], rest, [], field, rfl, .cons hfield .nil, ?_⟩
      rw [List.append_nil]
      exact hfull
    · refine ⟨a :: front, back, field :: fields, last, rfl, .cons hfield hreads, ?_⟩
      rw [List.append_assoc] at hfull
      exact hfull

/-- Headers that are read and taken: each is legal and finds room, or the first that is not so is
    told of. -/
theorem takeAll_decides (room : HeaderRoom) (hread : ∀ a, Decides (read a) (R a) (D a))
    (unique : Relator.RightUnique D) (as : List α)
    (given : Array (HeaderName × HeaderValue)) :
    Decides (takeAll room read as given)
      (fun e => (∃ a ∈ as, R a e) ∨ Overfills room D as given.toList ∧ e = .crash .headersFull)
      fun given' => ∃ fields, List.Forall₂ D as fields ∧
        given'.toList = given.toList ++ fields := by
  induction as generalizing given with
  | nil =>
    refine .of_ok rfl (fun e he => ?_) ⟨[], .nil, (List.append_nil _).symm⟩
    rcases he with ⟨a, ha, -⟩ | ⟨hfull, -⟩
    · exact absurd ha List.not_mem_nil
    · exact not_overfills_nil hfull
  | cons a rest ih =>
    have hfirst := hread a
    cases hr : read a with
    | error e =>
      rw [hr] at hfirst
      exact .of_error (takeAll_cons_of_error hr) (.inl ⟨a, List.mem_cons_self, hfirst⟩)
    | ok field =>
      rw [hr] at hfirst
      obtain ⟨hnone, hfield⟩ := hfirst
      have hiff : Overfills room D (a :: rest) given.toList ↔
          room given = false ∨ Overfills room D rest (given.toList ++ [field]) :=
        overfills_cons_iff unique hfield
      cases hroom : room given with
      | false =>
        exact .of_error (takeAll_cons_of_full hr hroom) (.inr ⟨hiff.2 (.inl hroom), rfl⟩)
      | true =>
        rw [takeAll_cons_of_room hr hroom]
        refine (ih (given.push field)).imp (fun e => ?_) ?_
        · rw [hiff, Array.toList_push]
          simp [hnone e, hroom]
        · rintro given' ⟨fields, hreads, hgiven⟩
          refine ⟨field :: fields, .cons hfield hreads, ?_⟩
          rw [hgiven, Array.toList_push, List.append_assoc]
          rfl

/-- Headers that are legal and find room are taken. -/
theorem takeAll_of_fits (hread : ∀ a, Decides (read a) (R a) (D a))
    (reads : ∀ a field, D a field → read a = .ok field)
    (unique : Relator.RightUnique D) {as : List α}
    {given : Array (HeaderName × HeaderValue)} {fields : Headers} (hall : List.Forall₂ D as fields)
    (hroom : ¬Overfills room D as given.toList) :
    ∃ given', takeAll room read as given = .ok given' ∧ given'.toList = given.toList ++ fields := by
  have hdecides := takeAll_decides room hread unique as given
  cases htaken : takeAll room read as given with
  | ok given' =>
    rw [htaken] at hdecides
    obtain ⟨-, fields', hall', hgiven⟩ := hdecides
    obtain rfl := List.right_unique_forall₂' unique hall hall'
    exact ⟨given', rfl, hgiven⟩
  | error e =>
    rw [htaken] at hdecides
    rcases hdecides with ⟨a, ha, hbad⟩ | ⟨hfull, -⟩
    · obtain ⟨i, hi, rfl⟩ := List.mem_iff_getElem.1 ha
      have hlegal := hread as[i]
      have hmember : D as[i] _ := hall.get hi (hall.length_eq ▸ hi)
      rw [reads _ _ hmember] at hlegal
      exact absurd hbad (hlegal.1 e)
    · exact absurd hfull hroom

/-- If there is no room for a header, the program ends. -/
theorem takeAll_of_overfills (reads : ∀ a field, D a field → read a = .ok field)
    (unique : Relator.RightUnique D) {as : List α}
    {given : Array (HeaderName × HeaderValue)} (h : Overfills room D as given.toList) :
    takeAll room read as given = .error (.crash .headersFull) := by
  induction as generalizing given with
  | nil => exact absurd h not_overfills_nil
  | cons a rest ih =>
    obtain ⟨field, hfield⟩ : ∃ field, D a field := by
      obtain ⟨front, back, fields, last, hsplit, hreads, -⟩ := h
      cases hreads' : fields ++ [last] with
      | nil => simp at hreads'
      | cons first others =>
        rw [hreads'] at hreads
        cases hreads with
        | cons hfirst _ =>
          obtain ⟨rfl, -⟩ := List.cons.inj hsplit
          exact ⟨first, hfirst⟩
    have hrest := (overfills_cons_iff unique hfield).1 h
    cases hroom : room given with
    | false => exact takeAll_cons_of_full (reads a field hfield) hroom
    | true =>
      rw [takeAll_cons_of_room (reads a field hfield) hroom]
      refine ih ?_
      rw [Array.toList_push]
      exact hrest.resolve_left (by simp [hroom])

/-- How much room there is makes no difference as long as there is enough. -/
theorem takeAll_eq_or_crash (read : α → Except SettingsError (HeaderName × HeaderValue))
    (room : HeaderRoom) (as : List α)
    (given : Array (HeaderName × HeaderValue)) :
    takeAll room read as given = takeAll .unlimited read as given ∨
      takeAll room read as given = .error (.crash .headersFull) := by
  induction as generalizing given with
  | nil => exact .inl rfl
  | cons a rest ih =>
    cases hr : read a with
    | error e =>
      rw [takeAll_cons_of_error hr, takeAll_cons_of_error hr]
      exact .inl rfl
    | ok field =>
      cases hroom : room given with
      | false => exact .inr (takeAll_cons_of_full hr hroom)
      | true =>
        rw [takeAll_cons_of_room hr hroom, takeAll_cons_of_room hr rfl]
        exact ih (given.push field)

end Room

/-- A map with as many names as it holds takes no field. -/
theorem HeaderRoom.standard_eq_false {fields : Headers} (hlength : 24576 ≤ fields.length)
    (hnames : (fields.map Prod.fst).Nodup) : HeaderRoom.standard fields.toArray = false := by
  have hpairwise : (fields.map Prod.fst).Pairwise fun a b => (a == b) = false :=
    hnames.imp fun h => beq_false_of_ne h
  have hsize : (Std.HashSet.ofList (fields.map Prod.fst)).size = fields.length :=
    (Std.HashSet.size_ofList hpairwise).trans (List.length_map _)
  unfold HeaderRoom.standard
  rw [List.size_toArray, List.toList_toArray, hsize]
  simpa using hlength

/-- Whether the headers of a draft find no room. Those of the file are taken first. -/
def Draft.Overflows (d : Draft) (room : HeaderRoom) : Prop :=
  Overfills room Reads d.fileHeaders [] ∨
    ∃ first, List.Forall₂ Reads d.fileHeaders first ∧ Overfills room ReadsText d.lineHeaders first

/-- Of headers that are set one after another the last one of each name counts; other names keep
their values. -/
theorem Headers.values_setAll (h fields : Headers) (name : HeaderName) :
    (h.setAll fields).values name = (lastValue? fields name).elim (h.values name) ([·]) := by
  induction fields using List.reverseRecOn with
  | nil => rfl
  | append_singleton fields field ih =>
    unfold Headers.setAll at ih ⊢
    rw [List.foldl_append, List.foldl_cons, List.foldl_nil]
    have hvalues : Headers.values (fields ++ [field]) name =
        Headers.values fields name ++ if field.1 = name then [field.2] else [] := by
      by_cases h : field.1 = name <;> simp [Headers.values, h]
    unfold lastValue? at ih ⊢
    rw [hvalues]
    by_cases h : field.1 = name
    · subst h
      rw [Headers.values_set_self, if_pos rfl, List.getLast?_concat]
      rfl
    · rw [Headers.values_set_ne _ _ (Ne.symm h), ih, if_neg h, List.append_nil]

theorem Headers.values_setAll_nil (fields : Headers) (name : HeaderName) :
    (Headers.setAll [] fields).values name = (lastValue? fields name).toList := by
  rw [Headers.values_setAll]
  cases lastValue? fields name <;> rfl

section Sources

variable (room : HeaderRoom) (c : CommandLine) (file : Option SettingsFile)

/-- Headers are accepted exactly if each is legal and finds room, and of one name the last one
    counts. -/
theorem mergeHeaders_decides :
    Decides (mergeHeaders room c file)
      (fun e => ((∃ parts ∈ (Draft.of c file).fileHeaders, RefusesField parts e) ∨
        ∃ text ∈ (Draft.of c file).lineHeaders, RefusesHeaderText text e) ∨
        (Draft.of c file).Overflows room ∧ e = .crash .headersFull)
      fun headers => ∃ first rest, List.Forall₂ Reads (Draft.of c file).fileHeaders first ∧
        List.Forall₂ ReadsText (Draft.of c file).lineHeaders rest ∧
        ∀ name, headers.values name = (lastValue? (first ++ rest) name).toList := by
  rw [mergeHeaders_eq_takeAll]
  unfold Draft.Overflows
  generalize (Draft.of c file).fileHeaders = table
  generalize (Draft.of c file).lineHeaders = lines
  have hfile := takeAll_decides room readField_decides rightUnique_reads table #[]
  cases htable : takeAll room readField table #[] with
  | error e =>
    rw [htable] at hfile
    refine .of_error rfl ?_
    rcases hfile with hrefused | ⟨hfull, rfl⟩
    · exact .inl (.inl hrefused)
    · exact .inr ⟨.inl hfull, rfl⟩
  | ok given =>
    rw [htable] at hfile
    obtain ⟨hnone, first, hfirst, hgiven⟩ := hfile
    rw [show (#[] : Array (HeaderName × HeaderValue)).toList = [] from rfl, List.nil_append]
      at hgiven
    have hline := takeAll_decides room readText_decides rightUnique_readsText lines
      given
    -- The headers of the file are read in one way only.
    have hoverflows : (Overfills room Reads table [] ∨ ∃ first, List.Forall₂ Reads table first ∧
        Overfills room ReadsText lines first) ↔ Overfills room ReadsText lines given.toList := by
      refine ⟨?_, fun hfull => .inr ⟨first, hfirst, hgiven ▸ hfull⟩⟩
      rintro (hfull | ⟨first', hfirst', hfull⟩)
      · exact absurd (.inr ⟨hfull, rfl⟩) (hnone (.crash .headersFull))
      · rw [hgiven, List.right_unique_forall₂' rightUnique_reads hfirst hfirst']
        exact hfull
    have hlegal : ∀ e, ¬∃ parts ∈ table, RefusesField parts e := fun e he => hnone e (.inl he)
    rw [hoverflows]
    cases htaken : takeAll room readText lines given with
    | error e =>
      rw [htaken] at hline
      refine .of_error (by rw [Except.bind, htaken]; rfl) ?_
      rcases hline with hrefused | hfull
      · exact .inl (.inr hrefused)
      · exact .inr hfull
    | ok all =>
      rw [htaken] at hline
      obtain ⟨hnone', rest, hrest, hall⟩ := hline
      refine .of_ok (by rw [Except.bind, htaken]; rfl) (fun e he => ?_)
        ⟨first, rest, hfirst, hrest, fun name => ?_⟩
      · rcases he with (hrefused | hrefused) | hfull
        · exact hlegal e hrefused
        · exact hnone' e (.inl hrefused)
        · exact hnone' e (.inr hfull)
      · rw [Headers.values_setAll_nil, hall, hgiven]

theorem mergeHeaders_eq_or_crash : mergeHeaders room c file = mergeHeaders .unlimited c file ∨
    mergeHeaders room c file = .error (.crash .headersFull) := by
  rw [mergeHeaders_eq_takeAll, mergeHeaders_eq_takeAll]
  rcases takeAll_eq_or_crash readField room (Draft.of c file).fileHeaders #[] with
    htable | hcrash
  · rw [htable]
    cases takeAll .unlimited readField (Draft.of c file).fileHeaders #[] with
    | error e => exact .inl rfl
    | ok given =>
      rcases takeAll_eq_or_crash readText room (Draft.of c file).lineHeaders given with
        hline | hcrash
      · rw [Except.bind, Except.bind, hline]
        exact .inl rfl
      · rw [Except.bind, Except.bind, hcrash]
        exact .inr rfl
  · rw [hcrash]
    exact .inr rfl

/-- The program ends for want of room if a header that is reached finds none. -/
theorem mergeHeaders_of_overflows {room : HeaderRoom} {c : CommandLine}
    {file : Option SettingsFile} (h : (Draft.of c file).Overflows room) :
    mergeHeaders room c file = .error (.crash .headersFull) := by
  rw [mergeHeaders_eq_takeAll]
  by_cases hfile : Overfills room Reads (Draft.of c file).fileHeaders
      (#[] : Array (HeaderName × HeaderValue)).toList
  · have hcrash := takeAll_of_overfills (fun _ _ h => readField_of_reads h) rightUnique_reads hfile
    rw [hcrash]
    rfl
  · obtain ⟨first, hfirst, hfull⟩ := h.resolve_left hfile
    obtain ⟨given, htable, hgiven⟩ := takeAll_of_fits readField_decides
      (fun _ _ h => readField_of_reads h) rightUnique_reads hfirst hfile
    rw [Array.toList_empty, List.nil_append] at hgiven
    subst hgiven
    have hcrash := takeAll_of_overfills (fun _ _ h => readText_of_readsText h) rightUnique_readsText
      hfull
    rw [htable, Except.bind, hcrash]
    rfl

end Sources

end Courier
