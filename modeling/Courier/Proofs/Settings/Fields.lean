import Courier.Proofs.Settings.Merging

set_option autoImplicit false

/-! # Headers of a draft

Two drafts that differ in headers only refuse the same apart from headers, and describe the same
settings apart from headers. Of the headers themselves those that come last decide. -/

namespace Courier

/-! ## Values that come last -/

theorem Headers.values_append (first second : Headers) (name : HeaderName) :
    (first ++ second).values name = first.values name ++ second.values name := by
  simp [Headers.values]

/-- The last value of a name is sought from the end. -/
theorem lastValue?_append (first second : Headers) (name : HeaderName) :
    lastValue? (first ++ second) name = (lastValue? second name).or (lastValue? first name) := by
  unfold lastValue?
  rw [Headers.values_append, List.getLast?_append]

theorem lastValue?_singleton_self (field : HeaderName × HeaderValue) :
    lastValue? [field] field.1 = some field.2 := by
  simp [lastValue?, Headers.values]

theorem lastValue?_singleton_ne {field : HeaderName × HeaderValue} {name : HeaderName}
    (h : field.1 ≠ name) : lastValue? [field] name = none := by
  simp [lastValue?, Headers.values, h]

theorem lastValue?_eq_none {fields : Headers} {name : HeaderName}
    (h : ∀ field ∈ fields, field.1 ≠ name) : lastValue? fields name = none := by
  have hvalues : fields.values name = [] := by
    unfold Headers.values
    rw [List.map_eq_nil_iff, List.filter_eq_nil_iff]
    exact fun field hfield => by simpa using h field hfield
  rw [lastValue?, hvalues]
  rfl

/-! ## One reading -/

/-- Members of two lists one after another are related to two lists one after another. -/
theorem exists_of_forall₂_append {α β : Type} {R : α → β → Prop} {front back : List α}
    {bs : List β} (h : List.Forall₂ R (front ++ back) bs) :
    ∃ before after, bs = before ++ after ∧ List.Forall₂ R front before ∧
      List.Forall₂ R back after := by
  have hflip : List.Forall₂ (flip R) bs (front ++ back) := List.Forall₂.flip (R := flip R) h
  exact ⟨bs.take front.length, bs.drop front.length, (List.take_append_drop _ _).symm,
    (List.forall₂_take_append _ _ _ hflip).flip, (List.forall₂_drop_append _ _ _ hflip).flip⟩

/-! ## Drafts with other headers -/

/-- Settings that two drafts describe which differ in headers only are the same but for their
    headers. -/
theorem Draft.Describes.eq_but_headers {d : Draft} {table table' : List (String × String)}
    {lines lines' : List String} {s s' : Settings} (h : (d.withHeaders table lines).Describes s)
    (h' : (d.withHeaders table' lines').Describes s') : s' = { s with headers := s'.headers } := by
  obtain ⟨text, htext, hurl⟩ := h.url
  obtain ⟨text', htext', hurl'⟩ := h'.url
  obtain rfl := Option.some.inj (htext.symm.trans htext')
  cases s
  cases s'
  simp only [Settings.mk.injEq]
  exact ⟨Except.ok.inj (hurl'.symm.trans hurl), Option.some.inj (h'.method.symm.trans h.method),
    trivial, h'.body.trans h.body.symm, h'.expect.trans h.expect.symm,
    h'.clientRequestId.trans h.clientRequestId.symm,
    Option.some.inj (h'.credentials.symm.trans h.credentials), h'.retry.trans h.retry.symm,
    h'.polling.trans h.polling.symm, h'.verbose.trans h.verbose.symm⟩

/-! ## Merging -/

/-- A command line with other headers. -/
def CommandLine.withHeaders (c : CommandLine) (lines : List String) : CommandLine :=
  { c with headers := lines }

theorem Settings.merge_withHeaders_decides (c : CommandLine) (lines : List String)
    (file : Option SettingsFile) :
    Decides (Settings.merge (c.withHeaders lines) file)
      ((Draft.of c file).withHeaders (Draft.of c file).fileHeaders lines).Refuses
      ((Draft.of c file).withHeaders (Draft.of c file).fileHeaders lines).Describes :=
  Settings.merge_decides (c.withHeaders lines) file

end Courier
