import Courier.Proofs.Preparing.Segments
import Courier.Proofs.Url.Rereading

set_option autoImplicit false

/-! # The parts of a URL that steps reach

Steps append text to the path of a URL and add fields to its query, and the text may hold any marks
of URLs. None of them gets out of the part that it was meant for: paths make up the path of the URL
alone, and fields its query, whatever the order of the steps. That the marks do not get out in
writing either is told by reading: the text of the URL is read as that URL again.

The main statement is `url_steps_stay_apart`. -/

namespace Courier

/-! ## URLs that stay sound -/

/-- What a URL's path becomes depends on its scheme and its path alone. -/
theorem Url.appendPath_path (u v : Url) (hscheme : u.scheme = v.scheme) (hpath : u.path = v.path)
    (text : String) : (u.appendPath text).path = (v.appendPath text).path := by
  unfold Url.appendPath Url.setPath Url.kind
  rw [hscheme, hpath]
  cases v.path <;> rfl

/-- Appending to the path changes nothing else. -/
theorem Url.appendPath_eq (u : Url) (text : String) :
    u.appendPath text = { u with path := (u.appendPath text).path } := by
  unfold Url.appendPath Url.setPath
  cases u.path <;> rfl

section Sound

variable {u : Url}

/-- A URL of the web stays sound when any text is appended to its path. -/
theorem Url.Sound.appendPath (h : u.Sound) (hkind : u.kind = .web) (text : String) :
    (u.appendPath text).Sound := by
  cases h.form with
  | addressed a segments kind authority sound path =>
    have hpath : ∃ s, u.appendPath text = { u with path := .rooted (Path.parse u.kind s) } := by
      unfold Url.appendPath Url.setPath
      rw [path.path]
      exact ⟨_, rfl⟩
    obtain ⟨s, hs⟩ := hpath
    have hmarked : u.marked = Url.markOf u.authority (Path.parse u.kind s) := by
      rw [path.not_marked authority, authority]
      rfl
    rw [hs]
    exact ⟨h.scheme, ⟨h.tail.query, h.tail.fragment⟩,
      .addressed a _ kind authority sound ⟨rfl, hmarked, Path.sound_parse u.kind s⟩⟩
  | file _ _ kind => exact absurd (hkind.symm.trans kind) (by decide)
  | bare _ _ kind => exact absurd (hkind.symm.trans kind) (by decide)
  | rootless _ kind => exact absurd (hkind.symm.trans kind) (by decide)

/-- An encoded name or value can stand in a query. -/
theorem Form.not_inQuery_of_mem_encode {text : String} {c : Char} (h : c ∈ Form.encode text) :
    Percent.inQuery true c = false := by
  simpa using Form.forall_mem_encode (p := fun c => !Percent.inQuery true c) (by decide +kernel)
    text c h

theorem Form.not_inQuery_extend {form : List Char}
    (h : ∀ c ∈ form, Percent.inQuery true c = false) (added : List (String × String)) :
    ∀ c ∈ Form.extend form added, Percent.inQuery true c = false := by
  induction added generalizing form with
  | nil => exact h
  | cons field added ih =>
    refine ih (List.forall_mem_append.2 ⟨List.forall_mem_append.2 ⟨h, ?_⟩, ?_⟩)
    · split
      · exact List.forall_mem_nil _
      · exact List.forall_mem_singleton.2 (by decide)
    · exact List.forall_mem_append.2 ⟨fun c => Form.not_inQuery_of_mem_encode,
        List.forall_mem_cons.2 ⟨by decide, fun c => Form.not_inQuery_of_mem_encode⟩⟩

/-- A URL of the web stays sound when any fields are added to its query. -/
theorem Url.Sound.addQuery (h : u.Sound) (hkind : u.kind = .web) (added : List (String × String)) :
    (u.addQuery added).Sound := by
  have hspecial : u.kind.isSpecial = true := by rw [hkind]; rfl
  have hform : ∀ c ∈ (u.query.getD "").toList, Percent.inQuery true c = false := by
    cases hquery : u.query with
    | none => exact fun c hc => absurd hc (by simp)
    | some q => exact hspecial ▸ h.tail.query q hquery
  have htail : (u.addQuery added).SoundTail := by
    refine ⟨fun q hq c hc => ?_, h.tail.fragment⟩
    obtain rfl := Option.some.inj hq
    rw [String.toList_ofList] at hc
    show Percent.inQuery u.kind.isSpecial c = false
    rw [hspecial]
    exact Form.not_inQuery_extend hform added c hc
  cases h.form with
  | addressed a segments kind authority sound path =>
    exact ⟨h.scheme, htail,
      .addressed a segments kind authority sound ⟨path.path, path.marked, path.sound⟩⟩
  | file _ _ kind => exact absurd (hkind.symm.trans kind) (by decide)
  | bare _ _ kind => exact absurd (hkind.symm.trans kind) (by decide)
  | rootless _ kind => exact absurd (hkind.symm.trans kind) (by decide)

end Sound

/-! ## Fields of a query -/

/-- The fields that the query of a URL holds. -/
def Url.fields (u : Url) : List (String × String) := Form.fields (u.query.getD "").toList

theorem Url.fields_addQuery (u : Url) (added : List (String × String)) :
    (u.addQuery added).fields = u.fields ++ added := by
  show Form.fields (String.ofList (Form.extend (u.query.getD "").toList added)).toList = _
  rw [String.toList_ofList]
  exact Form.fields_extend _ added

/-! ## Steps that extend a URL -/

/-- A step that appends some text to the path of a URL, as it is or as a template with values for
the names in it, or adds fields to its query. -/
inductive PrepareStep.ExtendsUrl : PrepareStep → Prop
  | path (text : String) : ExtendsUrl (.path text)
  | pathParameters (template : String) (parameters : List (String × String)) :
      ExtendsUrl (.pathParameters template parameters)
  | escapedPathParameters (template : String) (parameters : List (String × String)) :
      ExtendsUrl (.escapedPathParameters template parameters)
  | query (fields : List (String × String)) : ExtendsUrl (.query fields)

/-- Whether a step appends to a path. -/
def PrepareStep.reachesPath : PrepareStep → Bool
  | .path _ => true
  | _ => false

/-- Whether a step adds to a query. -/
def PrepareStep.reachesQuery : PrepareStep → Bool
  | .query _ => true
  | _ => false

/-- The fields that a step adds to a query. -/
def PrepareStep.added : PrepareStep → List (String × String)
  | .query fields => fields
  | _ => []

/-- Templates with values are texts in the end, so there are two kinds of steps. -/
theorem PrepareStep.ExtendsUrl.cases {step : PrepareStep} (h : step.ExtendsUrl) :
    (∃ text, step = .path text) ∨ ∃ fields, step = .query fields := by
  cases h with
  | path text => exact .inl ⟨text, rfl⟩
  | pathParameters template parameters => exact .inl ⟨_, rfl⟩
  | escapedPathParameters template parameters => exact .inl ⟨_, rfl⟩
  | query fields => exact .inr ⟨fields, rfl⟩

theorem PrepareStep.ExtendsUrl.makes {step : PrepareStep} (h : step.ExtendsUrl) {r : Request}
    {u : Url} (hurl : r.url = some u) :
    step.makes r = .ok { r with url := some (step.onUrl u) } := by
  rcases h.cases with ⟨text, rfl⟩ | ⟨fields, rfl⟩
  all_goals
    rw [PrepareStep.makes_eq_act (by simp)]
    dsimp only [PrepareStep.act]
    rw [hurl]
    rfl

section Steps

variable {steps : List PrepareStep}

/-- Steps that extend a URL succeed, and change nothing but the URL. -/
theorem prepared_of_extendsUrl (h : ∀ step ∈ steps, step.ExtendsUrl) {r : Request} {u : Url}
    (hurl : r.url = some u) :
    prepared steps r = .ok { r with url := some (onUrl steps u) } := by
  induction steps generalizing r u with
  | nil =>
    rw [prepared_nil, onUrl, List.foldl_nil, ← hurl]
  | cons step steps ih =>
    obtain ⟨hstep, hsteps⟩ := List.forall_mem_cons.1 h
    rw [prepared_cons, hstep.makes hurl]
    exact ih hsteps rfl

theorem onUrl_sound (h : ∀ step ∈ steps, step.ExtendsUrl) {u : Url} (hu : u.Sound)
    (hkind : u.kind = .web) : (onUrl steps u).Sound := by
  induction steps generalizing u with
  | nil => exact hu
  | cons step steps ih =>
    obtain ⟨hstep, hsteps⟩ := List.forall_mem_cons.1 h
    rcases hstep.cases with ⟨text, rfl⟩ | ⟨fields, rfl⟩
    · refine ih hsteps (hu.appendPath hkind text) ?_
      show (u.appendPath text).kind = .web
      rwa [Url.appendPath_eq]
    · exact ih hsteps (hu.addQuery hkind fields) hkind

theorem onUrl_fields (h : ∀ step ∈ steps, step.ExtendsUrl) (u : Url) :
    (onUrl steps u).fields = u.fields ++ steps.flatMap PrepareStep.added := by
  induction steps generalizing u with
  | nil => exact (List.append_nil _).symm
  | cons step steps ih =>
    obtain ⟨hstep, hsteps⟩ := List.forall_mem_cons.1 h
    refine (ih hsteps (step.onUrl u)).trans ?_
    rw [List.flatMap_cons, ← List.append_assoc]
    congr 1
    rcases hstep.cases with ⟨text, rfl⟩ | ⟨fields, rfl⟩
    · show (u.appendPath text).fields = u.fields ++ []
      rw [Url.appendPath_eq, List.append_nil]
      rfl
    · exact u.fields_addQuery fields

/-- What steps make of a URL is its scheme, its authority and its fragment, the path that those of
them make which append to it, and the query that those make which add to it. -/
theorem onUrl_apart (h : ∀ step ∈ steps, step.ExtendsUrl) (u : Url) :
    ∃ path query, onUrl steps u = { u with path, query } ∧
      onUrl (steps.filter PrepareStep.reachesPath) u = { u with path } ∧
      onUrl (steps.filter PrepareStep.reachesQuery) u = { u with query } := by
  -- The last step acts on what the others have made in each of the three lists.
  induction steps using List.reverseRecOn with
  | nil => exact ⟨u.path, u.query, rfl, rfl, rfl⟩
  | append_singleton steps step ih =>
    obtain ⟨hsteps, hstep⟩ := List.forall_mem_append.1 h
    obtain ⟨path, query, hall, hpaths, hqueries⟩ := ih hsteps
    unfold onUrl at hall hpaths hqueries ⊢
    rw [List.filter_append, List.filter_append, List.foldl_append, List.foldl_append,
      List.foldl_append, hall, hpaths, hqueries]
    rcases (List.forall_mem_singleton.1 hstep).cases with ⟨text, rfl⟩ | ⟨fields, rfl⟩
    · refine ⟨(Url.appendPath { u with path } text).path, query, ?_, ?_, rfl⟩
      · have hsame : (Url.appendPath { u with path, query } text).path =
            (Url.appendPath { u with path } text).path :=
          Url.appendPath_path { u with path, query } { u with path } rfl rfl text
        refine (Url.appendPath_eq { u with path, query } text).trans ?_
        rw [hsame]
      · exact Url.appendPath_eq { u with path } text
    · exact ⟨path, (Url.addQuery { u with query } fields).query, rfl, rfl, rfl⟩

end Steps

/-- **Steps stay in their part of the URL.** Whatever texts and fields they hold, steps that extend a
URL of the web succeed. Its scheme, its user, its host, its port and its fragment stay what they
were. The path is the one that the steps which append to it make alone, without reaching the query;
the query is the one that the steps which add to it make alone, without reaching the path, and it
holds the fields that it held before and then all that were added. The text of the URL is read as
this URL, so nothing is taken for another part when it is sent. -/
theorem url_steps_stay_apart {text : String} {base : Url} (hbase : Url.parse text = .ok base)
    (hweb : base.scheme = "http" ∨ base.scheme = "https") {steps : List PrepareStep}
    (hsteps : ∀ step ∈ steps, step.ExtendsUrl) {r : Request} (hurl : r.url = some base) :
    ∃ (path : Url.Path) (query : Option String),
      prepared steps r = .ok { r with url := some { base with path, query } } ∧
      prepared (steps.filter PrepareStep.reachesPath) r =
        .ok { r with url := some { base with path } } ∧
      prepared (steps.filter PrepareStep.reachesQuery) r =
        .ok { r with url := some { base with query } } ∧
      Url.fields { base with path, query } =
        base.fields ++ steps.flatMap PrepareStep.added ∧
      Url.parse (Url.text { base with path, query }) = .ok { base with path, query } := by
  have hfiltered : ∀ p : PrepareStep → Bool, ∀ step ∈ steps.filter p, step.ExtendsUrl :=
    fun p step hstep => hsteps step (List.mem_of_mem_filter hstep)
  have hkind := Url.kind_of_web hweb
  obtain ⟨path, query, hall, hpaths, hqueries⟩ := onUrl_apart hsteps base
  have hsound := onUrl_sound hsteps (Url.parse_sound hbase) hkind
  have hfields := onUrl_fields hsteps base
  rw [hall] at hsound hfields
  refine ⟨path, query, ?_, ?_, ?_, hfields, ?_⟩
  · rw [prepared_of_extendsUrl hsteps hurl, hall]
  · rw [prepared_of_extendsUrl (hfiltered _) hurl, hpaths]
  · rw [prepared_of_extendsUrl (hfiltered _) hurl, hqueries]
  · obtain ⟨v, hread, hsame⟩ := hsound.parse_text
    rw [hread, hsame fun hdrive => absurd (hkind.symm.trans hdrive.1) (by decide)]

/-- Marks of URLs in all texts and fields, and a base that has a field, a user and a fragment. -/
theorem url_steps_stay_apart_marks :
    let base : Url := ⟨"https", some ⟨"u", "p", "h", some 81⟩, .rooted ["a", ""], false,
      some "b", some "f"⟩
    let steps : List PrepareStep := [.path "x?y#z", .query [("k&", "é =#")],
      .pathParameters "//{n}@" [("n", "?q")], .escapedPathParameters "{n}" [("n", "#/")]]
    Url.parse "https://u:p@h:81/a/?b#f" = .ok base ∧
    (base.scheme = "http" ∨ base.scheme = "https") ∧ (∀ step ∈ steps, step.ExtendsUrl) ∧
    (Request.get base).url = some base ∧ ∃ path query,
      prepared steps (Request.get base) = .ok (Request.get { base with path, query }) ∧
      Url.fields { base with path, query } = [("b", ""), ("k&", "é =#")] ∧
      Url.parse (Url.text { base with path, query }) = .ok { base with path, query } := by
  intro base steps
  have hbase : Url.parse "https://u:p@h:81/a/?b#f" = .ok base :=
    eq_ok_of_toOption (by decide +kernel)
  have hsteps : ∀ step ∈ steps, step.ExtendsUrl :=
    List.forall_mem_cons.2 ⟨.path _, List.forall_mem_cons.2 ⟨.query _, List.forall_mem_cons.2
      ⟨.pathParameters _ _, List.forall_mem_singleton.2 (.escapedPathParameters _ _)⟩⟩⟩
  obtain ⟨path, query, hall, -, -, hfields, hread⟩ :=
    url_steps_stay_apart hbase (.inr rfl) hsteps (r := Request.get base) rfl
  have hbefore : base.fields ++ steps.flatMap PrepareStep.added =
      [("b", ""), ("k&", "é =#")] := by decide +kernel
  exact ⟨hbase, .inr rfl, hsteps, rfl, path, query, hall, hfields.trans hbefore, hread⟩

end Courier
