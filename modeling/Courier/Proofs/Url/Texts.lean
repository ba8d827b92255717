import Courier.Proofs.Url.Authorities

set_option autoImplicit false

/-! # The text of a URL

The text of a URL is its parts with the marks between them. Of a text that is read, blanks at the
ends and line breaks do not count; the text of a URL has none in its parts but for a path that is
some text. Its scheme, and its query and its fragment, are read as they are held. -/

namespace Courier

/-! ## Characters that count -/

/-- What counts of a text that follows some other text: blanks at its end do not, nor do tabs and
line breaks. -/
def Url.trail (s : List Char) : List Char :=
  (s.reverse.dropWhile Url.isOuter).reverse.filter fun c => !Url.isIgnored c

theorem Url.isIgnored_of_not_isOuter {c : Char} (h : Url.isOuter c = false) :
    Url.isIgnored c = false := by
  simp only [Url.isIgnored, Bool.or_eq_false_iff, beq_eq_false_iff_ne]
  refine ⟨⟨?_, ?_⟩, ?_⟩ <;> rintro rfl <;> exact absurd h (by decide)

theorem Url.trail_append {front : List Char} (h : ∀ c ∈ front, Url.isOuter c = false)
    (back : List Char) : Url.trail (front ++ back) = front ++ Url.trail back := by
  have hfilter : front.filter (fun c => !Url.isIgnored c) = front :=
    List.filter_eq_self.2 fun c hc => by simp [Url.isIgnored_of_not_isOuter (h c hc)]
  have hdrop : (front ++ back).reverse.dropWhile Url.isOuter =
      back.reverse.dropWhile Url.isOuter ++ front.reverse := by
    rw [List.reverse_append, List.dropWhile_append]
    -- If nothing of `back` counts, the last character of `front` ends what is dropped.
    split
    · next hempty =>
      rw [List.isEmpty_iff.1 hempty, List.nil_append]
      cases hfront : front.reverse with
      | nil => rfl
      | cons c rest =>
        have hc : c ∈ front := List.mem_reverse.1 (hfront ▸ List.mem_cons_self)
        exact List.dropWhile_cons_of_neg (by simp [h c hc])
    · rfl
  rw [Url.trail, hdrop, List.reverse_append, List.reverse_reverse, List.filter_append, hfilter]
  rfl

/-- A text that begins with characters that count keeps them. -/
theorem Url.relevant_append {front : List Char} (hne : front ≠ [])
    (h : ∀ c ∈ front, Url.isOuter c = false) (back : List Char) :
    Url.relevant (String.ofList (front ++ back)) = front ++ Url.trail back := by
  obtain ⟨c, rest, rfl⟩ := List.exists_cons_of_ne_nil hne
  have hdrop : (c :: rest ++ back).dropWhile Url.isOuter = c :: rest ++ back :=
    List.dropWhile_cons_of_neg (by simp [h c List.mem_cons_self])
  rw [← Url.trail_append h, Url.relevant, String.toList_ofList, hdrop]
  rfl

/-- A text in which nothing is passed over and that does not end in blanks counts as it is. -/
theorem Url.trail_eq_self {s : List Char} (hcount : ∀ c ∈ s, Url.isIgnored c = false)
    (hlast : ∀ c, s.getLast? = some c → Url.isOuter c = false) : Url.trail s = s := by
  have hdrop : s.reverse.dropWhile Url.isOuter = s.reverse := by
    cases hs : s.reverse with
    | nil => rfl
    | cons c rest =>
      have hc : s.getLast? = some c := by rw [← List.head?_reverse, hs, List.head?_cons]
      exact List.dropWhile_cons_of_neg (by simp [hlast c hc])
  rw [Url.trail, hdrop, List.reverse_reverse]
  exact List.filter_eq_self.2 fun c hc => by simp [hcount c hc]

theorem Url.getLast?_trail {s : List Char} {c : Char} (h : (Url.trail s).getLast? = some c) :
    Url.isOuter c = false := by
  have hlast : (Url.trail s).getLast? =
      ((s.reverse.dropWhile Url.isOuter).filter fun c => !Url.isIgnored c).head? := by
    rw [Url.trail, List.filter_reverse, List.getLast?_reverse]
  rw [hlast] at h
  have hfirst := List.head?_dropWhile_not Url.isOuter s.reverse
  cases hrest : s.reverse.dropWhile Url.isOuter with
  | nil => exact absurd h (by simp [hrest])
  | cons d rest =>
    rw [hrest] at h hfirst
    have hd : Url.isOuter d = false := by simpa using hfirst
    rw [List.filter_cons_of_pos (by simp [Url.isIgnored_of_not_isOuter hd])] at h
    exact Option.some.inj h ▸ hd

/-! ## Schemes -/

/-- Whether a character can stand in a scheme. -/
def Url.isSchemePart (c : Char) : Bool := c.isAlphanum || c == '+' || c == '-' || c == '.'

theorem Url.splitScheme?_cons (c : Char) (s : List Char) :
    Url.splitScheme? (c :: s) = match c.isAlpha, (c :: s).dropWhile Url.isSchemePart with
      | true, ':' :: rest =>
        some (String.ofList (((c :: s).takeWhile Url.isSchemePart).map Char.toLower), rest)
      | _, _ => none := rfl

/-- A scheme: it begins with a letter and is in lower case. -/
structure Url.IsScheme (scheme : String) : Prop where
  first : ∃ c rest, scheme.toList = c :: rest ∧ c.isAlpha = true
  parts : ∀ c ∈ scheme.toList, Url.isSchemePart c = true
  lower : ∀ c ∈ scheme.toList, c.toLower = c

theorem Url.lt_of_isSchemePart {c : Char} (h : Url.isSchemePart c = true) : c.toNat < 128 := by
  have hpart : (((65 ≤ c.toNat ∧ c.toNat ≤ 90 ∨ 97 ≤ c.toNat ∧ c.toNat ≤ 122) ∨
      48 ≤ c.toNat ∧ c.toNat ≤ 57) ∨ c = '+') ∨ c = '-' ∨ c = '.' := by
    unfold Url.isSchemePart Char.isAlphanum Char.isAlpha Char.isUpper Char.isLower Char.isDigit at h
    simpa [UInt32.le_iff_toNat_le, or_assoc] using h
  rcases hpart with ((hletter | hdigit) | rfl) | rfl | rfl
  · omega
  · omega
  all_goals decide

/-- What holds of all characters of schemes can be tried out. -/
theorem Url.forall_isSchemePart {p : Char → Bool}
    (h : ∀ k : Fin 128, (!Url.isSchemePart (Char.ofNat k.val) || p (Char.ofNat k.val)) = true)
    {c : Char} (hc : Url.isSchemePart c = true) : p c = true := by
  have := forall_ascii (p := fun c => !Url.isSchemePart c || p c) h (Url.lt_of_isSchemePart hc)
  simpa [hc] using this

theorem Url.isScheme_of_splitScheme? {s rest : List Char} {scheme : String}
    (h : Url.splitScheme? s = some (scheme, rest)) : Url.IsScheme scheme := by
  cases s with
  | nil => exact absurd h (by simp [Url.splitScheme?])
  | cons c s =>
    rw [Url.splitScheme?_cons] at h
    split at h
    · next rest halpha _ =>
      simp only [Option.some.injEq, Prod.mk.injEq] at h
      obtain ⟨rfl, -⟩ := h
      have hpart : ∀ d ∈ (c :: s).takeWhile Url.isSchemePart, Url.isSchemePart d = true :=
        fun d hd => List.mem_takeWhile_imp hd
      have hc : Url.isSchemePart c = true := by
        simp [Url.isSchemePart, Char.isAlphanum, halpha]
      refine ⟨⟨c.toLower, (s.takeWhile Url.isSchemePart).map Char.toLower, ?_, ?_⟩, ?_, ?_⟩
      · rw [String.toList_ofList, List.takeWhile_cons_of_pos hc, List.map_cons]
      · have := Url.forall_isSchemePart (p := fun c => !c.isAlpha || c.toLower.isAlpha)
          (by decide) hc
        rwa [halpha, Bool.not_true, Bool.false_or] at this
      all_goals
        intro d hd
        rw [String.toList_ofList] at hd
        obtain ⟨e, he, rfl⟩ := List.mem_map.1 hd
      · exact Url.forall_isSchemePart (p := fun c => Url.isSchemePart c.toLower) (by decide)
          (hpart e he)
      · exact toLower_toLower e
    · exact absurd h (by simp)

theorem Url.IsScheme.splitScheme? {scheme : String} (h : Url.IsScheme scheme) (rest : List Char) :
    Url.splitScheme? (scheme.toList ++ ':' :: rest) = some (scheme, rest) := by
  have hcolon : ¬ Url.isSchemePart ':' = true := by decide
  have htake : (scheme.toList ++ ':' :: rest).takeWhile Url.isSchemePart = scheme.toList := by
    rw [List.takeWhile_append_of_pos h.parts, List.takeWhile_cons_of_neg hcolon, List.append_nil]
  have hdrop : (scheme.toList ++ ':' :: rest).dropWhile Url.isSchemePart = ':' :: rest := by
    rw [List.dropWhile_append_of_pos h.parts, List.dropWhile_cons_of_neg hcolon]
  have hlower : scheme.toList.map Char.toLower = scheme.toList :=
    (List.map_congr_left h.lower).trans (List.map_id _)
  have hself : String.ofList scheme.toList = scheme := String.ofList_toList
  obtain ⟨c, tail, hfirst, halpha⟩ := h.first
  rw [hfirst] at htake hdrop hlower hself ⊢
  rw [List.cons_append, Url.splitScheme?_cons, ← List.cons_append, halpha, hdrop, htake, hlower,
    hself]
  rfl

/-- What follows the colon of a scheme ends as the text does. -/
theorem Url.getLast?_of_splitScheme? {s rest : List Char} {scheme : String} {c : Char}
    (h : Url.splitScheme? s = some (scheme, rest)) (hlast : rest.getLast? = some c) :
    s.getLast? = some c := by
  cases s with
  | nil => exact absurd h (by simp [Url.splitScheme?])
  | cons d s =>
    rw [Url.splitScheme?_cons] at h
    split at h
    · next rest' _ hdrop =>
      obtain ⟨-, rfl⟩ := Prod.mk.inj (Option.some.inj h)
      obtain ⟨front, hfront⟩ := List.dropWhile_suffix Url.isSchemePart (l := d :: s)
      rw [← hfront, hdrop, List.getLast?_append, List.getLast?_cons, hlast]
      rfl
    · exact absurd h (by simp)

/-! ## The text of a URL -/

/-- The query and the fragment of a URL, as its text has them. -/
def Url.tailText (u : Url) : String :=
  (match u.query with
    | some q => "?" ++ q
    | none => "") ++
  match u.fragment with
  | some f => "#" ++ f
  | none => ""

/-- The path, the query and the fragment of a URL, as its text has them. -/
def Url.restText (u : Url) : String :=
  (if u.marked then "/." else "") ++ u.path.text ++ u.tailText

/-- The authority of a URL, as its text has it. -/
def Url.authorityText (u : Url) : String :=
  match u.authority with
  | some a => "//" ++ a.text
  | none => ""

theorem Url.text_eq (u : Url) :
    u.text = u.scheme ++ ":" ++ u.authorityText ++ u.restText := by
  unfold Url.restText Url.tailText
  simp only [← String.append_assoc]
  rfl

theorem Url.text_of_authority {u : Url} {a : Url.Authority} (h : u.authority = some a) :
    u.text = String.ofList
      (u.scheme.toList ++ ':' :: '/' :: '/' :: a.text.toList ++ u.restText.toList) := by
  have hauthority : u.authorityText = "//" ++ a.text := by simp only [Url.authorityText, h]
  rw [Url.text_eq, hauthority, ← String.toList_inj]
  simp

theorem Url.text_of_not_authority {u : Url} (h : u.authority = none) :
    u.text = String.ofList (u.scheme.toList ++ [':'] ++ u.restText.toList) := by
  have hauthority : u.authorityText = "" := by simp only [Url.authorityText, h]
  rw [Url.text_eq, hauthority, ← String.toList_inj]
  simp

theorem Url.head_tailText {u : Url} {c : Char} {rest : List Char}
    (h : u.tailText.toList = c :: rest) : c = '?' ∨ c = '#' := by
  have hhead := congrArg List.head? h
  unfold Url.tailText at hhead
  cases hquery : u.query with
  | some q =>
    have hc : '?' = c := by simpa [hquery] using hhead
    exact .inl hc.symm
  | none =>
    cases hfragment : u.fragment with
    | some f =>
      have hc : '#' = c := by simpa [hquery, hfragment] using hhead
      exact .inr hc.symm
    | none => exact absurd hhead (by simp [hquery, hfragment])

/-! ## The query and the fragment -/

/-- What is known of the query and the fragment of a URL that has been read. -/
structure Url.SoundTail (u : Url) : Prop where
  query : ∀ q, u.query = some q → ∀ c ∈ q.toList, Percent.inQuery u.kind.isSpecial c = false
  fragment : ∀ f, u.fragment = some f → ∀ c ∈ f.toList, Percent.inFragment c = false

theorem Percent.not_inQuery_encode (special : Bool) {s : List Char} :
    ∀ c ∈ Percent.encode (Percent.inQuery special) s, Percent.inQuery special c = false := by
  cases special
  all_goals exact fun c => Percent.not_set_of_mem_encode (by decide) (by decide)

theorem Percent.not_inFragment_encode {s : List Char} :
    ∀ c ∈ Percent.encode Percent.inFragment s, Percent.inFragment c = false :=
  fun c => Percent.not_set_of_mem_encode (by decide) (by decide)

theorem Url.parseTail_sound (special : Bool) (s : List Char) :
    (∀ q, (Url.parseTail special s).1 = some q →
      ∀ c ∈ q.toList, Percent.inQuery special c = false) ∧
    ∀ f, (Url.parseTail special s).2 = some f → ∀ c ∈ f.toList, Percent.inFragment c = false := by
  unfold Url.parseTail
  dsimp only
  split
  · split
    · refine ⟨fun q hq => ?_, fun f hf => ?_⟩
      · rw [← Option.some.inj hq, String.toList_ofList]
        exact Percent.not_inQuery_encode special
      · rw [← Option.some.inj hf, String.toList_ofList]
        exact Percent.not_inFragment_encode
    · refine ⟨fun q hq => ?_, fun f hf => absurd hf (by simp)⟩
      rw [← Option.some.inj hq, String.toList_ofList]
      exact Percent.not_inQuery_encode special
  · refine ⟨fun q hq => absurd hq (by simp), fun f hf => ?_⟩
    rw [← Option.some.inj hf, String.toList_ofList]
    exact Percent.not_inFragment_encode
  · exact ⟨fun q hq => absurd hq (by simp), fun f hf => absurd hf (by simp)⟩

theorem Url.parseTail_fragment (special : Bool) {f : List Char}
    (h : ∀ c ∈ f, Percent.inFragment c = false) :
    Url.parseTail special ('#' :: f) = (none, some (String.ofList f)) := by
  simp only [Url.parseTail, Percent.encode_of_forall h]

/-- A query is told apart from the fragment that follows it. -/
theorem Url.parseTail_query {special : Bool} {q rest : List Char}
    (h : ∀ c ∈ q, Percent.inQuery special c = false) (hrest : rest = [] ∨ ∃ f, rest = '#' :: f) :
    Url.parseTail special ('?' :: (q ++ rest)) =
      (some (String.ofList q), (Url.parseTail special rest).2) := by
  have hmark : ∀ c ∈ q, decide (c ≠ '#') = true := by
    intro c hc
    rw [decide_eq_true_eq]
    rintro rfl
    have hheld := h '#' hc
    cases special <;> exact absurd hheld (by decide)
  have htake : (q ++ rest).takeWhile (fun c => decide (c ≠ '#')) = q := by
    rw [List.takeWhile_append_of_pos hmark]
    rcases hrest with rfl | ⟨f, rfl⟩ <;> simp
  have hdrop : (q ++ rest).dropWhile (fun c => decide (c ≠ '#')) = rest := by
    rw [List.dropWhile_append_of_pos hmark]
    rcases hrest with rfl | ⟨f, rfl⟩ <;> simp
  rcases hrest with rfl | ⟨f, rfl⟩
  all_goals simp only [Url.parseTail, htake, hdrop, Percent.encode_of_forall h]

theorem Url.parseTail_tailText {u : Url} (h : u.SoundTail) :
    Url.parseTail u.kind.isSpecial u.tailText.toList = (u.query, u.fragment) := by
  unfold Url.tailText
  cases hq : u.query with
  | none =>
    cases hf : u.fragment with
    | none => rfl
    | some f =>
      have htext : ("" ++ ("#" ++ f)).toList = '#' :: f.toList := by simp
      dsimp only
      rw [htext, Url.parseTail_fragment _ (h.fragment f hf), String.ofList_toList]
  | some q =>
    cases hf : u.fragment with
    | none =>
      have htext : ("?" ++ q ++ "").toList = '?' :: (q.toList ++ []) := by simp
      dsimp only
      rw [htext, Url.parseTail_query (h.query q hq) (.inl rfl), String.ofList_toList]
      rfl
    | some f =>
      have htext : ("?" ++ q ++ ("#" ++ f)).toList = '?' :: (q.toList ++ '#' :: f.toList) := by
        simp
      dsimp only
      rw [htext, Url.parseTail_query (h.query q hq) (.inr ⟨_, rfl⟩),
        Url.parseTail_fragment _ (h.fragment f hf), String.ofList_toList, String.ofList_toList]

/-! ### Characters of the parts -/

theorem Url.not_isOuter_of_inPath {c : Char} (h : Percent.inPath c = false) :
    Url.isOuter c = false ∧ Url.endsPath c = false := by
  have hall := Percent.forall_not_isControl
    (p := fun c => Percent.inPath c || !Url.isOuter c && !Url.endsPath c) (by decide)
    (Percent.not_isControl_of_inPath h)
  simpa [h] using hall

theorem Url.not_isOuter_of_inQuery {special : Bool} {c : Char}
    (h : Percent.inQuery special c = false) : Url.isOuter c = false := by
  have hblank : Percent.isControl c = false ∧ c ≠ ' ' := by
    simp only [Percent.inQuery, Bool.or_eq_false_iff, beq_eq_false_iff_ne] at h
    exact h.1.1.1.1.1
  have hall := Percent.forall_not_isControl (p := fun c => c == ' ' || !Url.isOuter c) (by decide)
    hblank.1
  simpa [hblank.2] using hall

theorem Url.not_isOuter_of_inFragment {c : Char} (h : Percent.inFragment c = false) :
    Url.isOuter c = false := by
  have hcontrol : Percent.isControl c = false := by
    simp only [Percent.inFragment, Bool.or_eq_false_iff] at h
    exact h.1.1.1.1.1
  have hall := Percent.forall_not_isControl (p := fun c => Percent.inFragment c || !Url.isOuter c)
    (by decide) hcontrol
  simpa [h] using hall

theorem Url.not_isIgnored_of_not_isControl {c : Char} (h : Percent.isControl c = false) :
    Url.isIgnored c = false := by
  simpa using Percent.forall_not_isControl (p := fun c => !Url.isIgnored c) (by decide) h

theorem Url.SoundTail.not_isOuter {u : Url} (h : u.SoundTail) :
    ∀ c ∈ u.tailText.toList, Url.isOuter c = false := by
  unfold Url.tailText
  intro c hc
  rw [String.toList_append, List.mem_append] at hc
  rcases hc with hc | hc
  · split at hc
    · next q hq =>
      rw [String.toList_append, List.mem_append] at hc
      rcases hc with hc | hc
      · obtain rfl : c = '?' := by simpa using hc
        decide
      · exact Url.not_isOuter_of_inQuery (h.query q hq c hc)
    · exact absurd hc (by simp)
  · split at hc
    · next f hf =>
      rw [String.toList_append, List.mem_append] at hc
      rcases hc with hc | hc
      · obtain rfl : c = '#' := by simpa using hc
        decide
      · exact Url.not_isOuter_of_inFragment (h.fragment f hf c hc)
    · exact absurd hc (by simp)

end Courier
