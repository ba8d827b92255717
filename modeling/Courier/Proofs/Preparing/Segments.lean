import Courier.Proofs.Preparing.Parameters
import Courier.Proofs.Preparing.Steps
import Courier.Proofs.Url.Reading
import Mathlib.Data.List.DropRight
import Mathlib.Data.List.Sections

set_option autoImplicit false

/-! # Segments that are appended to a path

What is appended to a path is read together with it, and segments of dots are followed while it is
read. The encoding of a value as in a form holds nothing that would end a segment or be encoded once
more, so it is a segment of its own, and it is left as it is unless it consists of dots. Dots are
not encoded: so the values of one dot and of two are the only ones that do not arrive, and the
second takes a segment of the template away. -/

namespace Courier

/-! ## Segments of dots -/

/-- The texts that become a given one in lower case, and perhaps some more. -/
def Path.spellings (t : String) : List (List Char) :=
  (t.toList.map fun c => [c, c.toUpper]).sections

theorem eq_toLower_or (c : Char) : c = c.toLower ∨ c = c.toLower.toUpper := by
  by_cases hc : c.toNat < 128
  · have hall := forall_ascii (p := fun c => c == c.toLower || c == c.toLower.toUpper)
      (by decide) hc
    simpa using hall
  · exact .inl (toLower_of_not_lt hc).symm

theorem Path.mem_spellings (s : List Char) :
    s ∈ Path.spellings (String.ofList (s.map Char.toLower)) := by
  rw [Path.spellings, String.toList_ofList, List.mem_sections]
  induction s with
  | nil => exact .nil
  | cons c s ih => exact .cons (by simpa using eq_toLower_or c) ih

/-- What holds of all spellings of one dot can be tried out. -/
theorem Path.forall_isDot {p : List Char → Bool}
    (h : ∀ t ∈ [".", "%2e"], ∀ s ∈ Path.spellings t, p s = true) {s : List Char}
    (hs : Path.isDot s = true) : p s = true :=
  h _ (of_decide_eq_true hs) s (Path.mem_spellings s)

/-- What holds of all spellings of two dots can be tried out. -/
theorem Path.forall_isDotDot {p : List Char → Bool}
    (h : ∀ t ∈ ["..", "%2e%2e", "%2e.", ".%2e"], ∀ s ∈ Path.spellings t, p s = true)
    {s : List Char} (hs : Path.isDotDot s = true) : p s = true :=
  h _ (of_decide_eq_true hs) s (Path.mem_spellings s)

/-- A segment is followed for its dots only if it holds a dot or a percent sign. -/
theorem Path.counts_of_forall {s : List Char} (h : ∀ c ∈ s, c ≠ '.' ∧ c ≠ '%') :
    Path.Counts s := by
  have hnone : s.any (fun c => c == '.' || c == '%') = false := by simpa using h
  constructor
  · by_contra hdots
    rw [Bool.not_eq_false] at hdots
    have := Path.forall_isDotDot (p := fun s => s.any fun c => c == '.' || c == '%')
      (by decide +kernel) hdots
    simp [hnone] at this
  · by_contra hdot
    rw [Bool.not_eq_false] at hdot
    have := Path.forall_isDot (p := fun s => s.any fun c => c == '.' || c == '%')
      (by decide +kernel) hdot
    simp [hnone] at this

/-- An encoded value is followed for its dots only if it is one dot or two. -/
theorem Form.counts_encode_iff (value : String) :
    Path.Counts (Form.encode value) ↔ value ≠ "." ∧ value ≠ ".." := by
  constructor
  · rintro ⟨hdots, hdot⟩
    constructor
    · rintro rfl
      exact absurd hdot (by decide)
    · rintro rfl
      exact absurd hdots (by decide)
  · rintro ⟨hdot, hdots⟩
    constructor
    · refine Bool.eq_false_iff.2 fun h => hdots ?_
      have hread := Path.forall_isDotDot (p := fun s => Form.decode s == "..") (by decide +kernel) h
      rwa [Form.decode_encode, beq_iff_eq] at hread
    · refine Bool.eq_false_iff.2 fun h => hdot ?_
      have hread := Path.forall_isDot (p := fun s => Form.decode s == ".") (by decide +kernel) h
      rwa [Form.decode_encode, beq_iff_eq] at hread

/-! ## Following segments -/

section Walk

variable {done : List String} {segs rest : List (List Char)} {seg : List Char}

theorem Path.walk_append (h : ∀ seg ∈ segs, Path.Counts seg) (hrest : rest ≠ []) :
    Path.walk done (segs ++ rest) = Path.walk (done ++ segs.map String.ofList) rest := by
  induction segs generalizing done with
  | nil => simp
  | cons seg segs ih =>
    obtain ⟨⟨hdots, hdot⟩, hsegs⟩ := List.forall_mem_cons.1 h
    have hmore : segs ++ rest ≠ [] := by simp [hrest]
    rw [List.cons_append, Path.walk.eq_3 _ _ _ hmore, if_neg (by simp [hdots]),
      if_neg (by simp [hdot]), ih hsegs]
    simp

theorem Path.length_back_le (done : List String) : (Path.back done).length ≤ done.length := by
  unfold Path.back
  split
  · split
    · exact le_rfl
    · simp
  · exact Nat.zero_le _

/-- A segment that is followed for its dots leaves no segment behind, or an empty one if it is the
last. -/
theorem Path.walk_of_not_counts (done : List String) (h : ¬Path.Counts seg)
    (hrest : ∀ seg ∈ rest, Path.Counts seg) :
    ∃ left : List String, left.length ≤ done.length ∧ Path.walk done (seg :: rest) =
      left ++ if rest = [] then [""] else rest.map String.ofList := by
  by_cases hdots : Path.isDotDot seg = true
  · refine ⟨Path.back done, Path.length_back_le done, ?_⟩
    by_cases hlast : rest = []
    · rw [hlast, Path.walk, if_pos hdots, if_pos rfl]
    · rw [Path.walk.eq_3 _ _ _ hlast, if_pos hdots, if_neg hlast, Path.walk_of_forall _ hrest]
  · have hdot : Path.isDot seg = true := by
      by_contra hdot
      exact h ⟨Bool.eq_false_iff.2 hdots, Bool.eq_false_iff.2 hdot⟩
    refine ⟨done, le_rfl, ?_⟩
    by_cases hlast : rest = []
    · rw [hlast, Path.walk, if_neg hdots, if_pos hdot, if_pos rfl]
    · rw [Path.walk.eq_3 _ _ _ hlast, if_neg hdots, if_pos hdot, if_neg hlast,
        Path.walk_of_forall _ hrest]

end Walk

/-- **A value among segments.** An encoded value is a segment of its own in the path that is read,
unless it is one dot or two. -/
theorem Path.walk_value_iff {done back : List String} {value : String}
    (hdone : ∀ segment ∈ done, Path.Counts segment.toList)
    (hback : ∀ segment ∈ back, Path.Counts segment.toList) :
    (∃ piece : String, Path.walk [] ((done ++ String.ofList (Form.encode value) :: back).map
        String.toList) = done ++ piece :: back ∧ Form.decode piece.toList = value) ↔
      value ≠ "." ∧ value ≠ ".." := by
  have hback' : ∀ seg ∈ back.map String.toList, Path.Counts seg := List.forall_mem_map.2 hback
  rw [← Form.counts_encode_iff, List.map_append, List.map_cons, String.toList_ofList,
    Path.walk_append (List.forall_mem_map.2 hdone) (List.cons_ne_nil _ _), map_ofList_toList, List.nil_append]
  constructor
  · rintro ⟨piece, hwalk, hread⟩
    by_contra hdots
    obtain ⟨left, hleft, hrest⟩ := Path.walk_of_not_counts done hdots hback'
    rw [hrest] at hwalk
    by_cases hlast : back = []
    · -- The empty segment that dots leave in the end is not the value.
      subst hlast
      obtain ⟨-, hpiece⟩ := List.append_inj' hwalk rfl
      obtain rfl : "" = piece := (List.cons.inj hpiece).1
      subst hread
      exact hdots (by constructor <;> decide)
    · -- Otherwise there is a segment too few.
      rw [if_neg (by simpa using hlast), map_ofList_toList] at hwalk
      have hlength := congrArg List.length hwalk
      simp only [List.length_append, List.length_cons] at hlength
      omega
  · intro hcounts
    have hall := List.forall_mem_cons.2 ⟨hcounts, hback'⟩
    refine ⟨String.ofList (Form.encode value), ?_, ?_⟩
    · rw [Path.walk_of_forall _ hall, List.map_cons, map_ofList_toList]
    · rw [String.toList_ofList, Form.decode_encode]

/-! ## Appending segments -/

/-- Segments without the empty ones in the end. -/
def Path.kept (segments : List String) : List String := segments.rdropWhile (·.isEmpty)

theorem Path.slashed_append (segments more : List String) :
    Path.slashed (segments ++ more) = Path.slashed segments ++ Path.slashed more :=
  List.flatMap_append

theorem Path.slashed_cons (first : String) (rest : List String) :
    Path.slashed (first :: rest) = '/' :: (first.toList ++ Path.slashed rest) := rfl

theorem Path.toList_intercalate (first : String) (rest : List String) :
    ("/".intercalate (first :: rest)).toList = first.toList ++ Path.slashed rest := by
  rw [String.toList_intercalate, List.map_cons]
  induction rest generalizing first with
  | nil => simp [Path.slashed]
  | cons second rest ih =>
    rw [List.map_cons, List.intercalate_cons_cons, ih, Path.slashed_cons]
    simp

/-- Slashes at the end of a path are those of its empty segments at the end. -/
theorem Path.trimSlashes_slashed {segments : List String}
    (h : ∀ segment ∈ segments, '/' ∉ segment.toList) :
    Url.trimSlashes (Path.slashed segments) = Path.slashed (Path.kept segments) := by
  show (Path.slashed segments).rdropWhile (· == '/') = Path.slashed (segments.rdropWhile _)
  induction segments using List.reverseRecOn with
  | nil => rfl
  | append_singleton segments last ih =>
    obtain ⟨hbefore, hlast⟩ := List.forall_mem_append.1 h
    rw [List.forall_mem_singleton] at hlast
    rw [Path.slashed_append]
    by_cases hempty : last = ""
    · subst hempty
      rw [List.rdropWhile_concat_pos _ _ _ rfl, ← ih hbefore]
      exact List.rdropWhile_concat_pos _ _ _ rfl
    · obtain ⟨front, c, hchars⟩ := (List.eq_nil_or_concat last.toList).resolve_left
        (by simpa using hempty)
      have hc : c ≠ '/' := fun hc => hlast (by simp [hchars, hc])
      have htext : Path.slashed [last] = '/' :: front ++ [c] := by
        simp [Path.slashed, hchars]
      rw [List.rdropWhile_concat_neg _ _ _ (by simpa using hempty), Path.slashed_append, htext,
        ← List.append_assoc]
      exact List.rdropWhile_concat_neg _ _ _ (by simpa using hc)

section Append

variable {u : Url} {segments placed : List String}

theorem Url.setPath_slashed (hpath : u.path = .rooted segments) (hkind : u.kind ≠ .file)
    (hne : placed ≠ [])
    (hheld : ∀ segment ∈ placed, ∀ c ∈ segment.toList, Path.isHeld u.kind c = true) :
    u.setPath (Path.slashed placed) =
      { u with path := .rooted (Path.walk [] (placed.map String.toList)) } := by
  have hall : (Path.slashed placed).filter (fun c => !Url.isIgnored c) = Path.slashed placed := by
    refine List.filter_eq_self.2 fun c hc => ?_
    obtain ⟨segment, hsegment, hc⟩ := List.mem_flatMap.1 hc
    rcases List.mem_cons.1 hc with rfl | hc
    · rfl
    · have houter := (Url.not_isOuter_of_inPath
        (Path.not_inPath_of_isHeld (hheld segment hsegment c hc)).1).1
      rw [Url.isIgnored_of_not_isOuter houter, Bool.not_false]
  obtain ⟨first, rest, rfl⟩ := List.exists_cons_of_ne_nil hne
  have hparse : Path.parse u.kind (Path.slashed (first :: rest)) =
      Path.walk [] ((first :: rest).map String.toList) := by
    rw [Path.parse_slashed_cons, Path.follow_of_ne_file hkind, Path.encoded_slashed hheld]
  unfold Url.setPath
  simp only [hpath, hall, hparse]

/-- A text of segments is appended after the segments that are kept. -/
theorem Url.appendPath_slashed (hpath : u.path = .rooted segments)
    (hsegments : ∀ segment ∈ segments, '/' ∉ segment.toList) {text : String} {first : String}
    {rest : List String}
    (htext : text.toList.dropWhile (· == '/') = first.toList ++ Path.slashed rest) :
    u.appendPath text = u.setPath (Path.slashed (Path.kept segments ++ first :: rest)) := by
  rw [Url.appendPath, hpath, Path.toList_text, Path.trimSlashes_slashed hsegments, htext,
    Path.slashed_append, Path.slashed_cons]

end Append

/-! ## Templates of words -/

/-- Whether a segment consists of letters, digits and hyphens. -/
def Path.IsWord (segment : String) : Prop :=
  segment ≠ "" ∧ ∀ c ∈ segment.toList, c.isAlphanum = true ∨ c = '-'

instance (segment : String) : Decidable (Path.IsWord segment) :=
  decidable_of_iff (segment ≠ "" ∧ segment.toList.all fun c => c.isAlphanum || c == '-')
    (by simp [Path.IsWord])

/-- A template of segments, after some slashes, in which a placeholder stands alone as one. -/
def Template.between (slashes : Nat) (front : List String) (name : String) (back : List String) :
    String :=
  String.ofList (List.replicate slashes '/') ++
    "/".intercalate (front ++ String.ofList (placeholder name) :: back)

section Words

variable {segment first name value : String} {rest back : List String} {kind : Url.Kind}

theorem Path.IsWord.chars (h : Path.IsWord segment) : ∀ c ∈ segment.toList,
    Path.isHeld .web c = true ∧ c ≠ '\x7b' ∧ c ≠ '.' ∧ c ≠ '%' := by
  intro c hc
  have hword : (c.isAlphanum || c == '-') = true := by simpa using h.2 c hc
  have hpart : Url.isSchemePart c = true := by
    rw [Bool.or_eq_true] at hword
    rcases hword with halphanum | hhyphen
    · simp [Url.isSchemePart, halphanum]
    · simp [Url.isSchemePart, beq_iff_eq.1 hhyphen]
  have hall := forall_ascii (p := fun c => !(c.isAlphanum || c == '-') ||
    Path.isHeld .web c && c != '\x7b' && c != '.' && c != '%') (by decide)
    (Url.lt_of_isSchemePart hpart)
  simpa only [hword, Bool.not_true, Bool.false_or, Bool.and_eq_true, bne_iff_ne, and_assoc]
    using hall

theorem Path.IsWord.counts (h : Path.IsWord segment) : Path.Counts segment.toList :=
  Path.counts_of_forall fun c hc => (h.chars c hc).2.2

theorem Path.not_slash_of_isHeld {c : Char} (h : Path.isHeld kind c = true) : c ≠ '/' := by
  rintro rfl
  have := (Path.not_inPath_of_isHeld h).2
  simp [Path.isSlash] at this

theorem Path.not_open_slashed {segments : List String} (h : ∀ s ∈ segments, Path.IsWord s) :
    '\x7b' ∉ Path.slashed segments := by
  intro hopen
  obtain ⟨segment, hsegment, hc⟩ := List.mem_flatMap.1 hopen
  rcases List.mem_cons.1 hc with hslash | hc
  · exact absurd hslash (by decide)
  · exact ((h segment hsegment).chars _ hc).2.1 rfl

/-- The placeholder between words is replaced by the encoded value. -/
theorem Template.substitute_between (slashes : Nat) (hfirst : Path.IsWord first)
    (hrest : ∀ s ∈ rest, Path.IsWord s) (hback : ∀ s ∈ back, Path.IsWord s) :
    substitute Form.encode (Template.between slashes (first :: rest) name back).toList
        [(name, value)] =
      List.replicate slashes '/' ++ (first.toList ++
        Path.slashed (rest ++ String.ofList (Form.encode value) :: back)) := by
  have hfront : '\x7b' ∉
      List.replicate slashes '/' ++ (first.toList ++ (Path.slashed rest ++ ['/'])) := by
    have hchars : '\x7b' ∉ first.toList := fun hc => (hfirst.chars _ hc).2.1 rfl
    simp [hchars, Path.not_open_slashed hrest]
  have htext : (Template.between slashes (first :: rest) name back).toList =
      List.replicate slashes '/' ++ (first.toList ++ (Path.slashed rest ++ ['/'])) ++
        (placeholder name ++ Path.slashed back) := by
    rw [Template.between, String.toList_append, List.cons_append, Path.toList_intercalate,
      Path.slashed_append, Path.slashed_cons]
    simp
  rw [htext, Template.substitute_one hfront (Path.not_open_slashed hback) Form.encode (name, value),
    Path.slashed_append, Path.slashed_cons]
  simp

/-- The slashes before the words do not count. -/
theorem Path.dropWhile_slashes (slashes : Nat) (hfirst : Path.IsWord first) (s : List Char) :
    (List.replicate slashes '/' ++ (first.toList ++ s)).dropWhile (· == '/') =
      first.toList ++ s := by
  rw [List.dropWhile_append_of_pos (by simp)]
  have hne : first.toList ≠ [] := by simpa using hfirst.1
  obtain ⟨c, chars, hchars⟩ := List.exists_cons_of_ne_nil hne
  have hc : c ≠ '/' := Path.not_slash_of_isHeld (hfirst.chars c (by simp [hchars])).1
  rw [hchars, List.cons_append, List.dropWhile_cons_of_neg (by simpa using hc)]

end Words

/-! ## Escaped parameters -/

theorem Url.kind_of_web {u : Url} (h : u.scheme = "http" ∨ u.scheme = "https") :
    u.kind = .web := by
  unfold Url.kind
  rcases h with h | h <;> rw [h] <;> decide

/-- A URL of the web that has been read has a path of segments. -/
theorem Url.Sound.rooted_of_web {u : Url} (h : u.Sound) (hkind : u.kind = .web) :
    ∃ segments, u.Rooted segments := by
  cases h.form with
  | addressed a segments _ _ _ path => exact ⟨segments, path⟩
  | file _ _ kind => exact absurd (hkind.symm.trans kind) (by decide)
  | bare _ _ kind => exact absurd (hkind.symm.trans kind) (by decide)
  | rootless _ kind => exact absurd (hkind.symm.trans kind) (by decide)

theorem prepared_path {r : Request} {u : Url} (h : r.url = some u) (text : String) :
    prepared [.path text] r = .ok { r with url := some (u.appendPath text) } := by
  rw [prepared_cons, PrepareStep.makes_eq_act (by simp)]
  dsimp only [PrepareStep.act]
  rw [h]
  rfl

/-- What is read when the encoded value between words is appended: the segments that are kept, those
of the template, and the value as one of them. -/
theorem Url.Rooted.appendPath_between {base : Url} {segments : List String}
    (h : base.Rooted segments) (hkind : base.kind = .web) {first : String} {rest back : List String}
    (hwords : ∀ segment ∈ (first :: rest) ++ back, Path.IsWord segment) (slashes : Nat)
    (name value : String) :
    base.appendPath (String.ofList (substitute Form.encode
        (Template.between slashes (first :: rest) name back).toList [(name, value)])) =
      { base with path := .rooted (Path.walk [] ((Path.kept segments ++ (first :: rest) ++
          String.ofList (Form.encode value) :: back).map String.toList)) } := by
  obtain ⟨hfront, hback⟩ := List.forall_mem_append.1 hwords
  obtain ⟨hfirst, hrest⟩ := List.forall_mem_cons.1 hfront
  have hheld : ∀ segment ∈ Path.kept segments ++ (first :: rest) ++
      String.ofList (Form.encode value) :: back, ∀ c ∈ segment.toList,
        Path.isHeld base.kind c = true := by
    have hkept : ∀ segment ∈ Path.kept segments, ∀ c ∈ segment.toList,
        Path.isHeld base.kind c = true := fun segment hsegment =>
      (h.sound.each segment ((List.rdropWhile_prefix _ _).subset hsegment)).held
    have hvalue : ∀ c ∈ (String.ofList (Form.encode value)).toList,
        Path.isHeld .web c = true := by
      rw [String.toList_ofList]
      exact Form.forall_mem_encode (p := Path.isHeld .web) (by decide +kernel) value
    rw [hkind] at hkept ⊢
    exact List.forall_mem_append.2 ⟨List.forall_mem_append.2 ⟨hkept,
      fun segment hsegment c hc => ((hfront segment hsegment).chars c hc).1⟩,
      List.forall_mem_cons.2 ⟨hvalue,
        fun segment hsegment c hc => ((hback segment hsegment).chars c hc).1⟩⟩
  have hslash : ∀ segment ∈ segments, '/' ∉ segment.toList := fun segment hsegment hc =>
    Path.not_slash_of_isHeld ((h.sound.each segment hsegment).held _ hc) rfl
  have htext : (String.ofList (substitute Form.encode
      (Template.between slashes (first :: rest) name back).toList [(name, value)])).toList.dropWhile
        (· == '/') =
      first.toList ++ Path.slashed (rest ++ String.ofList (Form.encode value) :: back) := by
    rw [String.toList_ofList, Template.substitute_between slashes hfirst hrest hback,
      Path.dropWhile_slashes slashes hfirst]
  rw [Url.appendPath_slashed h.path hslash htext, ← List.cons_append, ← List.append_assoc,
    Url.setPath_slashed h.path (by simp [hkind]) (by simp) hheld]

/-- **An escaped parameter stays a segment.** Whatever the value, the step succeeds and changes
nothing but the path. The path is that of the base without its slashes at the end, then the segments
of the template, with a segment that reads as the value in place of the placeholder, if and only if
the value is neither one dot nor two. -/
theorem escaped_path_parameter_stays_segment {text : String} {base : Url}
    (hbase : Url.parse text = .ok base) (hweb : base.scheme = "http" ∨ base.scheme = "https")
    {front back : List String} (hfront : front ≠ [])
    (hwords : ∀ segment ∈ front ++ back, Path.IsWord segment) (slashes : Nat)
    (name value : String) {r : Request} (hurl : r.url = some base) :
    ∃ segments placed, base.path = .rooted segments ∧
      prepared [.escapedPathParameters (Template.between slashes front name back) [(name, value)]]
          r = .ok { r with url := some { base with path := .rooted placed } } ∧
      ((∃ piece : String, placed = Path.kept segments ++ front ++ piece :: back ∧
        Form.decode piece.toList = value) ↔ value ≠ "." ∧ value ≠ "..") := by
  have hkind := Url.kind_of_web hweb
  obtain ⟨segments, hrooted⟩ := (Url.parse_sound hbase).rooted_of_web hkind
  obtain ⟨first, rest, rfl⟩ := List.exists_cons_of_ne_nil hfront
  obtain ⟨hbefore, hback⟩ := List.forall_mem_append.1 hwords
  have hdone : ∀ segment ∈ Path.kept segments ++ (first :: rest), Path.Counts segment.toList :=
    List.forall_mem_append.2 ⟨fun segment h =>
      (hrooted.sound.each segment ((List.rdropWhile_prefix _ _).subset h)).counts,
      fun segment h => (hbefore segment h).counts⟩
  have hafter : ∀ segment ∈ back, Path.Counts segment.toList :=
    fun segment h => (hback segment h).counts
  refine ⟨segments, _, hrooted.path, ?_, Path.walk_value_iff hdone hafter⟩
  rw [PrepareStep.escapedPathParameters, prepared_path hurl,
    hrooted.appendPath_between hkind hwords]

/-- Empty segments in the path of the base, and a value of dots, a slash and more. -/
theorem escaped_path_parameter_stays_segment_dots :
    let base : Url := ⟨"http", some ⟨"u", "", "h", some 81⟩, .rooted ["a", "", "b", "", ""], false,
      some "q", some "f"⟩
    Url.parse "http://u@h:81/a//b//?q#f" = .ok base ∧
    (base.scheme = "http" ∨ base.scheme = "https") ∧ ["x-1"] ≠ [] ∧
    (∀ segment ∈ ["x-1"] ++ ["y"], Path.IsWord segment) ∧ (Request.get base).url = some base ∧
    ∃ piece : String, Form.decode piece.toList = "../é +" ∧
      prepared [.escapedPathParameters "/x-1/\x7bk\x7d/y" [("k", "../é +")]] (Request.get base) =
        .ok (Request.get { base with path := .rooted ["a", "", "b", "x-1", piece, "y"] }) := by
  intro base
  have hbase : Url.parse "http://u@h:81/a//b//?q#f" = .ok base :=
    eq_ok_of_toOption (by decide +kernel)
  have hwords : ∀ segment ∈ ["x-1"] ++ ["y"], Path.IsWord segment := by decide
  obtain ⟨segments, placed, hpath, hprepared, hplaced⟩ := escaped_path_parameter_stays_segment hbase
    (.inl rfl) (List.cons_ne_nil "x-1" []) hwords 1 "k" "../é +" (r := Request.get base) rfl
  obtain rfl : ["a", "", "b", "", ""] = segments := Url.Path.rooted.inj hpath
  obtain ⟨piece, rfl, hread⟩ := hplaced.2 (by decide)
  have htemplate : Template.between 1 ["x-1"] "k" ["y"] = "/x-1/\x7bk\x7d/y" := by decide +kernel
  exact ⟨hbase, .inl rfl, List.cons_ne_nil _ _, hwords, rfl, piece, hread, htemplate ▸ hprepared⟩

/-- Two dots as a value take a segment of the template away. -/
theorem not_escaped_path_parameter_stays_segment :
    let base : Url := ⟨"http", some ⟨"", "", "h", none⟩, .rooted [""], false, none, none⟩
    Url.parse "http://h/" = .ok base ∧ (∀ segment ∈ ["a"] ++ ["b"], Path.IsWord segment) ∧
    Template.between 0 ["a"] "k" ["b"] = "a/\x7bk\x7d/b" ∧
    prepared [.escapedPathParameters "a/\x7bk\x7d/b" [("k", "..")]] (Request.get base) =
      .ok (Request.get { base with path := .rooted ["b"] }) ∧
    ∀ piece : String, ["b"] ≠ Path.kept [""] ++ ["a"] ++ piece :: ["b"] := by
  intro base
  refine ⟨eq_ok_of_toOption (by decide +kernel), by decide, by decide +kernel, ?_, ?_⟩
  · have happended : base.appendPath (String.ofList (substitute Form.encode
        "a/\x7bk\x7d/b".toList [("k", "..")])) = { base with path := .rooted ["b"] } := by
      decide +kernel
    rw [PrepareStep.escapedPathParameters, prepared_path (u := base) rfl, happended]
    rfl
  · intro piece hsame
    exact absurd (congrArg List.length hsame) (by simp)

end Courier
