import Courier.Proofs.Url.Reading

set_option autoImplicit false

/-! # URLs read again

The text of a URL that has been read is read as the same URL: what the parts hold is written so that
no character of a part is taken for a mark or written otherwise, and hosts are held in a text that
is read as the same host.

There is one exception. Drives are looked for before the empty segments and the dots of a path are
gone, so the path of a file can come to begin with the name of a drive, or to name one beside a
host. Reading it again takes the segment apart, or lets go of the host: the text is a URL, but maybe
another one. -/

namespace Courier

/-! ## Reading the text of a URL -/

/-- Whether a URL is that of a file in which only a second reading sees a drive: where the first
segment begins with its name, or where one stands beside a host. -/
def Url.HidesDrive (u : Url) : Prop :=
  u.kind = .file ∧
    (Path.splitDrive (u.segments.map String.toList) ≠ u.segments.map String.toList ∨
      ∃ a, u.authority = some a ∧ a.host ≠ "" ∧
        ∃ segment ∈ u.segments, Path.isDrive segment.toList = true)

section Rereading

variable {u : Url}

theorem Url.parseAfterSlashes_text {a : Url.Authority} {segments : List String}
    (hkind : u.kind ≠ .file) (hauthority : u.authority = some a) (ha : a.Sound u.scheme)
    (hpath : u.Rooted segments) (htail : u.SoundTail) :
    Url.parseAfterSlashes u.scheme
      (a.text.toList ++ (Path.slashed segments ++ u.tailText.toList)) = .ok u := by
  obtain ⟨htake, hdrop⟩ := u.span_path fun c hc => (hpath.sound.mem_slashed c hc).2
  have hparse := hpath.sound.parse_slashed fun hfile => absurd hfile hkind
  have hwith := hpath.withPath htail
  rw [hauthority] at hwith
  unfold Url.parseAfterSlashes
  rw [Url.parseAuthority_text ha (u.follows_slashed segments)]
  show Except.ok (Url.withPath _ _ (Path.parse u.kind _) _) = _
  rw [htake, hdrop, hparse, hwith]

/-! ### Files -/

theorem Host.not_isDrive {host : String} (h : Host.OfFile host) :
    Path.isDrive host.toList = false := by
  rcases h with rfl | ⟨hparse, -, -⟩
  · rfl
  refine Bool.eq_false_iff.2 fun hdrive => ?_
  obtain ⟨a, b, htext, halpha, hb⟩ := Path.isDrive_cases hdrive
  have hmem : b ∈ host.toList := by rw [htext]; simp
  rcases Host.parse_cases hparse with ⟨groups, -, -, rfl⟩ | ⟨n, -, rfl⟩ | ⟨name, hname, -, -, rfl⟩
  · have hfirst := Host.head?_bracketed (Ipv6.text groups)
    rw [htext] at hfirst
    exact absurd (Option.some.inj hfirst ▸ halpha) (by decide)
  · rcases hb with rfl | rfl <;> rcases Ipv4.mem_text hmem with hdigit | hdot
    all_goals exact absurd ‹_› (by decide)
  · rw [String.toList_ofList] at hmem
    have hallowed := hname.allowed b hmem
    rcases hb with rfl | rfl <;> exact absurd hallowed (by decide)

theorem Host.OfFile.isInner {host : String} (h : Host.OfFile host) :
    ∀ c ∈ host.toList, Url.isInner c = true := by
  rcases h with rfl | ⟨-, hshape, -⟩
  · exact fun c hc => absurd hc (by simp)
  · exact hshape.isInner

/-- After its slashes the text of a file is read as its host, unless the path names a drive, and its
path. -/
theorem Url.parseFileHost_text {host : String} {segments : List String} (h : Host.OfFile host)
    (hpath : Path.Sound .file segments) :
    Url.parseFileHost (host.toList ++ (Path.slashed segments ++ u.tailText.toList)) =
      .ok (Url.fileAt (if Url.namesDrive (Path.slashed segments) then "" else host)
        (Path.parse .file (Path.slashed segments)) u.tailText.toList) := by
  have hinside : ∀ c ∈ host.toList, (!(Url.isAnySlash c || Url.endsPath c)) = true := by
    intro c hc
    obtain ⟨-, hends, hslash, -⟩ := Url.marks_of_isInner false (h.isInner c hc)
    simp only [Url.endsAuthority, Bool.or_eq_false_iff] at hends
    simp [hslash, Url.endsPath, hends.1.1.2, hends.1.2]
  obtain ⟨htake, hdrop⟩ := (u.follows_slashed segments).span_append hinside (by decide)
  obtain ⟨hpathTake, hpathDrop⟩ := u.span_path fun c hc => (hpath.mem_slashed c hc).2
  simp only [Url.parseFileHost, bind, Except.bind, pure, Except.pure, htake, hdrop,
    Host.not_isDrive h, Bool.false_eq_true, if_false, false_or]
  rcases h with rfl | ⟨hread, -, hlocal⟩
  · have hempty : "".toList.isEmpty = true := rfl
    rw [if_pos hempty, hpathTake, hpathDrop]
  · have hne : ¬host.toList.isEmpty = true := by
      intro hempty
      have hnone : host = "" := by simpa using hempty
      rw [hnone] at hread
      exact absurd hread (by decide)
    rw [if_neg hne, hread]
    dsimp only
    rw [hpathTake, hpathDrop, if_neg hlocal]

theorem Url.not_namesDrive_slashed {segments : List String} (hpath : Path.Sound .file segments)
    (hdrive : ∀ segment ∈ segments, Path.isDrive segment.toList = false) :
    Url.namesDrive (Path.slashed segments) = false := by
  have hencoded : ∀ segment ∈ segments,
      Path.isDrive (Percent.encode Percent.inPath segment.toList) = false := by
    intro segment hsegment
    have hheld := (hpath.each segment hsegment).held
    rw [Percent.encode_of_forall fun c hc => (Path.not_inPath_of_isHeld (hheld c hc)).1]
    exact hdrive segment hsegment
  have hslash : ∀ segment ∈ "" :: segments, ∀ c ∈ segment.toList, Url.isAnySlash c = false := by
    refine List.forall_mem_cons.2 ⟨fun c hc => absurd hc (by simp), fun segment hsegment c hc => ?_⟩
    exact (Path.not_inPath_of_isHeld ((hpath.each segment hsegment).held c hc)).2
  unfold Url.namesDrive
  rw [show Path.slashed segments = "".toList ++ Path.slashed segments from rfl,
    Path.splitAll_slashed rfl hslash, List.any_eq_false]
  intro seg hseg
  obtain ⟨segment, hsegment, rfl⟩ := List.mem_map.1 hseg
  rcases List.mem_cons.1 hsegment with rfl | hsegment
  · decide
  · simp [hencoded segment hsegment]

/-! ### Without an authority -/

theorem Url.parseOther_rooted {scheme : String} {path : List Char} (hslash : path.head? ≠ some '/')
    (hends : ∀ c ∈ path, Url.endsPath c = false) (u : Url) :
    Url.parseOther scheme ('/' :: path ++ u.tailText.toList) =
      .ok (Url.withPath scheme none (Path.follow .other [] path) u.tailText.toList) := by
  have hends' : ∀ c ∈ '/' :: path, Url.endsPath c = false := List.forall_mem_cons.2 ⟨rfl, hends⟩
  obtain ⟨htake, hdrop⟩ := u.span_path hends'
  have hsingle : ∀ rest, '/' :: path ++ u.tailText.toList ≠ '/' :: '/' :: rest := by
    intro rest heq
    have htail : path ++ u.tailText.toList = '/' :: rest := (List.cons.inj heq).2
    cases path with
    | nil => rcases Url.head_tailText htail with h | h <;> exact absurd h (by decide)
    | cons c path => exact hslash (congrArg some (List.cons.inj htail).1)
  unfold Url.parseOther
  split
  · next rest heq => exact absurd heq (hsingle rest)
  · dsimp only
    rw [htake, hdrop]
    rfl

theorem Url.parseOther_rootless {scheme : String} {path : List Char}
    (hslash : path.head? ≠ some '/') (hends : ∀ c ∈ path, Url.endsPath c = false) (u : Url) :
    Url.parseOther scheme (path ++ u.tailText.toList) =
      .ok (Url.rootlessAt scheme (path ++ u.tailText.toList)) := by
  obtain ⟨htake, hdrop⟩ := u.span_path hends
  have hnone : ∀ rest, path ++ u.tailText.toList ≠ '/' :: rest := by
    intro rest heq
    cases path with
    | nil => rcases Url.head_tailText heq with h | h <;> exact absurd h (by decide)
    | cons c path => exact hslash (congrArg some (List.cons.inj heq).1)
  unfold Url.parseOther
  split
  · next rest heq => exact absurd heq (hnone _)
  · dsimp only
    split
    · next rest heq =>
      rw [htake] at heq
      exact absurd (congrArg List.head? heq) hslash
    · rfl

/-- A first segment that is empty is the only one, unless the path is marked. -/
theorem Url.Rooted.parse_restText {first : String} {rest : List String}
    (h : u.Rooted (first :: rest)) (htail : u.SoundTail) (hkind : u.kind = .other)
    (hauthority : u.authority = none) :
    Url.parseOther u.scheme u.restText.toList = .ok u := by
  have hsound := h.sound
  rw [hkind] at hsound
  have hends := fun c hc => (hsound.mem_slashed c hc).2
  have hwith := h.withPath htail
  rw [hauthority] at hwith
  cases hmarked : u.marked with
  | true =>
    rw [h.restText_of_marked hmarked]
    have hdot : ('.' :: Path.slashed (first :: rest)).head? ≠ some '/' := by simp
    refine (Url.parseOther_rooted hdot (List.forall_mem_cons.2 ⟨rfl, hends⟩) u).trans ?_
    rw [hsound.follow_dot, hwith]
  | false =>
    have hfirst : (first.toList ++ Path.slashed rest).head? ≠ some '/' := by
      cases htext : first.toList with
      | nil =>
        have hempty : first = "" := String.toList_eq_nil_iff.1 htext
        have hnone : rest = [] := by
          have := h.marked
          rw [hmarked, hauthority, hempty] at this
          simpa [Url.markOf] using this
        simp [hnone, Path.slashed]
      | cons c more =>
        have hheld := (hsound.each first List.mem_cons_self).held c (htext ▸ List.mem_cons_self)
        intro hhead
        obtain rfl := Option.some.inj hhead
        exact absurd hheld (by decide)
    rw [h.restText_of_not_marked hmarked]
    refine (Url.parseOther_rooted hfirst
      (fun c hc => hends c (List.mem_cons_of_mem _ hc)) u).trans ?_
    rw [hsound.follow_slashed fun hfile => absurd hfile (by decide), hwith]

theorem Url.Rootless.restText {text : String} (h : u.Rootless text) :
    u.restText.toList = text.toList ++ u.tailText.toList := by
  simp [Url.restText, Url.Path.text, h.marked, h.path]

theorem Url.Rootless.trail_restText {text : String} (h : u.Rootless text) (htail : u.SoundTail) :
    Url.trail u.restText.toList = u.restText.toList := by
  refine Url.trail_eq_self ?_ h.last
  rw [h.restText]
  refine List.forall_mem_append.2 ⟨fun c hc => ?_, fun c hc => ?_⟩
  · exact Url.not_isIgnored_of_not_isControl (h.held c hc).1
  · exact Url.isIgnored_of_not_isOuter (htail.not_isOuter c hc)

theorem Url.Rootless.parse_restText {text : String} (h : u.Rootless text) (htail : u.SoundTail)
    (hkind : u.kind = .other) : Url.parseOther u.scheme u.restText.toList = .ok u := by
  have hends := fun c hc => (h.held c hc).2
  have hplain : String.ofList (Percent.encode Percent.isControl text.toList) = text := by
    rw [Percent.encode_of_forall fun c hc => (h.held c hc).1, String.ofList_toList]
  obtain ⟨htake, hdrop⟩ := u.span_path hends
  have htext := Url.parseTail_tailText htail
  rw [hkind] at htext
  rw [h.restText, Url.parseOther_rootless h.first hends u]
  unfold Url.rootlessAt
  dsimp only
  rw [htake, hdrop, hplain, show Url.parseTail false _ = _ from htext, ← h.authority, ← h.path,
    ← h.marked]

/-! ### All forms -/

/-- A text with a scheme is read by what follows the colon. -/
theorem Url.parse_of_front {scheme : String} {front rest : List Char} {text : String}
    (hscheme : Url.IsScheme scheme) (hfront : ∀ c ∈ front, Url.isOuter c = false)
    (htext : text = String.ofList (scheme.toList ++ ':' :: front ++ rest)) :
    Url.parse text = Url.parseWithScheme none scheme (front ++ Url.trail rest) := by
  have hcount : ∀ c ∈ scheme.toList ++ ':' :: front, Url.isOuter c = false := by
    intro c hc
    rcases List.mem_append.1 hc with hc | hc
    · have := Url.forall_isSchemePart (p := fun c => !Url.isOuter c) (by decide)
        (hscheme.parts c hc)
      simpa using this
    · rcases List.mem_cons.1 hc with rfl | hc
      · decide
      · exact hfront c hc
  have hrelevant : Url.relevant text = scheme.toList ++ ':' :: (front ++ Url.trail rest) := by
    rw [htext, Url.relevant_append (by simp) hcount, List.append_assoc, List.cons_append]
  simp only [Url.parse, Url.parseFrom, hrelevant, hscheme.splitScheme?]

theorem Url.parseFile_slashes (s : List Char) :
    Url.parseFile none ('/' :: '/' :: s) = Url.parseFileHost s := rfl

theorem Url.forall_slashes {text : List Char} (h : ∀ c ∈ text, Url.isOuter c = false) :
    ∀ c ∈ '/' :: '/' :: text, Url.isOuter c = false :=
  List.forall_mem_cons.2 ⟨by decide, List.forall_mem_cons.2 ⟨by decide, h⟩⟩

theorem Url.Rooted.parse_addressed {a : Url.Authority} {segments : List String}
    (h : u.Rooted segments) (hscheme : Url.IsScheme u.scheme) (htail : u.SoundTail)
    (hkind : u.kind ≠ .file) (hauthority : u.authority = some a) (ha : a.Sound u.scheme) :
    Url.parse u.text = .ok u := by
  have hread := Url.parseAfterSlashes_text hkind hauthority ha h htail
  rw [Url.parse_of_front hscheme (Url.forall_slashes fun c hc => (ha.mem_text false hc).2.2)
    (Url.text_of_authority hauthority), h.trail_restText htail,
    h.restText_of_not_marked (h.not_marked hauthority)]
  cases hform : Url.kindOf u.scheme with
  | file => exact absurd hform hkind
  | web =>
    obtain ⟨c, more, hfirst⟩ :=
      List.exists_cons_of_ne_nil (ha.text_ne_nil (by rw [hform]; rfl))
    have hc : Url.isAnySlash c = false := (ha.mem_text false (hfirst ▸ List.mem_cons_self)).2.1
    rw [hfirst] at hread ⊢
    -- All slashes are passed over, so the authority is found only if it begins with none.
    simp only [Url.parseWithScheme, hform, List.cons_append]
    rw [List.dropWhile_cons_of_pos rfl, List.dropWhile_cons_of_pos rfl,
      List.dropWhile_cons_of_neg (by simp [hc])]
    exact hread
  | other => simpa [Url.parseWithScheme, hform, Url.parseOther] using hread

/-- The text of a file is read as a file with the path as it is read again, and with its host unless
the path names a drive. -/
theorem Url.Rooted.parse_file {host : String} {segments : List String} (h : u.Rooted segments)
    (hscheme : Url.IsScheme u.scheme) (htail : u.SoundTail) (hkind : u.kind = .file)
    (hauthority : u.authority = some ⟨"", "", host, none⟩) (hhost : Host.OfFile host) :
    Url.parse u.text =
      .ok (Url.fileAt (if Url.namesDrive (Path.slashed segments) then "" else host)
        (Path.parse .file (Path.slashed segments)) u.tailText.toList) := by
  have hform : Url.kindOf u.scheme = .file := hkind
  have htext : Url.Authority.text ⟨"", "", host, none⟩ = host := by simp [Url.Authority.text]
  rw [Url.parse_of_front hscheme (Url.forall_slashes fun c hc =>
    (Url.marks_of_isInner false (hhost.isInner c hc)).2.2.2)
    (htext ▸ Url.text_of_authority hauthority), h.trail_restText htail,
    h.restText_of_not_marked (h.not_marked hauthority)]
  simp only [Url.parseWithScheme, hform, List.cons_append, Option.filter_none]
  exact (Url.parseFile_slashes _).trans (Url.parseFileHost_text hhost (hkind ▸ h.sound))

/-- Where no drive is hidden, neither the path nor the host of a file changes in the second
reading. -/
theorem Url.Rooted.fileAt_of_not_hidesDrive {host : String} {segments : List String}
    (h : u.Rooted segments) (htail : u.SoundTail) (hkind : u.kind = .file)
    (hauthority : u.authority = some ⟨"", "", host, none⟩) (hdrive : ¬u.HidesDrive) :
    Url.fileAt (if Url.namesDrive (Path.slashed segments) then "" else host)
      (Path.parse .file (Path.slashed segments)) u.tailText.toList = u := by
  have hsound : Path.Sound .file segments := hkind ▸ h.sound
  have hsegments : u.segments = segments := by rw [Url.segments, h.path]
  have hsplit : Path.splitDrive (segments.map String.toList) = segments.map String.toList := by
    rw [← hsegments]
    exact not_not.1 fun hne => hdrive ⟨hkind, .inl hne⟩
  have hhost : (if Url.namesDrive (Path.slashed segments) then "" else host) = host := by
    by_cases hempty : host = ""
    · rw [hempty, ite_self]
    · rw [Url.not_namesDrive_slashed hsound fun segment hsegment => Bool.eq_false_iff.2
        fun hnames => hdrive ⟨hkind, .inr ⟨_, hauthority, hempty, segment,
          hsegments ▸ hsegment, hnames⟩⟩]
      rfl
  have hwith := h.withPath htail
  rw [Url.kindOf_eq_file hkind, hauthority] at hwith
  rw [hhost, hsound.parse_slashed fun _ => hsplit]
  exact hwith

/-- The text of a URL is read as that URL, unless it hides a drive. -/
theorem Url.Sound.parse_text (h : u.Sound) :
    ∃ v, Url.parse u.text = .ok v ∧ (¬u.HidesDrive → v = u) := by
  cases h.form with
  | addressed a segments kind authority sound path =>
    exact ⟨u, path.parse_addressed h.scheme h.tail kind authority sound, fun _ => rfl⟩
  | file host segments kind authority sound path =>
    exact ⟨_, path.parse_file h.scheme h.tail kind authority sound,
      path.fileAt_of_not_hidesDrive h.tail kind authority⟩
  | bare first rest kind authority path =>
    have hkind : Url.kindOf u.scheme = .other := kind
    refine ⟨u, ?_, fun _ => rfl⟩
    rw [Url.parse_of_front h.scheme (List.forall_mem_nil _) (Url.text_of_not_authority authority),
      path.trail_restText h.tail]
    simpa [Url.parseWithScheme, hkind] using path.parse_restText h.tail kind authority
  | rootless text kind path =>
    have hkind : Url.kindOf u.scheme = .other := kind
    refine ⟨u, ?_, fun _ => rfl⟩
    rw [Url.parse_of_front h.scheme (List.forall_mem_nil _)
      (Url.text_of_not_authority path.authority), path.trail_restText h.tail]
    simpa [Url.parseWithScheme, hkind] using path.parse_restText h.tail kind

end Rereading

/-- **A URL that has been read can be read again.** -/
theorem Url.exists_parse_text {text : String} {u : Url} (h : Url.parse text = .ok u) :
    ∃ v, Url.parse u.text = .ok v :=
  have ⟨v, hv, _⟩ := (Url.parse_sound h).parse_text
  ⟨v, hv⟩

/-- **A URL that has been read is the one that its text is read as**, unless it hides a drive. -/
theorem Url.parse_text {text : String} {u : Url} (h : Url.parse text = .ok u)
    (hdrive : ¬u.HidesDrive) : Url.parse u.text = .ok u := by
  obtain ⟨v, hv, hsame⟩ := (Url.parse_sound h).parse_text
  rw [hv, hsame hdrive]

/-- Behind an empty segment a drive is not seen at first. -/
example : ((Url.parse "file:////C:a").toOption.map Url.text) = some "file:///C:a" ∧
    ((Url.parse "file:///C:a").toOption.map Url.text) = some "file:///C:/a" := by
  decide +kernel

end Courier
