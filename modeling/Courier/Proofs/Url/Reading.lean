import Courier.Proofs.Url.Paths
import Courier.Proofs.Url.Texts
import Mathlib.Data.List.Basic

set_option autoImplicit false

/-! # URLs that have been read

What reading makes sure of is collected in `Url.Sound`: what is known of the scheme, of the query
and of the fragment, and one case for each form of URLs. A URL has an authority, or is that of a
file, or has neither; then its path has segments or is some text. -/

namespace Courier

/-! ## Paths of segments -/

/-- The mark that a path has: one that could be taken for an authority is marked. -/
def Url.markOf (authority : Option Url.Authority) (segments : List String) : Bool :=
  authority.isNone && 1 < segments.length && segments.head? == some ""

/-- What is known of a URL with a path of segments that has been read. -/
structure Url.Rooted (u : Url) (segments : List String) : Prop where
  path : u.path = .rooted segments
  marked : u.marked = Url.markOf u.authority segments
  sound : Path.Sound u.kind segments

theorem Url.rooted_withPath (scheme : String) (authority : Option Url.Authority)
    {segments : List String} (tail : List Char) (h : Path.Sound (Url.kindOf scheme) segments) :
    (Url.withPath scheme authority segments tail).Rooted segments ∧
      (Url.withPath scheme authority segments tail).SoundTail := by
  obtain ⟨hquery, hfragment⟩ := Url.parseTail_sound (Url.kindOf scheme).isSpecial tail
  exact ⟨⟨rfl, rfl, h⟩, ⟨hquery, hfragment⟩⟩

section Rooted

variable {u : Url} {segments : List String}

theorem Url.Rooted.withPath (h : u.Rooted segments) (htail : u.SoundTail) :
    Url.withPath u.scheme u.authority segments u.tailText.toList = u := by
  have htext : Url.parseTail (Url.kindOf u.scheme).isSpecial u.tailText.toList =
      (u.query, u.fragment) := Url.parseTail_tailText htail
  have hmarked : (u.authority.isNone && 1 < segments.length && segments.head? == some "") =
      u.marked := h.marked.symm
  unfold Url.withPath
  rw [htext]
  dsimp only
  rw [hmarked, ← h.path]

theorem Path.Sound.mem_slashed {kind : Url.Kind} (h : Path.Sound kind segments) :
    ∀ c ∈ Path.slashed segments, Url.isOuter c = false ∧ Url.endsPath c = false := by
  intro c hc
  obtain ⟨segment, hsegment, hc⟩ := List.mem_flatMap.1 hc
  rcases List.mem_cons.1 hc with rfl | hc
  · decide
  · exact Url.not_isOuter_of_inPath
      (Path.not_inPath_of_isHeld ((h.each segment hsegment).held c hc)).1

theorem Url.Rooted.restText_of_not_marked (h : u.Rooted segments) (hmarked : u.marked = false) :
    u.restText.toList = Path.slashed segments ++ u.tailText.toList := by
  simp [Url.restText, h.path, hmarked, Path.toList_text]

theorem Url.Rooted.restText_of_marked (h : u.Rooted segments) (hmarked : u.marked = true) :
    u.restText.toList = '/' :: '.' :: Path.slashed segments ++ u.tailText.toList := by
  simp [Url.restText, h.path, hmarked, Path.toList_text]

theorem Url.Rooted.not_marked (h : u.Rooted segments) {a : Url.Authority}
    (hauthority : u.authority = some a) : u.marked = false := by
  rw [h.marked, hauthority]
  rfl

/-- All of what follows the authority counts. -/
theorem Url.Rooted.trail_restText (h : u.Rooted segments) (htail : u.SoundTail) :
    Url.trail u.restText.toList = u.restText.toList := by
  have hpath := fun c hc => (h.sound.mem_slashed c hc).1
  have hmark : ∀ c ∈ ['/', '.'], Url.isOuter c = false :=
    List.forall_mem_cons.2 ⟨by decide, List.forall_mem_singleton.2 (by decide)⟩
  have hcount : ∀ c ∈ u.restText.toList, Url.isOuter c = false := by
    cases hmarked : u.marked with
    | true =>
      rw [h.restText_of_marked hmarked]
      exact List.forall_mem_append.2 ⟨List.forall_mem_append.2 ⟨hmark, hpath⟩, htail.not_isOuter⟩
    | false =>
      rw [h.restText_of_not_marked hmarked]
      exact List.forall_mem_append.2 ⟨hpath, htail.not_isOuter⟩
  exact Url.trail_eq_self (fun c hc => Url.isIgnored_of_not_isOuter (hcount c hc))
    fun c hc => hcount c (List.mem_of_getLast? hc)

/-- A path is told apart from the query and the fragment that follow it. -/
theorem Url.span_path (u : Url) {path : List Char} (h : ∀ c ∈ path, Url.endsPath c = false) :
    (path ++ u.tailText.toList).takeWhile (fun c => !Url.endsPath c) = path ∧
      (path ++ u.tailText.toList).dropWhile (fun c => !Url.endsPath c) = u.tailText.toList := by
  have hpath : ∀ c ∈ path, (!Url.endsPath c) = true := fun c hc => by simp [h c hc]
  rw [List.takeWhile_append_of_pos hpath, List.dropWhile_append_of_pos hpath]
  cases htail : u.tailText.toList with
  | nil => simp
  | cons c rest =>
    have hc : ¬(!Url.endsPath c) = true := by
      rcases Url.head_tailText htail with rfl | rfl <;> decide
    rw [List.takeWhile_cons_of_neg (p := fun c => !Url.endsPath c) hc,
      List.dropWhile_cons_of_neg (p := fun c => !Url.endsPath c) hc, List.append_nil]
    exact ⟨rfl, rfl⟩

theorem Url.follows_slashed (u : Url) (segments : List String) :
    Url.Follows (Path.slashed segments ++ u.tailText.toList) := by
  intro c rest h
  cases segments with
  | nil => exact .inr (Url.head_tailText h)
  | cons segment segments => exact .inl (List.cons.inj h).1.symm

end Rooted

/-! ## Forms of URLs -/

/-- A text that the host of a file is held in. -/
def Host.OfFile (host : String) : Prop :=
  host = "" ∨ Host.parse host.toList = .ok host ∧ Host.Shape host ∧ host ≠ "localhost"

/-- What is known of a URL that has been read and whose path is some text. -/
structure Url.Rootless (u : Url) (text : String) : Prop where
  authority : u.authority = none
  path : u.path = .rootless text
  marked : u.marked = false
  held : ∀ c ∈ text.toList, Percent.isControl c = false ∧ Url.endsPath c = false
  first : text.toList.head? ≠ some '/'
  last : ∀ c, u.restText.toList.getLast? = some c → Url.isOuter c = false

/-- The forms of URLs that have been read: with an authority, of a file with a host or without one,
and without an authority, where the path has segments or is some text. -/
inductive Url.Form (u : Url) : Prop
  | addressed (a : Url.Authority) (segments : List String) (kind : u.kind ≠ .file)
      (authority : u.authority = some a) (sound : a.Sound u.scheme) (path : u.Rooted segments)
  | file (host : String) (segments : List String) (kind : u.kind = .file)
      (authority : u.authority = some ⟨"", "", host, none⟩) (sound : Host.OfFile host)
      (path : u.Rooted segments)
  | bare (first : String) (rest : List String) (kind : u.kind = .other)
      (authority : u.authority = none) (path : u.Rooted (first :: rest))
  | rootless (text : String) (kind : u.kind = .other) (path : u.Rootless text)

/-- What is known of a URL that has been read. -/
structure Url.Sound (u : Url) : Prop where
  scheme : Url.IsScheme u.scheme
  tail : u.SoundTail
  form : Url.Form u

/-! ## Reading a URL -/

/-- What is known of a URL that has been read after a scheme. -/
structure Url.ReadAfter (scheme : String) (u : Url) : Prop where
  scheme : u.scheme = scheme
  tail : u.SoundTail
  form : Url.Form u

theorem Url.parseAfterSlashes_sound {scheme : String} {s : List Char} {u : Url}
    (hkind : Url.kindOf scheme ≠ .file) (h : Url.parseAfterSlashes scheme s = .ok u) :
    Url.ReadAfter scheme u := by
  simp only [Url.parseAfterSlashes, bind, Except.bind] at h
  split at h
  · exact absurd h (by simp)
  · next place hauthority =>
    obtain rfl := Except.ok.inj h
    obtain ⟨hpath, htail⟩ := Url.rooted_withPath scheme (some place.1)
      (place.2.dropWhile fun c => !Url.endsPath c)
      (Path.sound_parse (Url.kindOf scheme) (place.2.takeWhile fun c => !Url.endsPath c))
    exact ⟨rfl, htail,
      .addressed place.1 _ hkind rfl (Url.parseAuthority_sound hauthority) hpath⟩

/-! ### Files -/

theorem Host.OfFile.unless {host : String} (h : Host.OfFile host) (p : Prop) [Decidable p] :
    Host.OfFile (if p then "" else host) := by
  split
  · exact .inl rfl
  · exact h

theorem Host.ofFile_of_parse {s : List Char} {host : String} (h : Host.parse s = .ok host) :
    Host.OfFile (if host = "localhost" then "" else host) := by
  split
  · exact .inl rfl
  · next hne =>
    obtain ⟨hagain, -, hshape⟩ := Host.parse_toList h
    exact .inr ⟨hagain, hshape, hne⟩

theorem Url.readAfter_fileAt {host : String} {segments : List String} (tail : List Char)
    (h : Host.OfFile host) (hpath : Path.Sound .file segments) :
    Url.ReadAfter "file" (Url.fileAt host segments tail) := by
  obtain ⟨hrooted, htail⟩ := Url.rooted_withPath "file" (some ⟨"", "", host, none⟩) tail hpath
  exact ⟨rfl, htail, .file host segments rfl rfl h hrooted⟩

theorem Url.parseFileHost_sound {s : List Char} {u : Url} (h : Url.parseFileHost s = .ok u) :
    Url.ReadAfter "file" u := by
  simp only [Url.parseFileHost, bind, Except.bind, pure, Except.pure] at h
  split at h
  · obtain rfl := Except.ok.inj h
    exact Url.readAfter_fileAt _ (.inl (ite_self "")) (Path.sound_parse .file _)
  · split at h
    · exact absurd h (by simp)
    · next host hhost =>
      obtain rfl := Except.ok.inj h
      exact Url.readAfter_fileAt _ ((Host.ofFile_of_parse hhost).unless _)
        (Path.sound_parse .file _)

theorem Url.parseFile_sound {s : List Char} {u : Url} (h : Url.parseFile none s = .ok u) :
    Url.ReadAfter "file" u := by
  have hroot : ∀ rest tail, Url.ReadAfter "file" (Url.parseFile.fromRoot none rest tail) :=
    fun rest tail => Url.readAfter_fileAt tail (.inl rfl) (Path.sound_follow .file rest)
  simp only [Url.parseFile] at h
  split at h
  · split at h
    · split at h
      · split at h
        · exact Url.parseFileHost_sound h
        · exact Except.ok.inj h ▸ hroot _ _
      · exact Except.ok.inj h ▸ hroot _ _
    · obtain rfl := Except.ok.inj h
      exact Url.readAfter_fileAt _ (.inl rfl) (Path.sound_follow .file _)
  · obtain rfl := Except.ok.inj h
    exact Url.readAfter_fileAt _ (.inl rfl) (Path.sound_root .file)

/-! ### Without an authority -/

theorem Percent.encode_singleton_ne_nil (set : Char → Bool) (c : Char) :
    Percent.encode set [c] ≠ [] := by
  have hoctets : String.utf8EncodeChar c ≠ [] := by
    intro hnil
    have hlen := String.length_utf8EncodeChar c
    rw [hnil] at hlen
    exact absurd hlen.symm (Nat.pos_iff_ne_zero.1 c.utf8Size_pos)
  obtain ⟨b, rest, hcons⟩ := List.exists_cons_of_ne_nil hoctets
  show Percent.encodeChar set c ++ [] ≠ []
  rw [List.append_nil, Percent.encodeChar, hcons]
  split <;> simp [Percent.octet]

theorem Percent.head?_encode {set : Char → Bool} {s : List Char} {c d : Char}
    (h : (Percent.encode set (d :: s)).head? = some c) : c ∈ Percent.encode set [d] := by
  rw [← List.singleton_append, Percent.encode_append,
    List.head?_append_of_ne_nil _ (Percent.encode_singleton_ne_nil set d)] at h
  exact List.mem_of_head? h

theorem Percent.getLast?_encode {set : Char → Bool} {s : List Char} {c d : Char}
    (h : (Percent.encode set (s ++ [d])).getLast? = some c) : c ∈ Percent.encode set [d] := by
  rw [Percent.encode_append,
    List.getLast?_append_of_ne_nil _ (Percent.encode_singleton_ne_nil set d)] at h
  exact List.mem_of_getLast? h

/-- The text of a path that does not begin with a slash does not, either. -/
theorem Percent.head?_encode_ne_slash {path : List Char} (h : path.head? ≠ some '/') :
    (Percent.encode Percent.isControl path).head? ≠ some '/' := by
  cases path with
  | nil => simp [Percent.encode]
  | cons d path =>
    intro hhead
    have hall : ∀ c ∈ Percent.encode Percent.isControl [d], (c != '/') = true := by
      refine Percent.forall_mem_encode (fun c hc _ => ?_) (by decide) (by decide)
      obtain rfl := List.mem_singleton.1 hc
      simpa using h
    exact absurd (hall '/' (Percent.head?_encode hhead)) (by decide)

theorem Percent.not_isOuter_getLast?_encode {path : List Char}
    (h : ∀ c, path.getLast? = some c → Url.isOuter c = false) :
    ∀ c, (Percent.encode Percent.isControl path).getLast? = some c → Url.isOuter c = false := by
  intro c hc
  rcases List.eq_nil_or_concat' path with rfl | ⟨front, d, rfl⟩
  · exact absurd hc (by simp [Percent.encode])
  · have hd := h d List.getLast?_concat
    have hall : ∀ c ∈ Percent.encode Percent.isControl [d], (!Url.isOuter c) = true := by
      refine Percent.forall_mem_encode (fun c hc _ => ?_) (by decide) (by decide)
      obtain rfl := List.mem_singleton.1 hc
      simp [hd]
    simpa using hall c (Percent.getLast?_encode hc)

/-- A text without a query and a fragment is all path. -/
theorem Url.takeWhile_of_parseTail {special : Bool} {s : List Char}
    (h : Url.parseTail special (s.dropWhile fun c => !Url.endsPath c) = (none, none)) :
    s.takeWhile (fun c => !Url.endsPath c) = s := by
  cases htail : s.dropWhile fun c => !Url.endsPath c with
  | nil => exact List.takeWhile_eq_self_iff.2 (List.dropWhile_eq_nil_iff.1 htail)
  | cons c rest =>
    have hmark := List.head?_dropWhile_not (fun c => !Url.endsPath c) s
    rw [htail] at hmark h
    have hc : c = '?' ∨ c = '#' := by simpa [Url.endsPath, or_iff_not_imp_left] using hmark
    rcases hc with rfl | rfl
    · simp only [Url.parseTail] at h
      split at h <;> exact absurd h (by simp)
    · exact absurd h (by simp [Url.parseTail])

theorem Url.tailText_eq_empty {u : Url} (h : u.tailText = "") :
    u.query = none ∧ u.fragment = none := by
  unfold Url.tailText at h
  constructor
  · cases hq : u.query with
    | none => rfl
    | some q => exact absurd h (by simp [hq])
  · cases hf : u.fragment with
    | none => rfl
    | some f => exact absurd h (by simp [hf])

section Rootless

variable {scheme : String} {s : List Char}

/-- What comes of a text that is taken for a path, up to its query and its fragment. -/
def Url.rootlessAt (scheme : String) (s : List Char) : Url :=
  let path := s.takeWhile fun c => !Url.endsPath c
  let tail := Url.parseTail false (s.dropWhile fun c => !Url.endsPath c)
  ⟨scheme, none, .rootless (String.ofList (Percent.encode Percent.isControl path)), false, tail.1,
    tail.2⟩

theorem Url.rootless_of_path (hkind : Url.kindOf scheme = .other)
    (hlast : ∀ c, s.getLast? = some c → Url.isOuter c = false)
    (hfirst : (s.takeWhile fun c => !Url.endsPath c).head? ≠ some '/') :
    Url.ReadAfter scheme (Url.rootlessAt scheme s) := by
  have htail : (Url.rootlessAt scheme s).SoundTail := by
    obtain ⟨hquery, hfragment⟩ := Url.parseTail_sound false (s.dropWhile fun c => !Url.endsPath c)
    have hspecial : (Url.kindOf scheme).isSpecial = false := by rw [hkind]; rfl
    exact ⟨fun q hq c hc => (congrArg (Percent.inQuery · c) hspecial).trans (hquery q hq c hc),
      hfragment⟩
  refine ⟨rfl, htail, .rootless _ hkind ⟨rfl, rfl, rfl, fun c hc => ?_, ?_, fun c hc => ?_⟩⟩
  · rw [String.toList_ofList] at hc
    refine ⟨Percent.not_set_of_mem_encode (by decide) (by decide) hc, ?_⟩
    have hall := Percent.forall_mem_encode (p := fun c => !Url.endsPath c)
      (fun c hc _ => List.mem_takeWhile_imp (p := fun c => !Url.endsPath c) hc)
      (by decide) (by decide) c hc
    simpa using hall
  · rw [String.toList_ofList]
    exact Percent.head?_encode_ne_slash hfirst
  · -- The text ends in the query or the fragment, or else it is all path and ends as that does.
    by_cases hempty : (Url.rootlessAt scheme s).tailText = ""
    · obtain ⟨hquery, hfragment⟩ := Url.tailText_eq_empty hempty
      have hnone : Url.parseTail false (s.dropWhile fun c => !Url.endsPath c) = (none, none) :=
        Prod.ext hquery hfragment
      have hall := Url.takeWhile_of_parseTail hnone
      have hrest : (Url.rootlessAt scheme s).restText.toList =
          Percent.encode Percent.isControl s := by
        rw [Url.restText, hempty]
        simp [Url.rootlessAt, Url.Path.text, hall]
      rw [hrest] at hc
      exact Percent.not_isOuter_getLast?_encode hlast c hc
    · have hne : (Url.rootlessAt scheme s).tailText.toList ≠ [] := by simpa using hempty
      rw [Url.restText, String.toList_append, List.getLast?_append_of_ne_nil _ hne] at hc
      exact htail.not_isOuter c (List.mem_of_getLast? hc)

end Rootless

theorem Url.parseOther_sound {scheme : String} {s : List Char} {u : Url}
    (hkind : Url.kindOf scheme = .other)
    (hlast : ∀ c, s.getLast? = some c → Url.isOuter c = false)
    (h : Url.parseOther scheme s = .ok u) : Url.ReadAfter scheme u := by
  unfold Url.parseOther at h
  split at h
  · exact Url.parseAfterSlashes_sound (by simp [hkind]) h
  · simp only [] at h
    split at h
    · next path _ =>
      obtain rfl := Except.ok.inj h
      obtain ⟨first, rest, hsegments⟩ :=
        List.exists_cons_of_ne_nil (Path.follow_ne_nil (by decide : Url.Kind.other ≠ .file) path)
      have hsound := Path.sound_follow .other path
      rw [hsegments] at hsound ⊢
      obtain ⟨hrooted, htail⟩ := Url.rooted_withPath scheme none
        (s.dropWhile fun c => !Url.endsPath c) (hkind ▸ hsound)
      exact ⟨rfl, htail, .bare first rest hkind rfl hrooted⟩
    · next hne =>
      obtain rfl := Except.ok.inj h
      refine Url.rootless_of_path hkind hlast fun hhead => ?_
      obtain ⟨rest, hrest⟩ := List.head?_eq_some_iff.1 hhead
      exact hne rest hrest

theorem Url.kindOf_eq_file {scheme : String} (h : Url.kindOf scheme = .file) :
    scheme = "file" := by
  unfold Url.kindOf at h
  split at h
  · assumption
  · split at h <;> exact absurd h (by simp)

theorem Url.parse_sound {text : String} {u : Url} (h : Url.parse text = .ok u) : u.Sound := by
  simp only [Url.parse, Url.parseFrom] at h
  split at h
  · next scheme rest hscheme =>
    have hread : Url.ReadAfter scheme u := by
      unfold Url.parseWithScheme at h
      split at h
      · next hkind => exact Url.kindOf_eq_file hkind ▸ Url.parseFile_sound h
      · next hkind => exact Url.parseAfterSlashes_sound (by simp [hkind]) h
      · next hkind =>
        refine Url.parseOther_sound hkind (fun c hc => ?_) h
        exact Url.getLast?_trail (Url.getLast?_of_splitScheme? hscheme hc)
    exact ⟨hread.scheme ▸ Url.isScheme_of_splitScheme? hscheme, hread.tail, hread.form⟩
  · exact absurd h (by simp)

end Courier
