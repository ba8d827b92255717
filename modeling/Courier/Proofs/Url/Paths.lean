import Courier.Proofs.Url.Authorities

set_option autoImplicit false

/-! # Paths read again

A path is read by splitting it at its slashes and following the segments one after another. What
comes of that is collected in `Path.Sound`: no segment holds a slash or a character that is written
otherwise, none consists of dots, and the path of a file begins with a segment that is not empty
unless it is the only one. Such segments with a slash before each are read as these segments again.
Only in the path of a file a first segment that begins with the name of a drive is taken apart. -/

namespace Courier

/-! ## Splitting -/

theorem mem_splitAll {mark : Char → Bool} {s word : List Char} (h : word ∈ splitAll mark s) :
    ∀ c ∈ word, mark c = false := by
  fun_induction splitAll mark s generalizing word with
  | case1 => exact List.mem_singleton.1 h ▸ fun c hc => absurd hc (by simp)
  | case2 c s hmark ih =>
    rcases List.mem_cons.1 h with rfl | h
    · exact fun c hc => absurd hc (by simp)
    · exact ih h
  | case3 c s hmark hnil ih =>
    obtain rfl := List.mem_singleton.1 h
    exact List.forall_mem_singleton.2 (Bool.eq_false_iff.2 hmark)
  | case4 c s hmark first rest hsplit ih =>
    rcases List.mem_cons.1 h with rfl | h
    · exact List.forall_mem_cons.2 ⟨Bool.eq_false_iff.2 hmark, ih (hsplit ▸ List.mem_cons_self)⟩
    · exact ih (hsplit ▸ List.mem_cons_of_mem _ h)

theorem map_ofList_toList (segments : List String) :
    (segments.map String.toList).map String.ofList = segments := by
  rw [List.map_map]
  exact (List.map_congr_left fun segment _ => String.ofList_toList).trans (List.map_id _)

/-- Segments with a slash before each. -/
def Path.slashed (segments : List String) : List Char :=
  segments.flatMap fun segment => '/' :: segment.toList

theorem Path.toList_text (segments : List String) :
    (Url.Path.rooted segments).text.toList = Path.slashed segments := by
  simp [Url.Path.text, Path.slashed, List.flatMap_map]

theorem Path.splitAll_slashed {mark : Char → Bool} (hslash : mark '/' = true) {first : String}
    {rest : List String} (h : ∀ segment ∈ first :: rest, ∀ c ∈ segment.toList, mark c = false) :
    splitAll mark (first.toList ++ Path.slashed rest) = (first :: rest).map String.toList := by
  obtain ⟨hfirst, hrest⟩ := List.forall_mem_cons.1 h
  induction rest generalizing first with
  | nil =>
    rw [Path.slashed, List.flatMap_nil, List.append_nil, splitAll_of_forall hfirst]
    rfl
  | cons second rest ih =>
    rw [Path.slashed, List.flatMap_cons, List.cons_append, splitAll_append_cons hfirst hslash]
    exact congrArg _ (ih hrest (hrest second List.mem_cons_self)
      fun segment hsegment => hrest segment (List.mem_cons_of_mem _ hsegment))

/-! ## Following segments -/

theorem Path.back_subset (done : List String) : Path.back done ⊆ done := by
  unfold Path.back
  split
  · split
    · exact List.Subset.refl done
    · exact List.dropLast_subset done
  · exact List.nil_subset done

/-- Whether a segment is followed as it is, and not for its dots. -/
def Path.Counts (segment : List Char) : Prop :=
  Path.isDotDot segment = false ∧ Path.isDot segment = false

/-- Each segment of a path was there before, is empty, or is one of those that are followed. -/
theorem Path.mem_walk {done : List String} {segs : List (List Char)} {segment : String}
    (h : segment ∈ Path.walk done segs) :
    segment ∈ done ∨ segment = "" ∨
      ∃ seg ∈ segs, Path.Counts seg ∧ segment = String.ofList seg := by
  fun_induction Path.walk done segs with
  | case1 done => exact .inl h
  | case2 done last hdots =>
    rcases List.mem_append.1 h with h | h
    · exact .inl (Path.back_subset done h)
    · exact .inr (.inl (List.mem_singleton.1 h))
  | case3 done last hdots hdot =>
    rcases List.mem_append.1 h with h | h
    · exact .inl h
    · exact .inr (.inl (List.mem_singleton.1 h))
  | case4 done last hdots hdot =>
    rcases List.mem_append.1 h with h | h
    · exact .inl h
    · exact .inr (.inr ⟨last, List.mem_cons_self,
        ⟨Bool.eq_false_iff.2 hdots, Bool.eq_false_iff.2 hdot⟩, List.mem_singleton.1 h⟩)
  | case5 done seg rest _ hdots ih =>
    rcases ih h with h | h | ⟨other, hother, h⟩
    · exact .inl (Path.back_subset done h)
    · exact .inr (.inl h)
    · exact .inr (.inr ⟨other, List.mem_cons_of_mem _ hother, h⟩)
  | case6 done seg rest _ hdots hdot ih =>
    rcases ih h with h | h | ⟨other, hother, h⟩
    · exact .inl h
    · exact .inr (.inl h)
    · exact .inr (.inr ⟨other, List.mem_cons_of_mem _ hother, h⟩)
  | case7 done seg rest _ hdots hdot ih =>
    rcases ih h with h | h | ⟨other, hother, h⟩
    · rcases List.mem_append.1 h with h | h
      · exact .inl h
      · exact .inr (.inr ⟨seg, List.mem_cons_self,
          ⟨Bool.eq_false_iff.2 hdots, Bool.eq_false_iff.2 hdot⟩, List.mem_singleton.1 h⟩)
    · exact .inr (.inl h)
    · exact .inr (.inr ⟨other, List.mem_cons_of_mem _ hother, h⟩)

theorem Path.walk_ne_nil (done : List String) {segs : List (List Char)} (h : segs ≠ []) :
    Path.walk done segs ≠ [] := by
  fun_induction Path.walk done segs with
  | case1 done => exact absurd rfl h
  | case2 done last hdots => simp
  | case3 done last hdots hdot => simp
  | case4 done last hdots hdot => simp
  | case5 done seg rest hmore hdots ih => exact ih hmore
  | case6 done seg rest hmore hdots hdot ih => exact ih hmore
  | case7 done seg rest hmore hdots hdot ih => exact ih hmore

/-- Segments without dots are all there in the end. -/
theorem Path.walk_of_forall (done : List String) {segs : List (List Char)}
    (h : ∀ seg ∈ segs, Path.Counts seg) :
    Path.walk done segs = done ++ segs.map String.ofList := by
  fun_induction Path.walk done segs with
  | case1 done => simp
  | case2 done last hdots => exact absurd hdots (by simp [(h last List.mem_cons_self).1])
  | case3 done last hdots hdot => exact absurd hdot (by simp [(h last List.mem_cons_self).2])
  | case4 done last hdots hdot => rfl
  | case5 done seg rest hmore hdots ih =>
    exact absurd hdots (by simp [(h seg List.mem_cons_self).1])
  | case6 done seg rest hmore hdots hdot ih =>
    exact absurd hdot (by simp [(h seg List.mem_cons_self).2])
  | case7 done seg rest hmore hdots hdot ih =>
    rw [ih fun other hother => h other (List.mem_cons_of_mem _ hother)]
    simp

/-! ## Drives -/

theorem Path.mem_withColon {s : List Char} {c : Char} (h : c ∈ Path.withColon s) :
    c ∈ s ∨ c = ':' := by
  unfold Path.withColon at h
  split at h
  · rcases List.mem_append.1 h with h | h
    · exact .inl (List.mem_of_mem_take h)
    · exact .inr (List.mem_singleton.1 h)
  · exact .inl h

theorem Path.isDrive_cases {s : List Char} (h : Path.isDrive s = true) :
    ∃ a b, s = [a, b] ∧ a.isAlpha = true ∧ (b = ':' ∨ b = '|') := by
  unfold Path.isDrive at h
  split at h
  · next a b =>
    simp only [Bool.and_eq_true, Bool.or_eq_true, beq_iff_eq] at h
    exact ⟨a, b, rfl, h⟩
  · exact absurd h (by simp)

theorem Path.withColon_withColon (s : List Char) :
    Path.withColon (Path.withColon s) = Path.withColon s := by
  by_cases h : Path.isDrive s = true
  · obtain ⟨a, b, rfl, halpha, -⟩ := Path.isDrive_cases h
    have hcolon : Path.withColon [a, b] = [a, ':'] := if_pos h
    rw [hcolon]
    exact if_pos (by simp [Path.isDrive, halpha])
  · rw [show Path.withColon s = s from if_neg h]
    exact if_neg h

theorem Path.mem_splitDrive {segs : List (List Char)} {seg : List Char}
    (h : seg ∈ Path.splitDrive segs) : ∀ c ∈ seg, ∃ other ∈ segs, c ∈ other := by
  unfold Path.splitDrive at h
  split at h
  · next a c s rest =>
    have hpiece : seg ∈ rest ∨ seg ⊆ a :: ':' :: c :: s := by
      split at h
      · rcases List.mem_cons.1 h with rfl | h
        · exact .inr (by simp)
        · rcases List.mem_cons.1 h with rfl | h
          · exact .inr fun d hd => List.mem_cons_of_mem _ (List.mem_cons_of_mem _ hd)
          · exact .inl h
      · rcases List.mem_cons.1 h with rfl | h
        · exact .inr (List.Subset.refl _)
        · exact .inl h
    intro d hd
    rcases hpiece with hrest | hfirst
    · exact ⟨seg, List.mem_cons_of_mem _ hrest, hd⟩
    · exact ⟨_, List.mem_cons_self, hfirst hd⟩
  · exact fun c hc => ⟨seg, h, hc⟩

/-! ## Paths that have been read -/

/-- Whether a character can stand in a segment. -/
def Path.isHeld (kind : Url.Kind) (c : Char) : Bool :=
  !Percent.inPath c && !Path.isSlash kind.isSpecial c

/-- What is known of a segment that has been read. -/
structure Path.IsSegment (kind : Url.Kind) (segment : String) : Prop where
  held : ∀ c ∈ segment.toList, Path.isHeld kind c = true
  counts : Path.Counts segment.toList
  colon : kind = .file → Path.withColon segment.toList = segment.toList

/-- What is known of a path that has been read. -/
structure Path.Sound (kind : Url.Kind) (segments : List String) : Prop where
  each : ∀ segment ∈ segments, Path.IsSegment kind segment
  nonempty : kind.isSpecial = true → segments ≠ []
  front : kind = .file → segments = [""] ∨ segments.head? ≠ some ""

theorem Path.IsSegment.empty (kind : Url.Kind) : Path.IsSegment kind "" :=
  ⟨fun c hc => absurd hc (by simp), by constructor <;> decide, fun _ => rfl⟩

/-- The segments of some text, encoded. -/
def Path.encoded (kind : Url.Kind) (s : List Char) : List (List Char) :=
  (splitAll (Path.isSlash kind.isSpecial) s).map (Percent.encode Percent.inPath)

theorem Path.isHeld_of_mem_encoded {kind : Url.Kind} {s seg : List Char}
    (h : seg ∈ Path.encoded kind s) : ∀ c ∈ seg, Path.isHeld kind c = true := by
  obtain ⟨word, hword, rfl⟩ := List.mem_map.1 h
  refine Percent.forall_mem_encode (fun c hc hset => ?_) ?_ ?_
  · simp [Path.isHeld, hset, mem_splitAll hword c hc]
  all_goals cases kind <;> decide

theorem Path.encoded_ne_nil (kind : Url.Kind) (s : List Char) : Path.encoded kind s ≠ [] := by
  simpa [Path.encoded] using splitAll_ne_nil _ s

theorem Path.follow_of_ne_file {kind : Url.Kind} (hkind : kind ≠ .file) (s : List Char) :
    Path.follow kind [] s = Path.walk [] (Path.encoded kind s) :=
  if_neg hkind

theorem Path.follow_ne_nil {kind : Url.Kind} (hkind : kind ≠ .file) (s : List Char) :
    Path.follow kind [] s ≠ [] := by
  rw [Path.follow_of_ne_file hkind]
  exact Path.walk_ne_nil _ (Path.encoded_ne_nil kind s)

theorem Path.follow_file (s : List Char) :
    Path.follow .file [] s = Path.trimFront (Path.walk []
      ((Path.splitDrive (Path.encoded .file s)).map Path.withColon)) := rfl

theorem Path.mem_trimFront {segs : List String} {segment : String}
    (h : segment ∈ Path.trimFront segs) : segment = "" ∨ segment ∈ segs := by
  unfold Path.trimFront at h
  split at h
  · exact .inl (List.mem_singleton.1 h)
  · exact .inr ((List.dropWhile_suffix _).subset h)

theorem Path.trimFront_front (segs : List String) :
    Path.trimFront segs ≠ [] ∧
      (Path.trimFront segs = [""] ∨ (Path.trimFront segs).head? ≠ some "") := by
  unfold Path.trimFront
  split
  · exact ⟨by simp, .inl rfl⟩
  · next hsegs =>
    refine ⟨hsegs, .inr fun hhead => ?_⟩
    have hfirst := List.head?_dropWhile_not (·.isEmpty) segs
    rw [hhead] at hfirst
    exact absurd hfirst (by simp)

theorem Path.sound_follow (kind : Url.Kind) (s : List Char) :
    Path.Sound kind (Path.follow kind [] s) := by
  by_cases hkind : kind = .file
  · subst hkind
    rw [Path.follow_file]
    obtain ⟨hsome, hfront⟩ := Path.trimFront_front (Path.walk []
      ((Path.splitDrive (Path.encoded .file s)).map Path.withColon))
    refine ⟨fun segment h => ?_, fun _ => hsome, fun _ => hfront⟩
    rcases Path.mem_trimFront h with rfl | h
    · exact .empty _
    rcases Path.mem_walk h with h | rfl | ⟨seg, hseg, hcounts, rfl⟩
    · exact absurd h (by simp)
    · exact .empty _
    obtain ⟨piece, hpiece, rfl⟩ := List.mem_map.1 hseg
    refine ⟨?_, ?_, fun _ => ?_⟩
    · intro c hc
      rw [String.toList_ofList] at hc
      rcases Path.mem_withColon hc with hc | rfl
      · obtain ⟨other, hother, hc⟩ := Path.mem_splitDrive hpiece c hc
        exact Path.isHeld_of_mem_encoded hother c hc
      · decide
    · rwa [String.toList_ofList]
    · rw [String.toList_ofList, Path.withColon_withColon]
  · rw [Path.follow_of_ne_file hkind]
    refine ⟨fun segment h => ?_, fun _ => Path.walk_ne_nil _ (Path.encoded_ne_nil kind s),
      fun hfile => absurd hfile hkind⟩
    rcases Path.mem_walk h with h | rfl | ⟨seg, hseg, hcounts, rfl⟩
    · exact absurd h (by simp)
    · exact .empty _
    · refine ⟨?_, ?_, fun hfile => absurd hfile hkind⟩
      · rw [String.toList_ofList]
        exact Path.isHeld_of_mem_encoded hseg
      · rwa [String.toList_ofList]

theorem Path.sound_root (kind : Url.Kind) : Path.Sound kind [""] :=
  ⟨List.forall_mem_singleton.2 (.empty kind), fun _ => by simp, fun _ => .inl rfl⟩

theorem Path.sound_parse (kind : Url.Kind) (s : List Char) :
    Path.Sound kind (Path.parse kind s) := by
  unfold Path.parse
  split
  · split
    · exact Path.sound_root kind
    · next hspecial =>
      exact ⟨fun segment h => absurd h (by simp), fun h => absurd h hspecial,
        fun hfile => absurd (hfile ▸ rfl) hspecial⟩
  · split
    · exact Path.sound_follow kind _
    · exact Path.sound_follow kind _

/-! ## Reading the text of a path -/

theorem Path.not_inPath_of_isHeld {kind : Url.Kind} {c : Char} (h : Path.isHeld kind c = true) :
    Percent.inPath c = false ∧ Path.isSlash kind.isSpecial c = false := by
  simpa [Path.isHeld] using h

section Slashed

variable {kind : Url.Kind} {first : String} {rest : List String}

theorem Path.encoded_slashed
    (h : ∀ segment ∈ first :: rest, ∀ c ∈ segment.toList, Path.isHeld kind c = true) :
    Path.encoded kind (first.toList ++ Path.slashed rest) = (first :: rest).map String.toList := by
  have hslash : ∀ segment ∈ first :: rest, ∀ c ∈ segment.toList,
      Path.isSlash kind.isSpecial c = false :=
    fun segment hsegment c hc => (Path.not_inPath_of_isHeld (h segment hsegment c hc)).2
  rw [Path.encoded, Path.splitAll_slashed rfl hslash, List.map_map]
  refine List.map_congr_left fun segment hsegment => ?_
  exact Percent.encode_of_forall fun c hc => (Path.not_inPath_of_isHeld (h segment hsegment c hc)).1

theorem Path.walk_segments (h : ∀ segment ∈ first :: rest, Path.IsSegment kind segment) :
    Path.walk [] ((first :: rest).map String.toList) = first :: rest := by
  rw [Path.walk_of_forall, List.nil_append, map_ofList_toList]
  intro seg hseg
  obtain ⟨segment, hsegment, rfl⟩ := List.mem_map.1 hseg
  exact (h segment hsegment).counts

theorem Path.trimFront_of_front (h : first :: rest = [""] ∨ (first :: rest).head? ≠ some "") :
    Path.trimFront (first :: rest) = first :: rest := by
  rcases h with h | h
  · rw [h]
    rfl
  · have hfirst : ¬first.isEmpty = true := by simpa using h
    unfold Path.trimFront
    rw [List.dropWhile_cons_of_neg hfirst]

/-- Segments with a slash before each are read as these segments. -/
theorem Path.Sound.follow_slashed (h : Path.Sound kind (first :: rest))
    (hdrive : kind = .file → Path.splitDrive ((first :: rest).map String.toList) =
      (first :: rest).map String.toList) :
    Path.follow kind [] (first.toList ++ Path.slashed rest) = first :: rest := by
  have hheld := fun segment hsegment => (h.each segment hsegment).held
  by_cases hkind : kind = .file
  · subst hkind
    have hcolon : ((first :: rest).map String.toList).map Path.withColon =
        (first :: rest).map String.toList := by
      rw [List.map_map]
      exact List.map_congr_left fun segment hsegment => (h.each segment hsegment).colon rfl
    rw [Path.follow_file, Path.encoded_slashed hheld, hdrive rfl, hcolon,
      Path.walk_segments h.each, Path.trimFront_of_front (h.front rfl)]
  · rw [Path.follow_of_ne_file hkind, Path.encoded_slashed hheld, Path.walk_segments h.each]

/-- A segment of one dot before them changes nothing. -/
theorem Path.Sound.follow_dot (h : Path.Sound .other (first :: rest)) :
    Path.follow .other [] ('.' :: Path.slashed (first :: rest)) = first :: rest := by
  have hheld : ∀ segment ∈ "." :: first :: rest, ∀ c ∈ segment.toList,
      Path.isHeld .other c = true :=
    List.forall_mem_cons.2 ⟨List.forall_mem_singleton.2 rfl,
      fun segment hsegment => (h.each segment hsegment).held⟩
  calc Path.follow .other [] ('.' :: Path.slashed (first :: rest))
      = Path.walk [] (("." :: first :: rest).map String.toList) :=
        congrArg (Path.walk []) (Path.encoded_slashed hheld)
    _ = Path.walk [] ((first :: rest).map String.toList) := rfl
    _ = first :: rest := Path.walk_segments h.each

end Slashed

theorem Path.parse_slashed_cons (kind : Url.Kind) (first : String) (rest : List String) :
    Path.parse kind (Path.slashed (first :: rest)) =
      Path.follow kind [] (first.toList ++ Path.slashed rest) := rfl

theorem Path.Sound.parse_slashed {kind : Url.Kind} {segments : List String}
    (h : Path.Sound kind segments)
    (hdrive : kind = .file →
      Path.splitDrive (segments.map String.toList) = segments.map String.toList) :
    Path.parse kind (Path.slashed segments) = segments := by
  cases segments with
  | nil =>
    have hspecial : ¬kind.isSpecial = true := fun hspecial => h.nonempty hspecial rfl
    exact if_neg hspecial
  | cons first rest =>
    rw [Path.parse_slashed_cons, h.follow_slashed hdrive]

end Courier
