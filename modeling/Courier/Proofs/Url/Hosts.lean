import Courier.Proofs.Url.Addresses

set_option autoImplicit false

/-! # Hosts read again

A host is held in a text that is read as that host again: a name is in lower case and holds no
character that has to be written otherwise, and an address has a canonical text. The characters of
a host keep it apart from what stands around it in a URL. -/

namespace Courier

/-! ## Text in ASCII -/

/-- What holds of all characters of ASCII can be tried out. -/
theorem forall_ascii {p : Char → Bool} (h : ∀ k : Fin 128, p (Char.ofNat k.val) = true) {c : Char}
    (hc : c.toNat < 128) : p c = true := by
  have := h ⟨c.toNat, hc⟩
  rwa [Char.ofNat_toNat] at this

theorem utf8EncodeChar_of_lt {c : Char} (h : c.toNat < 128) :
    String.utf8EncodeChar c = [UInt8.ofNat c.toNat] :=
  if_pos (Nat.le_of_lt_succ h)

/-- The octets of some text in ASCII. -/
def asciiOctets (s : List Char) : Bytes := s.map fun c => UInt8.ofNat c.toNat

theorem Utf8.encode_of_ascii {s : List Char} (h : ∀ c ∈ s, c.toNat < 128) :
    Utf8.encode (String.ofList s) = asciiOctets s := by
  unfold Utf8.encode asciiOctets
  rw [String.toList_ofList]
  induction s with
  | nil => rfl
  | cons c s ih =>
    obtain ⟨hc, hs⟩ := List.forall_mem_cons.1 h
    rw [List.flatMap_cons, utf8EncodeChar_of_lt hc, ih hs]
    rfl

theorem Utf8.scan_of_ascii {s : List Char} (h : ∀ c ∈ s, c.toNat < 128) :
    Utf8.scan none (asciiOctets s) = s.map some := by
  induction s with
  | nil => rfl
  | cons c s ih =>
    obtain ⟨hc, hs⟩ := List.forall_mem_cons.1 h
    have hoctet : (UInt8.ofNat c.toNat).toNat = c.toNat := by
      simp
      omega
    have hlead : Utf8.lead (UInt8.ofNat c.toNat) = .char c := by
      simp only [Utf8.lead, hoctet, if_pos hc, Char.ofNat_toNat]
    show Utf8.scan none (UInt8.ofNat c.toNat :: asciiOctets s) = _
    rw [Utf8.scan, hlead, List.map_cons]
    simp only [ih hs]

theorem Utf8.decode?_of_ascii {s : List Char} (h : ∀ c ∈ s, c.toNat < 128) :
    Utf8.decode? (asciiOctets s) = some (String.ofList s) := by
  have hall : (s.map some).mapM id = some s := by
    rw [List.mapM_map]
    exact List.mapM_pure.trans (congrArg some (List.map_id s))
  rw [Utf8.decode?, Utf8.scan_of_ascii h, hall, Option.map_some]

theorem Percent.decode_cons {b : UInt8} (h : b ≠ 0x25) (rest : Bytes) :
    Percent.decode (b :: rest) = b :: Percent.decode rest := by
  rw [Percent.decode]
  rintro a b' s rfl rfl
  exact h rfl

theorem Percent.decode_of_forall {s : Bytes} (h : ∀ b ∈ s, b ≠ 0x25) : Percent.decode s = s := by
  induction s with
  | nil => rfl
  | cons b s ih =>
    obtain ⟨hb, hs⟩ := List.forall_mem_cons.1 h
    rw [Percent.decode_cons hb, ih hs]

/-- Text in ASCII without percent signs stands for itself. -/
theorem Percent.decode_ascii {s : List Char} (h : ∀ c ∈ s, c.toNat < 128 ∧ c ≠ '%') :
    Utf8.decode? (Percent.decode (Utf8.encode (String.ofList s))) = some (String.ofList s) := by
  have hascii : ∀ c ∈ s, c.toNat < 128 := fun c hc => (h c hc).1
  rw [Utf8.encode_of_ascii hascii, Percent.decode_of_forall, Utf8.decode?_of_ascii hascii]
  intro b hb
  obtain ⟨c, hc, rfl⟩ := List.mem_map.1 hb
  intro heq
  have hoctet : (UInt8.ofNat c.toNat).toNat = 0x25 := by rw [heq]; rfl
  have hnat : c.toNat = '%'.toNat := by
    have := hascii c hc
    simp at hoctet
    show c.toNat = 37
    omega
  exact (h c hc).2 (Char.toNat_inj.1 hnat)

/-- What holds of all decimal digits can be tried out. -/
theorem forall_isDigit {p : Char → Bool} (h : ∀ k : Fin 10, p (Char.ofNat (48 + k.val)) = true)
    {c : Char} (hc : c.isDigit = true) : p c = true := by
  rw [Char.isDigit, Bool.and_eq_true, decide_eq_true_eq, decide_eq_true_eq] at hc
  have hlow : 48 ≤ c.toNat := hc.1
  have hhigh : c.toNat ≤ 57 := hc.2
  have := h ⟨c.toNat - 48, by omega⟩
  rwa [show 48 + (c.toNat - 48) = c.toNat by omega, Char.ofNat_toNat] at this

/-! ## Names -/

theorem toLower_of_not_lt {c : Char} (h : ¬c.toNat < 128) : c.toLower = c := by
  refine dif_neg fun hupper => h ?_
  exact Nat.lt_of_le_of_lt (show c.toNat ≤ 'Z'.toNat from hupper.2) (by decide)

theorem toLower_toLower (c : Char) : c.toLower.toLower = c.toLower := by
  by_cases hc : c.toNat < 128
  · have hall : (c.toLower.toLower == c.toLower) = true :=
      forall_ascii (p := fun c => c.toLower.toLower == c.toLower) (by decide) hc
    exact beq_iff_eq.1 hall
  · rw [toLower_of_not_lt hc, toLower_of_not_lt hc]

/-- A text that can be the name of a host of the web. -/
structure Host.IsName (name : List Char) : Prop where
  allowed : ∀ c ∈ name, Host.isForbidden c = false
  lower : ∀ c ∈ name, c.toLower = c
  permitted : (splitAll (· == '.') name).all Punycode.isPermitted = true

theorem Host.isName_of_name? {s name : List Char} (h : Host.name? s = some name) :
    Host.IsName name := by
  unfold Host.name? at h
  split at h
  · exact absurd h (by simp)
  · next text _ =>
    simp only [Option.ite_none_left_eq_some, Bool.not_eq_true, List.any_eq_false] at h
    obtain ⟨hallowed, h⟩ := h
    split at h
    · next hpermitted =>
      obtain rfl := Option.some.inj h
      refine ⟨fun c hc => ?_, ?_, hpermitted⟩
      · simpa using hallowed c hc
      · intro c hc
        obtain ⟨d, -, rfl⟩ := List.mem_map.1 hc
        exact toLower_toLower d
    · exact absurd h (by simp)

theorem Host.ascii_of_not_isForbidden {c : Char} (h : Host.isForbidden c = false) :
    32 < c.toNat ∧ c.toNat < 127 ∧ c ∉ "%#/:<>?@[\\]^|".toList := by
  simp only [Host.isForbidden, Bool.or_eq_false_iff, decide_eq_false_iff_not, Nat.not_le,
    List.contains_eq_mem] at h
  exact ⟨h.1.1, h.1.2, h.2⟩

/-- A name is read as itself. -/
theorem Host.IsName.name? {name : List Char} (h : Host.IsName name) :
    Host.name? name = some name := by
  have hascii : ∀ c ∈ name, c.toNat < 128 ∧ c ≠ '%' := by
    intro c hc
    obtain ⟨-, hlt, hmark⟩ := Host.ascii_of_not_isForbidden (h.allowed c hc)
    refine ⟨Nat.lt_succ_of_lt hlt, ?_⟩
    rintro rfl
    exact hmark (by decide)
  have hlower : name.map Char.toLower = name :=
    (List.map_congr_left h.lower).trans (List.map_id name)
  have hallowed : name.any Host.isForbidden = false :=
    List.any_eq_false.2 fun c hc => by simp [h.allowed c hc]
  simp [Host.name?, Percent.decode_ascii hascii, hlower, hallowed, h.permitted]

/-! ## Characters in an authority -/

/-- Whether a character is visible and no mark of a URL. -/
def Url.isPlain (c : Char) : Bool := 32 < c.toNat && !"#/:?@[\\]".toList.contains c

theorem Host.IsName.isPlain {name : List Char} (h : Host.IsName name) {c : Char} (hc : c ∈ name) :
    Url.isPlain c = true := by
  have hlt : c.toNat < 127 := (Host.ascii_of_not_isForbidden (h.allowed c hc)).2.1
  have hall := forall_ascii (c := c) (p := fun c => Host.isForbidden c || Url.isPlain c) (by decide)
    (Nat.lt_succ_of_lt hlt)
  simpa [h.allowed c hc] using hall

theorem IsHexDigit.isPlain {c : Char} (h : IsHexDigit c) : Url.isPlain c = true :=
  h.of_forall (by decide)

/-- What holds of all characters of ASCII but the control characters can be tried out. -/
theorem Percent.forall_not_isControl {p : Char → Bool}
    (h : ∀ k : Fin 128, (Percent.isControl (Char.ofNat k.val) || p (Char.ofNat k.val)) = true)
    {c : Char} (hc : Percent.isControl c = false) : p c = true := by
  have hlt : c.toNat < 127 := by
    rw [Percent.isControl, Bool.or_eq_false_iff, decide_eq_false_iff_not,
      decide_eq_false_iff_not] at hc
    exact Nat.not_le.1 hc.2
  have hall := forall_ascii (p := fun c => Percent.isControl c || p c) h (Nat.lt_succ_of_lt hlt)
  simpa [hc] using hall

theorem Percent.not_isControl_of_inPath {c : Char} (h : Percent.inPath c = false) :
    Percent.isControl c = false := by
  simp only [Percent.inPath, Percent.inFragment, Bool.or_eq_false_iff] at h
  exact h.1.1.1.1.1.1.1.1.1

theorem Percent.mem_encode {set : Char → Bool} {s : List Char} {c : Char}
    (h : c ∈ Percent.encode set s) :
    c ∈ s ∧ set c = false ∨ c = '%' ∨ ∃ d < 16, c = Percent.digit d := by
  obtain ⟨d, hd, hc⟩ := List.mem_flatMap.1 h
  unfold Percent.encodeChar at hc
  split at hc
  · obtain ⟨b, -, hc⟩ := List.mem_flatMap.1 hc
    have hb : b.toNat < 256 := b.toNat_lt
    simp only [Percent.octet, List.mem_cons, List.not_mem_nil, or_false] at hc
    rcases hc with rfl | rfl | rfl
    · exact .inr (.inl rfl)
    · exact .inr (.inr ⟨_, by omega, rfl⟩)
    · exact .inr (.inr ⟨_, by omega, rfl⟩)
  · next hset =>
    obtain rfl := List.mem_singleton.1 hc
    exact .inl ⟨hd, Bool.eq_false_iff.2 hset⟩

/-- What holds of the characters that stay and of those that take the place of others holds of an
encoding. -/
theorem Percent.forall_mem_encode {set p : Char → Bool} {s : List Char}
    (hkept : ∀ c ∈ s, set c = false → p c = true) (hpercent : p '%' = true)
    (hdigit : ∀ k : Fin 16, p (Percent.digit k.val) = true) :
    ∀ c ∈ Percent.encode set s, p c = true := by
  intro c hc
  rcases Percent.mem_encode hc with ⟨hmem, hset⟩ | rfl | ⟨d, hd, rfl⟩
  · exact hkept c hmem hset
  · exact hpercent
  · exact hdigit ⟨d, hd⟩

/-- An encoding holds none of the characters that have to be encoded. -/
theorem Percent.not_set_of_mem_encode {set : Char → Bool} {s : List Char}
    (hpercent : set '%' = false) (hdigit : ∀ k : Fin 16, set (Percent.digit k.val) = false)
    {c : Char} (h : c ∈ Percent.encode set s) : set c = false := by
  have := Percent.forall_mem_encode (p := fun c => !set c) (fun c _ hset => by simp [hset])
    (by simp [hpercent]) (fun k => by simp [hdigit k]) c h
  simpa using this

theorem Percent.encode_of_forall {set : Char → Bool} {s : List Char}
    (h : ∀ c ∈ s, set c = false) : Percent.encode set s = s := by
  induction s with
  | nil => rfl
  | cons c s ih =>
    obtain ⟨hc, hs⟩ := List.forall_mem_cons.1 h
    show Percent.encodeChar set c ++ Percent.encode set s = c :: s
    rw [ih hs, Percent.encodeChar, if_neg (by simp [hc])]
    rfl

/-! ## Hosts -/

/-- The texts that hosts are held in: a text of plain characters, or an address in brackets. -/
inductive Host.Shape : String → Prop
  | plain {host : String} (h : ∀ c ∈ host.toList, Url.isPlain c = true) : Host.Shape host
  | bracketed (groups : List Nat) : Host.Shape ("[" ++ Ipv6.text groups ++ "]")

theorem Host.bracketed_text {groups : List Nat} (hlen : groups.length = 8) (h : Ipv6.Fits groups) :
    Host.bracketed ("[" ++ Ipv6.text groups ++ "]").toList =
      .ok ("[" ++ Ipv6.text groups ++ "]") := by
  have hchars : ("[" ++ Ipv6.text groups ++ "]").toList =
      '[' :: (Ipv6.text groups).toList ++ [']'] := by
    simp
  have hlast : ('[' :: (Ipv6.text groups).toList ++ [']']).getLast? = some ']' :=
    List.getLast?_concat
  have hinner : (('[' :: (Ipv6.text groups).toList ++ [']']).drop 1).dropLast =
      (Ipv6.text groups).toList := by
    simp
  unfold Host.bracketed
  rw [hchars, if_pos hlast, hinner, Ipv6.parse?_text hlen h]

theorem Host.bracketed_ok {s : List Char} {host : String} (h : Host.bracketed s = .ok host) :
    ∃ groups, groups.length = 8 ∧ Ipv6.Fits groups ∧ host = "[" ++ Ipv6.text groups ++ "]" := by
  unfold Host.bracketed at h
  split at h
  · split at h
    · next groups hgroups =>
      obtain ⟨hlen, hfits⟩ := Ipv6.fits_of_parse? hgroups
      exact ⟨groups, hlen, hfits, (Except.ok.inj h).symm⟩
    · exact absurd h (by simp)
  · exact absurd h (by simp)

theorem Host.head?_bracketed (text : String) :
    ("[" ++ text ++ "]").toList.head? = some '[' := by
  simp

/-! ### Hosts of the web -/

theorem Ipv4.mem_text {n : Nat} {c : Char} (h : c ∈ (Ipv4.text n).toList) :
    c.isDigit = true ∨ c = '.' := by
  rw [Ipv4.toList_text] at h
  rcases mem_of_mem_intercalate h with rfl | ⟨word, hword, hc⟩
  · exact .inr rfl
  · exact .inl (Ipv4.isDigit_of_mem_words hword c hc)

theorem Punycode.isPermitted_of_digits {label : List Char}
    (h : ∀ c ∈ label, c.isDigit = true) : Punycode.isPermitted label = true := by
  refine if_neg fun hlabel => ?_
  have hmem : 'x' ∈ label := List.mem_of_mem_take (by rw [hlabel]; exact List.mem_cons_self)
  exact absurd (h 'x' hmem) (by decide)

theorem Host.isName_ipv4 (n : Nat) : Host.IsName (Ipv4.text n).toList := by
  refine ⟨fun c hc => ?_, fun c hc => ?_, ?_⟩
  · rcases Ipv4.mem_text hc with hdigit | rfl
    · have := forall_isDigit (p := fun c => !Host.isForbidden c) (by decide) hdigit
      simpa using this
    · decide
  · rcases Ipv4.mem_text hc with hdigit | rfl
    · exact beq_iff_eq.1 (forall_isDigit (p := fun c => c.toLower == c) (by decide) hdigit)
    · rfl
  · rw [Ipv4.splitAll_text, List.all_eq_true]
    exact fun word hword => Punycode.isPermitted_of_digits (Ipv4.isDigit_of_mem_words hword)

/-- The last label of the text of an address is a number. -/
theorem Ipv4.isCandidate_text (n : Nat) : Ipv4.isCandidate (Ipv4.text n).toList = true := by
  have hlast : (Ipv4.words n).getLast? = some (toString (n % 256)).toList := by
    simp [Ipv4.words, Ipv4.octets]
  have hdigits : (toString (n % 256)).toList.all Char.isDigit = true :=
    List.all_eq_true.2 fun c => isDigit_of_mem_toString
  have hne : (toString (n % 256)).toList.isEmpty = false := by
    simp
  unfold Ipv4.isCandidate
  rw [Ipv4.labels_text, hlast]
  simp only [hdigits, hne]
  rfl

theorem Ipv4.text_ne_nil (n : Nat) : (Ipv4.text n).toList ≠ [] := by
  intro hnil
  have hwords := Ipv4.splitAll_text n
  rw [hnil] at hwords
  exact absurd (congrArg List.length hwords) (by simp [splitAll, Ipv4.words, Ipv4.octets])

theorem Host.IsName.head? {name : List Char} (h : Host.IsName name) : name.head? ≠ some '[' := by
  intro hhead
  exact absurd (h.allowed '[' (List.mem_of_mem_head? hhead)) (by decide)

theorem Host.IsName.parse {name : List Char} (h : Host.IsName name) (hne : name ≠ []) :
    Host.parse name =
      if Ipv4.isCandidate name then
        match Ipv4.parse? name with
        | some n => .ok (Ipv4.text n)
        | none => .error .invalidIpv4
      else .ok (String.ofList name) := by
  unfold Host.parse
  rw [if_neg h.head?, h.name?]
  exact if_neg (by simpa using hne)

/-- A host that is read is an address in brackets, an address of four octets, or a name. -/
theorem Host.parse_cases {s : List Char} {host : String} (h : Host.parse s = .ok host) :
    (∃ groups, groups.length = 8 ∧ Ipv6.Fits groups ∧ host = "[" ++ Ipv6.text groups ++ "]") ∨
      (∃ n < 2 ^ 32, host = Ipv4.text n) ∨
      ∃ name, Host.IsName name ∧ name ≠ [] ∧ Ipv4.isCandidate name = false ∧
        host = String.ofList name := by
  unfold Host.parse at h
  split at h
  · exact .inl (Host.bracketed_ok h)
  · split at h
    · exact absurd h (by simp)
    · next name hname =>
      split at h
      · exact absurd h (by simp)
      · next hempty =>
        split at h
        · split at h
          · next n hn => exact .inr (.inl ⟨n, Ipv4.lt_of_parse? hn, (Except.ok.inj h).symm⟩)
          · exact absurd h (by simp)
        · next hcandidate =>
          exact .inr (.inr ⟨name, Host.isName_of_name? hname, by simpa using hempty,
            by simpa using hcandidate, (Except.ok.inj h).symm⟩)

/-- **Reading a host of the web again.** A host is read as itself, is not empty, and has one of the
shapes of hosts. -/
theorem Host.parse_toList {s : List Char} {host : String} (h : Host.parse s = .ok host) :
    Host.parse host.toList = .ok host ∧ host ≠ "" ∧ Host.Shape host := by
  rcases Host.parse_cases h with ⟨groups, hlen, hfits, rfl⟩ | ⟨n, hn, rfl⟩ |
    ⟨name, hname, hne, hcandidate, rfl⟩
  · refine ⟨?_, by simp, .bracketed groups⟩
    rw [Host.parse, if_pos (Host.head?_bracketed _), Host.bracketed_text hlen hfits]
  · -- The text of an address is a name, and its last label is a number.
    have hname := Host.isName_ipv4 n
    refine ⟨?_, ?_, .plain fun c => hname.isPlain⟩
    · rw [hname.parse (Ipv4.text_ne_nil n), if_pos (Ipv4.isCandidate_text n), Ipv4.parse?_text hn]
    · exact fun hempty => Ipv4.text_ne_nil n (by rw [hempty]; rfl)
  · refine ⟨?_, ?_, .plain fun c hc => ?_⟩
    · rw [String.toList_ofList, hname.parse hne, if_neg (by simp [hcandidate])]
    · exact fun hempty => hne (String.ofList_eq_empty_iff.1 hempty)
    · rw [String.toList_ofList] at hc
      exact hname.isPlain hc

/-! ### Other hosts -/

theorem Host.isPlain_of_not_isInvalid {c : Char} (hcontrol : Percent.isControl c = false)
    (hinvalid : Host.isInvalid c = false) : Url.isPlain c = true := by
  have hall := Percent.forall_not_isControl (p := fun c => Host.isInvalid c || Url.isPlain c)
    (by decide) hcontrol
  simpa [hinvalid] using hall

/-- **Reading another host again.** A host of another scheme is read as itself and has one of the
shapes of hosts. -/
theorem Host.parseOther_toList {s : List Char} {host : String} (h : Host.parseOther s = .ok host) :
    Host.parseOther host.toList = .ok host ∧ Host.Shape host := by
  unfold Host.parseOther at h
  split at h
  · obtain ⟨groups, hlen, hfits, rfl⟩ := Host.bracketed_ok h
    refine ⟨?_, .bracketed groups⟩
    rw [Host.parseOther, if_pos (Host.head?_bracketed _), Host.bracketed_text hlen hfits]
  · split at h
    · exact absurd h (by simp)
    · next hinvalid =>
      obtain rfl := Except.ok.inj h
      have hvalid : ∀ c ∈ s, Host.isInvalid c = false := by simpa using hinvalid
      have hkept : ∀ c ∈ Percent.encode Percent.isControl s, (!Host.isInvalid c) = true :=
        Percent.forall_mem_encode (fun c hc _ => by simp [hvalid c hc]) (by decide) (by decide)
      have hshown : ∀ c ∈ Percent.encode Percent.isControl s, Percent.isControl c = false :=
        fun c => Percent.not_set_of_mem_encode (by decide) (by decide)
      have hhead : (Percent.encode Percent.isControl s).head? ≠ some '[' := fun hhead =>
        absurd (hkept '[' (List.mem_of_mem_head? hhead)) (by decide)
      simp only [Bool.not_eq_true'] at hkept
      refine ⟨?_, .plain fun c hc => ?_⟩
      · rw [String.toList_ofList, Host.parseOther, if_neg hhead,
          if_neg (by simpa using hkept), Percent.encode_of_forall hshown]
      · rw [String.toList_ofList] at hc
        exact Host.isPlain_of_not_isInvalid (hshown c hc) (hkept c hc)

end Courier
