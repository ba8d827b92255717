import Courier.Url.Host
import Mathlib.Algebra.Order.Group.Nat
import Mathlib.Data.List.Induction
import Mathlib.Data.List.TakeWhile

set_option autoImplicit false

/-! # Addresses in hosts

An IPv4 address is held as four decimal octets, an IPv6 address as hexadecimal groups of which the
longest run of zeros is left out. Both texts are read back as the address that they were made of,
for every address that can come of reading. -/

namespace Courier

/-! ## Parts between marks -/

section Parts

variable {mark : Char → Bool} {m : Char}

theorem splitAll_ne_nil (mark : Char → Bool) (s : List Char) : splitAll mark s ≠ [] := by
  fun_cases splitAll mark s <;> simp

theorem splitAll_append_cons {word : List Char} (hword : ∀ c ∈ word, mark c = false)
    (hm : mark m = true) (rest : List Char) :
    splitAll mark (word ++ m :: rest) = word :: splitAll mark rest := by
  induction word with
  | nil => simp [splitAll, hm]
  | cons c word ih =>
    obtain ⟨hc, hrest⟩ := List.forall_mem_cons.1 hword
    rw [List.cons_append, splitAll, if_neg (by simp [hc]), ih hrest]

theorem splitAll_of_forall {word : List Char} (hword : ∀ c ∈ word, mark c = false) :
    splitAll mark word = [word] := by
  induction word with
  | nil => rfl
  | cons c word ih =>
    obtain ⟨hc, hrest⟩ := List.forall_mem_cons.1 hword
    rw [splitAll, if_neg (by simp [hc]), ih hrest]

/-- A mark parts what stands before it from what stands behind it. -/
theorem splitAll_append (hm : mark m = true) (s rest : List Char) :
    splitAll mark (s ++ m :: rest) = splitAll mark s ++ splitAll mark rest := by
  induction s with
  | nil => simp [splitAll, hm]
  | cons c s ih =>
    rw [List.cons_append, splitAll, splitAll, ih]
    obtain ⟨word, words, hsplit⟩ := List.exists_cons_of_ne_nil (splitAll_ne_nil mark s)
    rw [hsplit]
    split <;> rfl

/-- Words with marks between them are the parts that they make up. -/
theorem splitAll_intercalate (hm : mark m = true) {words : List (List Char)} (hne : words ≠ [])
    (hwords : ∀ word ∈ words, ∀ c ∈ word, mark c = false) :
    splitAll mark ([m].intercalate words) = words := by
  induction words with
  | nil => exact absurd rfl hne
  | cons word rest ih =>
    obtain ⟨hword, hrest⟩ := List.forall_mem_cons.1 hwords
    cases rest with
    | nil => simpa using splitAll_of_forall hword
    | cons next rest =>
      rw [List.intercalate_cons_cons, List.append_assoc, List.singleton_append,
        splitAll_append_cons hword hm, ih (by simp) hrest]

theorem mem_of_mem_intercalate {c : Char} {words : List (List Char)}
    (h : c ∈ [m].intercalate words) : c = m ∨ ∃ word ∈ words, c ∈ word := by
  induction words with
  | nil => exact absurd h (by simp)
  | cons word rest ih =>
    cases rest with
    | nil => exact .inr ⟨word, by simp, by simpa using h⟩
    | cons next rest =>
      rw [List.intercalate_cons_cons] at h
      rcases List.mem_append.1 h with h | h
      · rcases List.mem_append.1 h with h | h
        · exact .inr ⟨word, List.mem_cons_self, h⟩
        · exact .inl (List.mem_singleton.1 h)
      · rcases ih h with rfl | ⟨other, hother, hc⟩
        · exact .inl rfl
        · exact .inr ⟨other, List.mem_cons_of_mem _ hother, hc⟩

end Parts

/-! ## Digits -/

/-- The value of a character as a digit of any base. -/
def digitOf? (c : Char) : Option Nat :=
  if c.toNat < 128 then hexValue? (UInt8.ofNat c.toNat) else none

/-- One more digit. -/
theorem numberIn?_concat (base : Nat) (s : List Char) (c : Char) :
    numberIn? base (s ++ [c]) = match numberIn? base s, digitOf? c with
      | some n, some d => if d < base then some (n * base + d) else none
      | _, _ => none := by
  unfold numberIn?
  rw [List.foldl_append]
  rfl

/-- A number of some digits is below the power of the base. -/
theorem numberIn?_lt {base n : Nat} {s : List Char} (h : numberIn? base s = some n) :
    n < base ^ s.length := by
  induction s using List.reverseRecOn generalizing n with
  | nil =>
    obtain rfl := Option.some.inj h
    exact Nat.one_pos
  | append_singleton s c ih =>
    rw [numberIn?_concat] at h
    cases hs : numberIn? base s with
    | none => simp [hs] at h
    | some m =>
      cases hd : digitOf? c with
      | none => simp [hs, hd] at h
      | some d =>
        simp only [hs, hd, Option.ite_none_right_eq_some, Option.some.injEq] at h
        obtain ⟨hlt, rfl⟩ := h
        have hm : m + 1 ≤ base ^ s.length := ih hs
        calc m * base + d < (m + 1) * base := by rw [Nat.add_mul]; omega
          _ ≤ base ^ s.length * base := Nat.mul_le_mul_right base hm
          _ = base ^ (s ++ [c]).length := by rw [List.length_append]; rfl

theorem digitOf?_hexDigit {d : Nat} (h : d < 16) : digitOf? (hexDigit d) = some d := by
  have hall : ∀ k : Fin 16, digitOf? (hexDigit k.val) = some k.val := by decide
  exact hall ⟨d, h⟩

/-- A number in hexadecimal is read as itself. -/
theorem numberIn?_hexText (n : Nat) : numberIn? 16 (hexText n) = some n := by
  fun_induction hexText n with
  | case1 n h =>
    have hone := numberIn?_concat 16 [] (hexDigit n)
    rw [List.nil_append, digitOf?_hexDigit h] at hone
    rw [hone]
    simp [numberIn?, h]
  | case2 n h ih =>
    have hlt : n % 16 < 16 := Nat.mod_lt n (by decide)
    rw [numberIn?_concat, ih, digitOf?_hexDigit hlt]
    simp only [if_pos hlt, Option.some.injEq]
    omega

/-- The characters of numbers in hexadecimal. -/
def IsHexDigit (c : Char) : Prop := ∃ d < 16, c = hexDigit d

theorem isHexDigit_of_mem_hexText {n : Nat} {c : Char} (h : c ∈ hexText n) : IsHexDigit c := by
  fun_induction hexText n with
  | case1 n hn => exact ⟨n, hn, List.mem_singleton.1 h⟩
  | case2 n hn ih =>
    rcases List.mem_append.1 h with h | h
    · exact ih h
    · exact ⟨n % 16, Nat.mod_lt n (by decide), List.mem_singleton.1 h⟩

/-- What all hexadecimal digits have in common can be tried out. -/
theorem IsHexDigit.of_forall {p : Char → Bool} (h : ∀ k : Fin 16, p (hexDigit k.val) = true)
    {c : Char} (hc : IsHexDigit c) : p c = true := by
  obtain ⟨d, hd, rfl⟩ := hc
  exact h ⟨d, hd⟩

theorem hexText_ne_nil (n : Nat) : hexText n ≠ [] := by
  rw [hexText]
  split <;> simp

theorem length_hexText_le {n k : Nat} (h : n < 16 ^ (k + 1)) : (hexText n).length ≤ k + 1 := by
  induction k generalizing n with
  | zero => rw [hexText, if_pos (by simpa using h)]; rfl
  | succ k ih =>
    rw [hexText]
    split
    · exact Nat.le_add_left 1 _
    · have hdiv : n / 16 < 16 ^ (k + 1) := by
        rw [Nat.div_lt_iff_lt_mul (by decide)]
        rwa [Nat.pow_succ] at h
      rw [List.length_append]
      exact Nat.succ_le_succ (ih hdiv)

/-! ## IPv4 -/

/-- An octet in decimal is read as a part of an address. -/
theorem Ipv4.part?_toString {n : Nat} (h : n < 256) : Ipv4.part? (toString n).toList = some n := by
  have hall : ∀ k : Fin 256, Ipv4.part? (toString k.val).toList = some k.val := by decide +kernel
  exact hall ⟨n, h⟩

/-- The four octets of an address. -/
def Ipv4.octets (n : Nat) : List Nat := [n / 16777216, n / 65536 % 256, n / 256 % 256, n % 256]

/-- The octets of an address as words. -/
def Ipv4.words (n : Nat) : List (List Char) := (Ipv4.octets n).map fun k => (toString k).toList

theorem isDigit_of_mem_toString {n : Nat} {c : Char} (h : c ∈ (toString n).toList) :
    c.isDigit = true := by
  rw [Nat.toString_eq_ofList_toDigits, String.toList_ofList] at h
  exact Nat.isDigit_of_mem_toDigits (by decide) (by decide) h

theorem Ipv4.toList_text (n : Nat) : (Ipv4.text n).toList = ['.'].intercalate (Ipv4.words n) := by
  simp [Ipv4.text, Ipv4.words, Ipv4.octets]

theorem Ipv4.isDigit_of_mem_words {n : Nat} {word : List Char} (hword : word ∈ Ipv4.words n) :
    ∀ c ∈ word, c.isDigit = true := by
  obtain ⟨k, -, rfl⟩ := List.mem_map.1 hword
  exact fun c => isDigit_of_mem_toString

theorem Ipv4.splitAll_text (n : Nat) :
    splitAll (· == '.') (Ipv4.text n).toList = Ipv4.words n := by
  rw [Ipv4.toList_text]
  refine splitAll_intercalate (by rfl) (by simp [Ipv4.words, Ipv4.octets]) ?_
  intro word hword c hc
  have hdigit := Ipv4.isDigit_of_mem_words hword c hc
  rw [beq_eq_false_iff_ne]
  rintro rfl
  exact absurd hdigit (by decide)

theorem Ipv4.labels_text (n : Nat) : Ipv4.labels (Ipv4.text n).toList = Ipv4.words n := by
  unfold Ipv4.labels
  rw [Ipv4.splitAll_text]
  refine if_neg ?_
  simp [Ipv4.words, Ipv4.octets]

theorem Ipv4.mapM_part?_octets {octets : List Nat} (h : ∀ k ∈ octets, k < 256) :
    (octets.map fun k => (toString k).toList).mapM Ipv4.part? = some octets := by
  induction octets with
  | nil => rfl
  | cons k rest ih =>
    obtain ⟨hk, hrest⟩ := List.forall_mem_cons.1 h
    rw [List.map_cons, List.mapM_cons, Ipv4.part?_toString hk, ih hrest]
    rfl

theorem Ipv4.lt_of_mem_octets {n k : Nat} (h : n < 2 ^ 32) (hk : k ∈ Ipv4.octets n) : k < 256 := by
  simp only [Ipv4.octets, List.mem_cons, List.not_mem_nil, or_false] at hk
  omega

theorem Ipv4.ofParts?_of_four {a b c d : Nat} (ha : a < 256) (hb : b < 256) (hc : c < 256)
    (hd : d < 256) : Ipv4.ofParts? [a, b, c, d] = some (((a * 256 + b) * 256 + c) * 256 + d) := by
  unfold Ipv4.ofParts?
  rw [if_neg]
  · simp
  · simp
    omega

theorem Ipv4.ofParts?_octets {n : Nat} (h : n < 2 ^ 32) :
    Ipv4.ofParts? (Ipv4.octets n) = some n := by
  have hparts := Ipv4.ofParts?_of_four (a := n / 16777216) (b := n / 65536 % 256)
    (c := n / 256 % 256) (d := n % 256) (by omega) (by omega) (by omega) (by omega)
  rw [Ipv4.octets, hparts, Option.some.injEq]
  omega

/-- The text of an address is read as that address. -/
theorem Ipv4.parse?_text {n : Nat} (h : n < 2 ^ 32) :
    Ipv4.parse? (Ipv4.text n).toList = some n := by
  unfold Ipv4.parse?
  rw [Ipv4.labels_text]
  unfold Ipv4.words
  rw [Ipv4.mapM_part?_octets fun k => Ipv4.lt_of_mem_octets h]
  exact Ipv4.ofParts?_octets h

theorem foldl_octets_lt {octets : List Nat} (h : ∀ k ∈ octets, k < 256) (n : Nat) :
    octets.foldl (fun n k => n * 256 + k) n < (n + 1) * 256 ^ octets.length := by
  induction octets generalizing n with
  | nil => simp
  | cons k octets ih =>
    obtain ⟨hk, hoctets⟩ := List.forall_mem_cons.1 h
    calc octets.foldl (fun n k => n * 256 + k) (n * 256 + k)
        < (n * 256 + k + 1) * 256 ^ octets.length := ih hoctets _
      _ ≤ (n + 1) * 256 * 256 ^ octets.length := Nat.mul_le_mul_right _ (by omega)
      _ = (n + 1) * 256 ^ (k :: octets).length := by
        rw [List.length_cons, Nat.pow_succ, Nat.mul_assoc, Nat.mul_comm 256]

theorem foldl_octets_zeros (k n : Nat) :
    (List.replicate k 0).foldl (fun n p => n * 256 + p) n = n * 256 ^ k := by
  induction k generalizing n with
  | zero => simp
  | succ k ih =>
    rw [List.replicate_succ, List.foldl_cons, ih, Nat.pow_succ, Nat.add_zero, Nat.mul_assoc,
      Nat.mul_comm 256]

/-- An address that is read fits four octets. -/
theorem Ipv4.lt_of_ofParts? {parts : List Nat} {n : Nat} (h : Ipv4.ofParts? parts = some n) :
    n < 2 ^ 32 := by
  simp only [Ipv4.ofParts?] at h
  split at h
  · exact absurd h (by simp)
  · next hcheck =>
    simp only [not_or, Nat.not_lt, Nat.not_le, Bool.not_eq_true, List.any_eq_false,
      decide_eq_true_eq] at hcheck
    obtain ⟨-, hlen, hfront, hlast⟩ := hcheck
    obtain rfl := Option.some.inj h
    set front := parts.dropLast with hdef
    have hlt : ∀ k ∈ front, k < 256 := fun k hk => Nat.lt_succ_of_le (hfront k hk)
    have hshort : front.length ≤ 4 := by
      rw [hdef, List.length_dropLast]
      omega
    -- The last part fills the octets that those in front of it leave.
    have hfold := foldl_octets_lt hlt 0
    rw [Nat.zero_add, Nat.one_mul] at hfold
    rw [List.foldl_append, foldl_octets_zeros]
    calc front.foldl (fun n k => n * 256 + k) 0 * 256 ^ (4 - front.length) + parts.getLastD 0
        < front.foldl (fun n k => n * 256 + k) 0 * 256 ^ (4 - front.length) +
            256 ^ (4 - front.length) := Nat.add_lt_add_left hlast _
      _ = (front.foldl (fun n k => n * 256 + k) 0 + 1) * 256 ^ (4 - front.length) :=
        (Nat.succ_mul _ _).symm
      _ ≤ 256 ^ front.length * 256 ^ (4 - front.length) := Nat.mul_le_mul_right _ hfold
      _ = 2 ^ 32 := by
        rw [← Nat.pow_add, Nat.add_sub_cancel' hshort]
        rfl

theorem Ipv4.lt_of_parse? {s : List Char} {n : Nat} (h : Ipv4.parse? s = some n) : n < 2 ^ 32 := by
  obtain ⟨parts, -, hparts⟩ := Option.bind_eq_some_iff.1 h
  exact Ipv4.lt_of_ofParts? hparts

/-! ## IPv6 -/

theorem IsHexDigit.ne_colon {c : Char} (h : IsHexDigit c) : c ≠ ':' := by
  have hne : (c != ':') = true := h.of_forall (p := fun c => c != ':') (by decide)
  exact bne_iff_ne.1 hne

theorem IsHexDigit.ne_dot {c : Char} (h : IsHexDigit c) : c ≠ '.' := by
  have hne : (c != '.') = true := h.of_forall (p := fun c => c != '.') (by decide)
  exact bne_iff_ne.1 hne

/-- Whether every number of a list fits a group of an IPv6 address. -/
def Ipv6.Fits (groups : List Nat) : Prop := ∀ g ∈ groups, g < 65536

theorem Ipv6.group?_hexText {g : Nat} (h : g < 65536) : Ipv6.group? (hexText g) = some g := by
  have hlen : (hexText g).length ≤ 4 := length_hexText_le (k := 3) h
  unfold Ipv6.group?
  rw [if_neg (by simpa [hexText_ne_nil] using hlen), numberIn?_hexText]

theorem Ipv6.groups?_hexText {groups : List Nat} (h : Ipv6.Fits groups) :
    Ipv6.groups? (groups.map hexText) = some groups := by
  induction groups with
  | nil => rfl
  | cons g rest ih =>
    obtain ⟨hg, hrest⟩ := List.forall_mem_cons.1 h
    cases rest with
    | nil =>
      have hdot : ¬ (hexText g).contains '.' = true := by
        rw [List.contains_iff_mem]
        exact fun hmem => (isHexDigit_of_mem_hexText hmem).ne_dot rfl
      simp only [List.map_cons, List.map_nil, Ipv6.groups?, Ipv6.group?_hexText hg]
      rw [if_neg hdot]
      rfl
    | cons next rest =>
      have := ih hrest
      simp only [List.map_cons] at this ⊢
      simp only [Ipv6.groups?, Ipv6.group?_hexText hg, this]

theorem Ipv6.toList_groupText (groups : List Nat) :
    (Ipv6.groupText groups).toList = [':'].intercalate (groups.map hexText) := by
  simp [Ipv6.groupText, Function.comp_def]

theorem Ipv6.side?_groupText {groups : List Nat} (h : Ipv6.Fits groups) :
    Ipv6.side? (Ipv6.groupText groups).toList = some groups := by
  rw [Ipv6.toList_groupText]
  unfold Ipv6.side?
  cases groups with
  | nil => rfl
  | cons g rest =>
    have hsplit : splitAll (· == ':') ([':'].intercalate ((g :: rest).map hexText)) =
        (g :: rest).map hexText := by
      refine splitAll_intercalate rfl (by simp) ?_
      intro word hword c hc
      obtain ⟨k, -, rfl⟩ := List.mem_map.1 hword
      exact beq_eq_false_iff_ne.2 (isHexDigit_of_mem_hexText hc).ne_colon
    rw [if_neg ?_, hsplit, Ipv6.groups?_hexText h]
    intro hempty
    rw [List.isEmpty_iff] at hempty
    rw [hempty] at hsplit
    have hhead : ([] : List Char) = hexText g := (List.cons.inj hsplit).1
    exact hexText_ne_nil g hhead.symm

/-! ### The gap -/

theorem Ipv6.splitGap?_cons {c : Char} {s : List Char} (h : c = ':' → s.head? ≠ some ':') :
    Ipv6.splitGap? (c :: s) = (Ipv6.splitGap? s).map fun p => (c :: p.1, p.2) := by
  rw [Ipv6.splitGap?]
  rintro s' rfl rfl
  exact h rfl rfl

theorem Ipv6.splitGap?_word_append {word : List Char} (hword : ∀ c ∈ word, c ≠ ':')
    (s : List Char) :
    Ipv6.splitGap? (word ++ s) = (Ipv6.splitGap? s).map fun p => (word ++ p.1, p.2) := by
  induction word with
  | nil => simp
  | cons c word ih =>
    obtain ⟨hc, hrest⟩ := List.forall_mem_cons.1 hword
    rw [List.cons_append, Ipv6.splitGap?_cons fun h => absurd h hc, ih hrest, Option.map_map]
    rfl

/-- Words with single colons between them have no gap. -/
theorem Ipv6.splitGap?_words_append {words : List (List Char)}
    (hwords : ∀ word ∈ words, word ≠ [] ∧ ∀ c ∈ word, c ≠ ':') (s : List Char) :
    Ipv6.splitGap? ([':'].intercalate words ++ s) =
      (Ipv6.splitGap? s).map fun p => ([':'].intercalate words ++ p.1, p.2) := by
  induction words with
  | nil => simp
  | cons word rest ih =>
    obtain ⟨⟨-, hword⟩, hrest⟩ := List.forall_mem_cons.1 hwords
    cases rest with
    | nil => simpa using Ipv6.splitGap?_word_append hword s
    | cons next rest =>
      obtain ⟨⟨hne, hnext⟩, -⟩ := List.forall_mem_cons.1 hrest
      have hhead : ([':'].intercalate (next :: rest) ++ s).head? ≠ some ':' := by
        obtain ⟨d, next, rfl⟩ := List.exists_cons_of_ne_nil hne
        have hd : d ≠ ':' := hnext d List.mem_cons_self
        cases rest <;> simpa using hd
      rw [List.intercalate_cons_cons, List.append_assoc, List.append_assoc, List.singleton_append,
        Ipv6.splitGap?_word_append hword, Ipv6.splitGap?_cons fun _ => hhead, ih hrest,
        Option.map_map, Option.map_map]
      simp [Function.comp_def]

theorem Ipv6.splitGap?_groupText_append (groups : List Nat) (s : List Char) :
    Ipv6.splitGap? ((Ipv6.groupText groups).toList ++ s) =
      (Ipv6.splitGap? s).map fun p => ((Ipv6.groupText groups).toList ++ p.1, p.2) := by
  rw [Ipv6.toList_groupText]
  refine Ipv6.splitGap?_words_append ?_ s
  intro word hword
  obtain ⟨g, -, rfl⟩ := List.mem_map.1 hword
  exact ⟨hexText_ne_nil g, fun c hc => (isHexDigit_of_mem_hexText hc).ne_colon⟩

/-- What a text leaves out is a run of zero groups. -/
theorem Ipv6.longestRun_spec (i : Nat) (groups : List Nat)
    (h : 0 < (Ipv6.longestRun i groups).2) :
    ∃ front back, (Ipv6.longestRun i groups).1 = i + front.length ∧
      groups = front ++ List.replicate (Ipv6.longestRun i groups).2 0 ++ back := by
  induction groups generalizing i with
  | nil => exact absurd h (by simp [Ipv6.longestRun])
  | cons g rest ih =>
    simp only [Ipv6.longestRun] at h ⊢
    -- The run that counts begins here, or it is found in the rest.
    split
    · refine ⟨[], (g :: rest).dropWhile (· == 0), rfl, ?_⟩
      have hzeros : (g :: rest).takeWhile (· == 0) =
          List.replicate (Ipv6.zeroRun (g :: rest)) 0 :=
        List.eq_replicate_iff.2
          ⟨rfl, fun k hk => beq_iff_eq.1 (List.mem_takeWhile_imp (p := (· == 0)) hk)⟩
      rw [List.nil_append, ← hzeros, List.takeWhile_append_dropWhile]
    · next hlater =>
      have hpos : 0 < (Ipv6.longestRun (i + 1) rest).2 := Nat.zero_lt_of_lt (Nat.not_le.1 hlater)
      obtain ⟨front, back, hplace, hrest⟩ := ih (i + 1) hpos
      refine ⟨g :: front, back, ?_, ?_⟩
      · rw [hplace, List.length_cons]
        omega
      · rw [List.cons_append, List.cons_append, ← hrest]

/-- A text shows all groups, or a double colon in place of some zeros. -/
theorem Ipv6.text_cases (groups : List Nat) :
    Ipv6.text groups = Ipv6.groupText groups ∨
      ∃ front run back, 2 ≤ run ∧ groups = front ++ List.replicate run 0 ++ back ∧
        Ipv6.text groups = Ipv6.groupText front ++ "::" ++ Ipv6.groupText back := by
  have hspec := Ipv6.longestRun_spec 0 groups
  unfold Ipv6.text
  generalize Ipv6.longestRun 0 groups = place at hspec ⊢
  obtain ⟨start, run⟩ := place
  by_cases hrun : run < 2
  · exact .inl (if_pos hrun)
  · obtain ⟨front, back, hplace, hgroups⟩ := hspec (show 0 < run by omega)
    have hplace : start = front.length := by simpa using hplace
    have hgroups : groups = front ++ List.replicate run 0 ++ back := hgroups
    have htake : groups.take start = front := by simp [hplace, hgroups]
    have hdrop : groups.drop (start + run) = back := by
      simp [hplace, hgroups, ← List.drop_drop]
    refine .inr ⟨front, run, back, Nat.not_lt.1 hrun, hgroups, ?_⟩
    simp only [if_neg hrun, htake, hdrop]

theorem Ipv6.mem_groupText {groups : List Nat} {c : Char}
    (h : c ∈ (Ipv6.groupText groups).toList) : IsHexDigit c ∨ c = ':' := by
  rw [Ipv6.toList_groupText] at h
  rcases mem_of_mem_intercalate h with rfl | ⟨word, hword, hc⟩
  · exact .inr rfl
  · obtain ⟨g, -, rfl⟩ := List.mem_map.1 hword
    exact .inl (isHexDigit_of_mem_hexText hc)

/-- The text of an address holds digits and colons only. -/
theorem Ipv6.mem_text {groups : List Nat} {c : Char} (h : c ∈ (Ipv6.text groups).toList) :
    IsHexDigit c ∨ c = ':' := by
  rcases Ipv6.text_cases groups with htext | ⟨front, run, back, -, -, htext⟩
  · exact Ipv6.mem_groupText (htext ▸ h)
  · have hc : c ∈ (Ipv6.groupText front).toList ∨ c = ':' ∨ c ∈ (Ipv6.groupText back).toList := by
      simpa [htext] using h
    rcases hc with hc | hc | hc
    · exact Ipv6.mem_groupText hc
    · exact .inr hc
    · exact Ipv6.mem_groupText hc

/-- The text of an address is read as that address. -/
theorem Ipv6.parse?_text {groups : List Nat} (hlen : groups.length = 8) (h : Ipv6.Fits groups) :
    Ipv6.parse? (Ipv6.text groups).toList = some groups := by
  unfold Ipv6.parse?
  rcases Ipv6.text_cases groups with htext | ⟨front, run, back, hrun, hgroups, htext⟩
  · have hgap := Ipv6.splitGap?_groupText_append groups []
    rw [List.append_nil] at hgap
    rw [htext, hgap]
    simp [Ipv6.splitGap?, Ipv6.side?_groupText h, hlen]
  · have hfront : Ipv6.Fits front := fun g hg => h g (by simp [hgroups, hg])
    have hback : Ipv6.Fits back := fun g hg => h g (by simp [hgroups, hg])
    have hsum : front.length + run + back.length = 8 := by
      rw [← hlen, hgroups]
      simp [Nat.add_assoc]
    have hgap := Ipv6.splitGap?_groupText_append front (':' :: ':' :: (Ipv6.groupText back).toList)
    have hchars : (Ipv6.text groups).toList =
        (Ipv6.groupText front).toList ++ ':' :: ':' :: (Ipv6.groupText back).toList := by
      simp [htext]
    rw [hchars, hgap]
    have hdot : (Ipv6.groupText front).toList.contains '.' = false := by
      rw [Bool.eq_false_iff, Ne, List.contains_iff_mem]
      intro hmem
      rcases Ipv6.mem_groupText hmem with hc | hc
      · exact hc.ne_dot rfl
      · exact absurd hc (by decide)
    simp only [Ipv6.splitGap?, Option.map_some, List.append_nil, hdot, Bool.false_eq_true,
      if_false, Ipv6.side?_groupText hfront, Ipv6.side?_groupText hback]
    rw [if_pos (by omega), hgroups]
    -- The gap stands for as many zeros as the two sides leave of eight groups.
    have hzeros : 8 - front.length - back.length = run := by omega
    rw [hzeros]

/-! ### What is read -/

theorem Ipv6.octet?_le {s : List Char} {n : Nat} (h : Ipv6.octet? s = some n) : n ≤ 255 := by
  unfold Ipv6.octet? at h
  split at h
  · exact absurd h (by simp)
  · split at h
    · split at h
      · next hn => exact Option.some.inj h ▸ hn
      · exact absurd h (by simp)
    · exact absurd h (by simp)

theorem Ipv6.group?_lt {s : List Char} {n : Nat} (h : Ipv6.group? s = some n) : n < 65536 := by
  unfold Ipv6.group? at h
  split at h
  · exact absurd h (by simp)
  · next hcheck =>
    have hlen : s.length ≤ 4 := Nat.not_lt.1 fun hlt => hcheck (.inr hlt)
    exact Nat.lt_of_lt_of_le (numberIn?_lt h) (Nat.pow_le_pow_right (by decide) hlen)

theorem Ipv6.fits_of_embedded? {s : List Char} {groups : List Nat}
    (h : Ipv6.embedded? s = some groups) : Ipv6.Fits groups := by
  unfold Ipv6.embedded? at h
  split at h
  · split at h
    · next a b c d ha hb hc hd =>
      have := Ipv6.octet?_le ha
      have := Ipv6.octet?_le hb
      have := Ipv6.octet?_le hc
      have := Ipv6.octet?_le hd
      obtain rfl := Option.some.inj h
      intro g hg
      simp only [List.mem_cons, List.not_mem_nil, or_false] at hg
      omega
    · exact absurd h (by simp)
  · exact absurd h (by simp)

theorem Ipv6.fits_of_groups? {words : List (List Char)} {groups : List Nat}
    (h : Ipv6.groups? words = some groups) : Ipv6.Fits groups := by
  fun_induction Ipv6.groups? words generalizing groups with
  | case1 => exact Option.some.inj h ▸ fun g hg => absurd hg (by simp)
  | case2 last hdot => exact Ipv6.fits_of_embedded? h
  | case3 last hdot =>
    obtain ⟨n, hn, rfl⟩ := Option.map_eq_some_iff.1 h
    exact fun g hg => List.mem_singleton.1 hg ▸ Ipv6.group?_lt hn
  | case4 word rest _ n ns hrest hword ih =>
    obtain rfl := Option.some.inj h
    exact List.forall_mem_cons.2 ⟨Ipv6.group?_lt hword, ih hrest⟩
  | case5 => exact absurd h (by simp)

theorem Ipv6.fits_of_side? {s : List Char} {groups : List Nat}
    (h : Ipv6.side? s = some groups) : Ipv6.Fits groups := by
  unfold Ipv6.side? at h
  split at h
  · exact Option.some.inj h ▸ fun g hg => absurd hg (by simp)
  · exact Ipv6.fits_of_groups? h

/-- An address that is read has eight groups. -/
theorem Ipv6.fits_of_parse? {s : List Char} {groups : List Nat}
    (h : Ipv6.parse? s = some groups) : groups.length = 8 ∧ Ipv6.Fits groups := by
  unfold Ipv6.parse? at h
  split at h
  · obtain ⟨all, hall, h⟩ := Option.bind_eq_some_iff.1 h
    split at h
    · next hlen =>
      obtain rfl := Option.some.inj h
      exact ⟨hlen, Ipv6.fits_of_side? hall⟩
    · exact absurd h (by simp)
  · split at h
    · exact absurd h (by simp)
    · split at h
      · next front back hfront hback =>
        split at h
        · next hlen =>
          obtain rfl := Option.some.inj h
          refine ⟨by simp; omega, ?_⟩
          intro g hg
          rcases List.mem_append.1 hg with hg | hg
          · rcases List.mem_append.1 hg with hg | hg
            · exact Ipv6.fits_of_side? hfront g hg
            · rw [(List.mem_replicate.1 hg).2]
              decide
          · exact Ipv6.fits_of_side? hback g hg
        · exact absurd h (by simp)
      · exact absurd h (by simp)

end Courier
