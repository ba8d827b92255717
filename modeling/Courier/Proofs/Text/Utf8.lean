import Courier.Text.Utf8

set_option autoImplicit false

/-! # Text read back from its octets

The octets of a text are read as that text, and octets that are read as a text are the octets of
it. The scanner takes off the octets of one character at a time; the octet that comes first says how
many follow, and each of the others adds six bits. -/

namespace Courier

/-! ## Characters -/

theorem Utf8.toNat_octet {n : Nat} (h : n < 256) : (UInt8.ofNat n).toNat = n := by
  rw [UInt8.toNat_ofNat']
  omega

/-- An octet that does not open a character adds six bits to the one that is under way. -/
theorem Utf8.scan_more {missing bits n : Nat} {low high : UInt8} (hlow : low.toNat ≤ n)
    (hhigh : n ≤ high.toNat) (rest : Bytes) :
    Utf8.scan (some ⟨missing, bits, low, high⟩) (UInt8.ofNat n :: rest) =
      if missing = 1 then some (Char.ofNat (bits * 64 + (n - 0x80))) :: Utf8.scan none rest
      else Utf8.scan (some ⟨missing - 1, bits * 64 + (n - 0x80), 0x80, 0xBF⟩) rest := by
  have hoctet := Utf8.toNat_octet (Nat.lt_of_le_of_lt hhigh high.toNat_lt)
  have hin : low ≤ UInt8.ofNat n ∧ UInt8.ofNat n ≤ high := by
    rw [UInt8.le_iff_toNat_le, UInt8.le_iff_toNat_le, hoctet]
    exact ⟨hlow, hhigh⟩
  rw [Utf8.scan, if_pos hin, hoctet]

/-- What an octet announces that opens a character of two, three or four octets. -/
def Utf8.opened (n : Nat) : Utf8.Pending :=
  if n < 0xE0 then ⟨1, n - 0xC0, 0x80, 0xBF⟩
  else if n < 0xF0 then
    ⟨2, n - 0xE0, if n = 0xE0 then 0xA0 else 0x80, if n = 0xED then 0x9F else 0xBF⟩
  else ⟨3, n - 0xF0, if n = 0xF0 then 0x90 else 0x80, if n = 0xF4 then 0x8F else 0xBF⟩

theorem Utf8.scan_lead {n : Nat} (hlow : 0xC2 ≤ n) (hhigh : n < 0xF5) (rest : Bytes) :
    Utf8.scan none (UInt8.ofNat n :: rest) = Utf8.scan (some (Utf8.opened n)) rest := by
  have hlead : Utf8.lead (UInt8.ofNat n) = .pending (Utf8.opened n) := by
    simp only [Utf8.lead, Utf8.opened, Utf8.toNat_octet (n := n) (by omega)]
    rw [if_neg (by omega), if_neg (by omega), if_pos hhigh]
    split
    · rfl
    · split <;> rfl
  rw [Utf8.scan, hlead]

/-- The octets of a character, by their number. -/
inductive Utf8.Octets (n : Nat) : Bytes → Prop
  | one (h : n < 0x80) : Utf8.Octets n [UInt8.ofNat n]
  | two (low : 0x80 ≤ n) (high : n < 0x800) :
      Utf8.Octets n [UInt8.ofNat (n / 64 + 0xC0), UInt8.ofNat (n % 64 + 0x80)]
  | three (low : 0x800 ≤ n) (high : n < 0x10000) :
      Utf8.Octets n [UInt8.ofNat (n / 4096 + 0xE0), UInt8.ofNat (n / 64 % 64 + 0x80),
        UInt8.ofNat (n % 64 + 0x80)]
  | four (low : 0x10000 ≤ n) (high : n < 0x110000) :
      Utf8.Octets n [UInt8.ofNat (n / 262144 + 0xF0), UInt8.ofNat (n / 4096 % 64 + 0x80),
        UInt8.ofNat (n / 64 % 64 + 0x80), UInt8.ofNat (n % 64 + 0x80)]

theorem Utf8.octets_encodeChar (c : Char) :
    Utf8.Octets c.toNat (String.utf8EncodeChar c) := by
  have hvalid : c.toNat < 0xD800 ∨ 0xDFFF < c.toNat ∧ c.toNat < 0x110000 := c.valid
  unfold String.utf8EncodeChar
  dsimp only
  change Utf8.Octets c.toNat (if c.toNat ≤ 0x7f then _ else if c.toNat ≤ 0x7ff then
    [UInt8.ofNat (c.toNat / 64 % 0x20 + 0xc0), _] else if c.toNat ≤ 0xffff then
    [UInt8.ofNat (c.toNat / 4096 % 0x10 + 0xe0), _, _] else
    [UInt8.ofNat (c.toNat / 262144 % 0x08 + 0xf0), _, _, _])
  split
  · exact .one (by omega)
  split
  · rw [show c.toNat / 64 % 32 = c.toNat / 64 by omega]
    exact .two (by omega) (by omega)
  split
  · rw [show c.toNat / 4096 % 16 = c.toNat / 4096 by omega]
    exact .three (by omega) (by omega)
  · rw [show c.toNat / 262144 % 8 = c.toNat / 262144 by omega]
    exact .four (by omega) (by omega)

theorem Utf8.scan_char (c : Char) (rest : Bytes) :
    Utf8.scan none (String.utf8EncodeChar c ++ rest) = some c :: Utf8.scan none rest := by
  have hvalid : c.toNat < 0xD800 ∨ 0xDFFF < c.toNat ∧ c.toNat < 0x110000 := c.valid
  have hchar : Char.ofNat c.toNat = c := Char.ofNat_toNat c
  have hoctets := Utf8.octets_encodeChar c
  generalize c.toNat = n at hvalid hchar hoctets
  generalize String.utf8EncodeChar c = octets at hoctets
  cases hoctets with
  | one h =>
    have hlead : Utf8.lead (UInt8.ofNat n) = .char c := by
      simp only [Utf8.lead, Utf8.toNat_octet (Nat.lt_trans h (by decide))]
      rw [if_pos h, hchar]
    rw [List.singleton_append, Utf8.scan, hlead]
  | two low high =>
    have hopened : Utf8.opened (n / 64 + 0xC0) = ⟨1, n / 64, 0x80, 0xBF⟩ := by
      unfold Utf8.opened
      rw [if_pos (by omega), Nat.add_sub_cancel]
    rw [List.cons_append, List.singleton_append, Utf8.scan_lead (by omega) (by omega), hopened,
      Utf8.scan_more (by simp) (by simp; omega), if_pos rfl,
      show n / 64 * 64 + (n % 64 + 0x80 - 0x80) = n by omega, hchar]
  | three low high =>
    have hopened : Utf8.opened (n / 4096 + 0xE0) =
        ⟨2, n / 4096, if n / 4096 = 0 then 0xA0 else 0x80,
          if n / 4096 = 13 then 0x9F else 0xBF⟩ := by
      unfold Utf8.opened
      rw [if_neg (by omega), if_pos (by omega), Nat.add_sub_cancel]
      congr 1 <;> congr 1 <;> simp
    rw [List.cons_append, List.cons_append, List.singleton_append,
      Utf8.scan_lead (by omega) (by omega), hopened,
      Utf8.scan_more (by split <;> simp; omega) (by split <;> simp <;> omega),
      if_neg (by decide), Utf8.scan_more (by simp) (by simp; omega), if_pos rfl,
      show (n / 4096 * 64 + (n / 64 % 64 + 0x80 - 0x80)) * 64 + (n % 64 + 0x80 - 0x80) = n by omega,
      hchar]
  | four low high =>
    have hopened : Utf8.opened (n / 262144 + 0xF0) =
        ⟨3, n / 262144, if n / 262144 = 0 then 0x90 else 0x80,
          if n / 262144 = 4 then 0x8F else 0xBF⟩ := by
      unfold Utf8.opened
      rw [if_neg (by omega), if_neg (by omega), Nat.add_sub_cancel]
      congr 1 <;> congr 1 <;> simp
    rw [List.cons_append, List.cons_append, List.cons_append, List.singleton_append,
      Utf8.scan_lead (by omega) (by omega), hopened,
      Utf8.scan_more (by split <;> simp; omega) (by split <;> simp <;> omega),
      if_neg (by decide), Utf8.scan_more (by simp) (by simp; omega), if_neg (by decide),
      Utf8.scan_more (by simp) (by simp; omega), if_pos rfl,
      show ((n / 262144 * 64 + (n / 4096 % 64 + 0x80 - 0x80)) * 64 +
        (n / 64 % 64 + 0x80 - 0x80)) * 64 + (n % 64 + 0x80 - 0x80) = n by omega, hchar]

/-! ## Texts -/

theorem Utf8.scan_encode (text : String) :
    Utf8.scan none (Utf8.encode text) = text.toList.map some := by
  unfold Utf8.encode
  induction text.toList with
  | nil => rfl
  | cons c chars ih => rw [List.flatMap_cons, Utf8.scan_char, ih, List.map_cons]

/-- The octets of a text are read as that text. -/
theorem Utf8.decode?_encode (text : String) : Utf8.decode? (Utf8.encode text) = some text := by
  have hall : (text.toList.map some).mapM id = some text.toList := by
    rw [List.mapM_map]
    exact List.mapM_pure.trans (congrArg some (List.map_id _))
  rw [Utf8.decode?, Utf8.scan_encode, hall, Option.map_some, String.ofList_toList]

/-! ## Octets that are a text -/

/-- A number has one list of octets. -/
theorem Utf8.Octets.unique {n : Nat} {octets other : Bytes} (h : Utf8.Octets n octets)
    (h' : Utf8.Octets n other) : octets = other := by
  cases h <;> cases h' <;> first | rfl | omega

/-- The octets of a number that is one of a character are those of the character. -/
theorem Utf8.Octets.encodeChar {n : Nat} {octets : Bytes} (h : Utf8.Octets n octets)
    (valid : n < 0xD800 ∨ 0xDFFF < n ∧ n < 0x110000) :
    String.utf8EncodeChar (Char.ofNat n) = octets := by
  have hnumber : (Char.ofNat n).toNat = n := by
    have hn : n.isValidChar := valid
    rw [Char.ofNat, dif_pos hn]
    rfl
  have hchar := Utf8.octets_encodeChar (Char.ofNat n)
  rw [hnumber] at hchar
  exact hchar.unique h

/-- A number with four octets. -/
theorem Utf8.Octets.four_range {n : Nat} {octets : Bytes} (h : Utf8.Octets n octets)
    (hlen : octets.length = 4) : 0xDFFF < n ∧ n < 0x110000 := by
  cases h with
  | one h => exact absurd hlen (by simp)
  | two low high => exact absurd hlen (by simp)
  | three low high => exact absurd hlen (by simp)
  | four low high => exact ⟨by omega, high⟩

/-- An octet is told by its number. -/
theorem Utf8.eq_octet {b : UInt8} {n : Nat} (h : n = b.toNat) : b = UInt8.ofNat n := by
  subst h
  exact (UInt8.ofNat_toNat).symm

/-- A character that is under way goes on with an octet in its range, if there is nothing
    ill-formed. -/
theorem Utf8.scan_some_eq {p : Utf8.Pending} {bytes : Bytes} {chars : List Char}
    (h : Utf8.scan (some p) bytes = chars.map some) :
    ∃ b rest, bytes = b :: rest ∧ p.low.toNat ≤ b.toNat ∧ b.toNat ≤ p.high.toNat ∧
      (if p.missing = 1 then
          some (Char.ofNat (p.bits * 64 + (b.toNat - 0x80))) :: Utf8.scan none rest
        else Utf8.scan (some ⟨p.missing - 1, p.bits * 64 + (b.toNat - 0x80), 0x80, 0xBF⟩) rest) =
      chars.map some := by
  have hnone : ∀ rest : List (Option Char), none :: rest ≠ chars.map some := by
    intro rest heq
    cases chars with
    | nil => exact absurd heq (by simp)
    | cons c chars => exact absurd (List.cons.inj heq).1 (by simp)
  cases bytes with
  | nil => exact absurd h (hnone [])
  | cons b rest =>
    rw [Utf8.scan] at h
    split at h
    · next hin =>
      obtain ⟨hlow, hhigh⟩ := hin
      exact ⟨b, rest, rfl, UInt8.le_iff_toNat_le.1 hlow, UInt8.le_iff_toNat_le.1 hhigh, h⟩
    · split at h <;> exact absurd h (hnone _)

/-- A character that has been read, and what is left to be read. -/
theorem Utf8.cons_eq_map_some {c : Char} {rest : List (Option Char)} {chars : List Char}
    (h : some c :: rest = chars.map some) : ∃ tail, chars = c :: tail ∧ rest = tail.map some := by
  cases chars with
  | nil => exact absurd h (by simp)
  | cons d tail =>
    obtain ⟨hd, htail⟩ := List.cons.inj h
    exact ⟨tail, by rw [Option.some.inj hd], htail⟩

section Octets

variable {b b₁ b₂ b₃ : UInt8}

theorem Utf8.octets_one (high : b.toNat < 0x80) : Utf8.Octets b.toNat [b] := by
  have h := Utf8.Octets.one high
  rwa [← eq_octet (b := b) rfl] at h

theorem Utf8.octets_two (low : 0xC2 ≤ b.toNat) (high : b.toNat < 0xE0) (low₁ : 0x80 ≤ b₁.toNat)
    (high₁ : b₁.toNat ≤ 0xBF) :
    Utf8.Octets ((b.toNat - 0xC0) * 64 + (b₁.toNat - 0x80)) [b, b₁] := by
  generalize hn : (b.toNat - 0xC0) * 64 + (b₁.toNat - 0x80) = n
  have h := @Utf8.Octets.two n (by omega) (by omega)
  rwa [← eq_octet (b := b) (by omega), ← eq_octet (b := b₁) (by omega)] at h

theorem Utf8.octets_three (low : 0xE0 ≤ b.toNat) (high : b.toNat < 0xF0)
    (low₁ : (if b.toNat = 0xE0 then 0xA0 else 0x80) ≤ b₁.toNat) (high₁ : b₁.toNat ≤ 0xBF)
    (low₂ : 0x80 ≤ b₂.toNat) (high₂ : b₂.toNat ≤ 0xBF) :
    Utf8.Octets (((b.toNat - 0xE0) * 64 + (b₁.toNat - 0x80)) * 64 + (b₂.toNat - 0x80))
      [b, b₁, b₂] := by
  generalize hn : ((b.toNat - 0xE0) * 64 + (b₁.toNat - 0x80)) * 64 + (b₂.toNat - 0x80) = n
  have h := @Utf8.Octets.three n (by split at low₁ <;> omega) (by omega)
  rwa [← eq_octet (b := b) (by split at low₁ <;> omega),
    ← eq_octet (b := b₁) (by split at low₁ <;> omega), ← eq_octet (b := b₂) (by omega)] at h

theorem Utf8.octets_four (low : 0xF0 ≤ b.toNat) (high : b.toNat < 0xF5)
    (low₁ : (if b.toNat = 0xF0 then 0x90 else 0x80) ≤ b₁.toNat)
    (high₁ : b₁.toNat ≤ if b.toNat = 0xF4 then 0x8F else 0xBF)
    (low₂ : 0x80 ≤ b₂.toNat) (high₂ : b₂.toNat ≤ 0xBF)
    (low₃ : 0x80 ≤ b₃.toNat) (high₃ : b₃.toNat ≤ 0xBF) :
    Utf8.Octets ((((b.toNat - 0xF0) * 64 + (b₁.toNat - 0x80)) * 64 + (b₂.toNat - 0x80)) * 64 +
      (b₃.toNat - 0x80)) [b, b₁, b₂, b₃] := by
  generalize hn : (((b.toNat - 0xF0) * 64 + (b₁.toNat - 0x80)) * 64 + (b₂.toNat - 0x80)) * 64 +
    (b₃.toNat - 0x80) = n
  have hrange : 0x80 ≤ b₁.toNat ∧ b₁.toNat ≤ 0xBF ∧ 0x10000 ≤ n ∧ n < 0x110000 := by
    split at low₁ <;> split at high₁ <;> omega
  have h := @Utf8.Octets.four n hrange.2.2.1 hrange.2.2.2
  rwa [← eq_octet (b := b) (by omega), ← eq_octet (b := b₁) (by omega),
    ← eq_octet (b := b₂) (by omega), ← eq_octet (b := b₃) (by omega)] at h

end Octets

/-- Where nothing is ill-formed, the octets begin with those of a character. -/
theorem Utf8.scan_none_eq {b : UInt8} {bytes : Bytes} {chars : List Char}
    (h : Utf8.scan none (b :: bytes) = chars.map some) :
    ∃ n octets rest tail, b :: bytes = octets ++ rest ∧ Utf8.Octets n octets ∧
      (n < 0xD800 ∨ 0xDFFF < n ∧ n < 0x110000) ∧ chars = Char.ofNat n :: tail ∧
      Utf8.scan none rest = tail.map some := by
  by_cases hshort : b.toNat < 0x80
  · have hlead : Utf8.lead b = .char (Char.ofNat b.toNat) := if_pos hshort
    rw [Utf8.scan, hlead] at h
    obtain ⟨tail, rfl, hrest⟩ := cons_eq_map_some h
    exact ⟨_, [b], bytes, tail, rfl, octets_one hshort, .inl (by omega), rfl, hrest⟩
  by_cases hbad : b.toNat < 0xC2 ∨ 0xF5 ≤ b.toNat
  · have hlead : Utf8.lead b = .bad := by
      unfold Utf8.lead
      dsimp only
      rw [if_neg hshort]
      rcases hbad with hbad | hbad
      · rw [if_pos hbad]
      · rw [if_neg (by omega), if_neg (by omega), if_neg (by omega), if_neg (by omega)]
    rw [Utf8.scan, hlead] at h
    cases chars <;> simp at h
  rw [eq_octet (b := b) rfl, Utf8.scan_lead (by omega) (by omega)] at h
  obtain ⟨b₁, rest₁, rfl, hlow₁, hhigh₁, hscan₁⟩ := scan_some_eq h
  unfold Utf8.opened at hlow₁ hhigh₁ hscan₁
  by_cases htwo : b.toNat < 0xE0
  · simp only [if_pos htwo, if_true] at hlow₁ hhigh₁ hscan₁
    obtain ⟨tail, rfl, hrest⟩ := cons_eq_map_some hscan₁
    exact ⟨_, [b, b₁], rest₁, tail, rfl, octets_two (by omega) htwo hlow₁ hhigh₁,
      .inl (by simp at hhigh₁; omega), rfl, hrest⟩
  by_cases hthree : b.toNat < 0xF0
  · simp only [if_neg htwo, if_pos hthree] at hlow₁ hhigh₁ hscan₁
    obtain ⟨b₂, rest₂, rfl, hlow₂, hhigh₂, hscan₂⟩ := scan_some_eq hscan₁
    obtain ⟨tail, rfl, hrest⟩ := cons_eq_map_some hscan₂
    rw [apply_ite UInt8.toNat] at hlow₁ hhigh₁
    have hhigh : b₁.toNat ≤ 0xBF := Nat.le_trans hhigh₁ (by split <;> decide)
    refine ⟨_, [b, b₁, b₂], rest₂, tail, rfl,
      octets_three (by omega) hthree hlow₁ hhigh hlow₂ hhigh₂, ?_, rfl, hrest⟩
    -- After `ED` the range of the second octet leaves out the surrogates.
    simp only [UInt8.toNat_ofNat] at hlow₁ hhigh₁ hhigh₂
    split at hhigh₁ <;> omega
  · simp only [if_neg htwo, if_neg hthree] at hlow₁ hhigh₁ hscan₁
    obtain ⟨b₂, rest₂, rfl, hlow₂, hhigh₂, hscan₂⟩ := scan_some_eq hscan₁
    obtain ⟨b₃, rest₃, rfl, hlow₃, hhigh₃, hscan₃⟩ := scan_some_eq hscan₂
    obtain ⟨tail, rfl, hrest⟩ := cons_eq_map_some hscan₃
    rw [apply_ite UInt8.toNat] at hlow₁ hhigh₁
    have hoctets := octets_four (by omega) (by omega) hlow₁ hhigh₁ hlow₂ hhigh₂ hlow₃ hhigh₃
    exact ⟨_, [b, b₁, b₂, b₃], rest₃, tail, rfl, hoctets, 
      .inr (hoctets.four_range rfl), rfl, hrest⟩

/-- Octets without anything ill-formed are those of the characters that are read. -/
theorem Utf8.encode_of_scan {bytes : Bytes} {chars : List Char}
    (h : Utf8.scan none bytes = chars.map some) :
    chars.flatMap String.utf8EncodeChar = bytes := by
  induction hn : bytes.length using Nat.strongRecOn generalizing bytes chars with
  | ind length ih =>
    cases bytes with
    | nil =>
      cases chars with
      | nil => rfl
      | cons c tail => exact absurd h (by simp [Utf8.scan])
    | cons b bytes =>
      obtain ⟨n, octets, rest, tail, hbytes, hoctets, hvalid, rfl, hrest⟩ := scan_none_eq h
      have hshorter : rest.length < length := by
        rw [← hn, hbytes, List.length_append]
        have hpos : 0 < octets.length := by cases hoctets <;> simp
        omega
      rw [List.flatMap_cons, hoctets.encodeChar hvalid, ih _ hshorter hrest rfl, hbytes]

/-- If every part of what was scanned is a character, nothing is ill-formed. -/
theorem Utf8.eq_map_some_of_mapM {scanned : List (Option Char)} {chars : List Char}
    (h : scanned.mapM id = some chars) : scanned = chars.map some := by
  induction scanned generalizing chars with
  | nil =>
    obtain rfl : [] = chars := Option.some.inj h
    rfl
  | cons c scanned ih =>
    rw [List.mapM_cons] at h
    obtain ⟨d, rfl, hrest⟩ := Option.bind_eq_some_iff.1 h
    obtain ⟨tail, htail, hcons⟩ := Option.bind_eq_some_iff.1 hrest
    obtain rfl : d :: tail = chars := Option.some.inj hcons
    rw [ih htail, List.map_cons]

/-- Octets that are read as a text are the octets of that text. -/
theorem Utf8.encode_of_decode? {bytes : Bytes} {text : String}
    (h : Utf8.decode? bytes = some text) : Utf8.encode text = bytes := by
  obtain ⟨chars, hchars, rfl⟩ := Option.map_eq_some_iff.1 h
  rw [Utf8.encode, String.toList_ofList]
  exact encode_of_scan (eq_map_some_of_mapM hchars)

end Courier
