import Courier.Proofs.Json.Grammar
import Courier.Proofs.Text.Utf8

set_option autoImplicit false

/-! # Strings read back

A quoted text is read as that text, whatever characters it holds: those that would end the string or
are not allowed in it are escaped, and each escape stands for the character that was escaped. -/

namespace Courier

/-! ## Octets of a string -/

/-- The octets of a character inside a quoted string. -/
def Json.escapeOctets (c : Char) : Bytes := (Json.escape c).flatMap String.utf8EncodeChar

theorem Json.encode_quote (text : String) :
    Utf8.encode (Json.quote text) = 0x22 :: text.toList.flatMap Json.escapeOctets ++ [0x22] := by
  have hquote : String.utf8EncodeChar '"' = [0x22] := rfl
  unfold Utf8.encode Json.quote
  rw [String.toList_ofList, List.cons_append, List.flatMap_cons, List.flatMap_append, hquote,
    List.flatMap_singleton, hquote, List.flatMap_assoc]
  rfl

/-- Whether an octet stands for itself in a string. -/
def Json.IsPlain (b : UInt8) : Prop := 0x20 ≤ b ∧ b ≠ 0x22 ∧ b ≠ 0x5C

theorem Json.readStringOctets_succ (fuel : Nat) (acc s : Bytes) :
    Json.readStringOctets (fuel + 1) acc s =
      Json.stringStep (fun s => .ok (acc.reverse, s)) (Json.readEscaped fuel acc)
        (fun b s => Json.readStringOctets fuel (b :: acc) s) s := by
  cases s <;> rfl

theorem Json.stringStep_plain {α : Type} {done : Bytes → Except Json.Fault α}
    {escaped more : UInt8 → Bytes → Except Json.Fault α} {b : UInt8} (h : Json.IsPlain b)
    (s : Bytes) : Json.stringStep done escaped more (b :: s) = more b s := by
  obtain ⟨hlow, hquote, hescape⟩ := h
  unfold Json.stringStep
  dsimp only
  rw [if_neg hquote, if_neg hescape, if_neg (UInt8.not_lt.2 hlow)]

theorem Json.readStringOctets_plain {octets : Bytes} (h : ∀ b ∈ octets, Json.IsPlain b) (fuel : Nat)
    (acc s : Bytes) :
    Json.readStringOctets (fuel + octets.length) acc (octets ++ s) =
      Json.readStringOctets fuel (octets.reverse ++ acc) s := by
  induction octets generalizing acc with
  | nil => rfl
  | cons b octets ih =>
    obtain ⟨hplain, hrest⟩ := List.forall_mem_cons.1 h
    rw [List.length_cons, ← Nat.add_assoc, List.cons_append, Json.readStringOctets_succ,
      Json.stringStep_plain hplain, ih hrest, List.reverse_cons, List.append_assoc,
      List.singleton_append]

/-- The octets of a character that needs no escape stand for themselves. -/
theorem Json.isPlain_of_mem {c : Char} (hlow : 32 ≤ c.toNat) (hquote : c ≠ '"')
    (hescape : c ≠ '\\') {b : UInt8} (hb : b ∈ String.utf8EncodeChar c) : Json.IsPlain b := by
  have of_toNat : ∀ n : Nat, n < 256 → 32 ≤ n → n ≠ 0x22 → n ≠ 0x5C → b = UInt8.ofNat n →
      Json.IsPlain b := by
    intro n hn h32 h22 h5C heq
    have hnat : b.toNat = n := heq ▸ Utf8.toNat_octet hn
    refine ⟨UInt8.le_iff_toNat_le.2 (hnat ▸ h32), ?_, ?_⟩
    · rintro rfl
      exact h22 hnat.symm
    · rintro rfl
      exact h5C hnat.symm
  have hquote' : c.toNat ≠ 0x22 := fun h => hquote (Char.toNat_inj.1 h)
  have hescape' : c.toNat ≠ 0x5C := fun h => hescape (Char.toNat_inj.1 h)
  have hoctets := Utf8.octets_encodeChar c
  generalize c.toNat = n at *
  generalize String.utf8EncodeChar c = octets at *
  cases hoctets with
  | one h =>
    exact of_toNat n (by omega) hlow hquote' hescape' (List.mem_singleton.1 hb)
  | two low high =>
    simp only [List.mem_cons, List.not_mem_nil, or_false] at hb
    rcases hb with hb | hb <;> exact of_toNat _ (by omega) (by omega) (by omega) (by omega) hb
  | three low high =>
    simp only [List.mem_cons, List.not_mem_nil, or_false] at hb
    rcases hb with hb | hb | hb <;>
      exact of_toNat _ (by omega) (by omega) (by omega) (by omega) hb
  | four low high =>
    simp only [List.mem_cons, List.not_mem_nil, or_false] at hb
    rcases hb with hb | hb | hb | hb <;>
      exact of_toNat _ (by omega) (by omega) (by omega) (by omega) hb

theorem hexValue?_hexDigit {k : Nat} (h : k < 16) :
    ∃ b, String.utf8EncodeChar (hexDigit k) = [b] ∧ hexValue? b = some k := by
  have tried : ∀ k : Fin 16, String.utf8EncodeChar (hexDigit k.val) =
      [UInt8.ofNat (hexDigit k.val).toNat] ∧
        hexValue? (UInt8.ofNat (hexDigit k.val).toNat) = some k.val := by decide
  exact ⟨_, tried ⟨k, h⟩⟩

/-- The numeric escape of a control character. -/
theorem Json.readUnicode_control {c : Char} (h : c.toNat < 32) (s : Bytes) :
    Json.readUnicode ([hexDigit 0, hexDigit 0, hexDigit (c.toNat / 16),
      hexDigit (c.toNat % 16)].flatMap String.utf8EncodeChar ++ s) = .ok (c, s) := by
  obtain ⟨zero, hzero, hzero'⟩ := hexValue?_hexDigit (k := 0) (by decide)
  obtain ⟨high, hhigh, hhigh'⟩ := hexValue?_hexDigit (k := c.toNat / 16) (by omega)
  obtain ⟨low, hlow, hlow'⟩ := hexValue?_hexDigit (k := c.toNat % 16) (by omega)
  have hhex : Json.readHex4 (zero :: zero :: high :: low :: s) = .ok (c.toNat, s) := by
    simp only [Json.readHex4, hzero', hhigh', hlow']
    rw [show ((0 * 16 + 0) * 16 + c.toNat / 16) * 16 + c.toNat % 16 = c.toNat by omega]
  simp only [List.flatMap_cons, List.flatMap_nil, hzero, hhigh, hlow,
    List.cons_append, List.nil_append, Json.readUnicode, hhex, bind, Except.bind]
  rw [if_pos (.inl (by omega)), Char.ofNat_toNat]
  rfl

/-- An escape adds the octets of the character that it stands for, in one step. -/
theorem Json.readStringOctets_escape {c : Char} (h : ¬(32 ≤ c.toNat ∧ c ≠ '"' ∧ c ≠ '\\'))
    (fuel : Nat) (acc s : Bytes) :
    Json.readStringOctets (fuel + 1) acc (Json.escapeOctets c ++ s) =
      Json.readStringOctets fuel ((String.utf8EncodeChar c).reverse ++ acc) s := by
  unfold Json.escapeOctets Json.escape
  split
  · rfl
  · rfl
  · rfl
  · rfl
  · rfl
  · rfl
  · rfl
  · rename_i hquote hescape _ _ _ _ _
    have hlow : c.toNat < 32 := Nat.lt_of_not_le fun hle => h ⟨hle, hquote, hescape⟩
    have hstep : Json.readStringOctets (fuel + 1) acc (0x5C :: 0x75 ::
        ([hexDigit 0, hexDigit 0, hexDigit (c.toNat / 16),
          hexDigit (c.toNat % 16)].flatMap String.utf8EncodeChar ++ s)) =
        Json.readEscaped fuel acc 0x75 _ := Json.readStringOctets_succ fuel acc _
    rw [if_pos hlow]
    refine hstep.trans ?_
    unfold Json.readEscaped
    rw [if_pos rfl, Json.readUnicode_control hlow]

theorem Json.escapeOctets_plain {c : Char} (h : 32 ≤ c.toNat ∧ c ≠ '"' ∧ c ≠ '\\') :
    Json.escapeOctets c = String.utf8EncodeChar c := by
  obtain ⟨hlow, hquote, hescape⟩ := h
  unfold Json.escapeOctets Json.escape
  split
  · exact absurd rfl hquote
  · exact absurd rfl hescape
  all_goals first | exact absurd hlow (by decide) | skip
  rw [if_neg (Nat.not_lt.2 hlow), List.flatMap_singleton]

/-! ## Strings -/

theorem Json.length_escapeOctets_pos (c : Char) : 0 < (Json.escapeOctets c).length := by
  have hne : Json.escape c ≠ [] := by
    unfold Json.escape
    split <;> try split
    all_goals simp
  obtain ⟨d, rest, hd⟩ := List.exists_cons_of_ne_nil hne
  have hpos : 0 < (String.utf8EncodeChar d).length := by
    rw [String.length_utf8EncodeChar]
    exact d.utf8Size_pos
  rw [Json.escapeOctets, hd, List.flatMap_cons, List.length_append]
  omega

theorem Json.readStringOctets_char (c : Char) {fuel : Nat} (acc : Bytes) {s : Bytes}
    (hfuel : (Json.escapeOctets c ++ s).length < fuel) :
    ∃ fuel', s.length < fuel' ∧
      Json.readStringOctets fuel acc (Json.escapeOctets c ++ s) =
        Json.readStringOctets fuel' ((String.utf8EncodeChar c).reverse ++ acc) s := by
  rw [List.length_append] at hfuel
  -- a plain character takes a step for each of its octets, an escape takes one
  by_cases hplain : 32 ≤ c.toNat ∧ c ≠ '"' ∧ c ≠ '\\'
  · have hoctets : Json.escapeOctets c = String.utf8EncodeChar c := Json.escapeOctets_plain hplain
    rw [hoctets] at hfuel ⊢
    obtain ⟨fuel, rfl⟩ := Nat.exists_eq_add_of_le' (Nat.le_of_lt (Nat.lt_of_le_of_lt
      (Nat.le_add_right _ _) hfuel))
    refine ⟨fuel, by omega, Json.readStringOctets_plain (fun b hb => ?_) fuel acc s⟩
    exact Json.isPlain_of_mem hplain.1 hplain.2.1 hplain.2.2 hb
  · obtain ⟨fuel, rfl⟩ := Nat.exists_eq_add_of_le' (Nat.one_le_of_lt hfuel)
    have hpos := Json.length_escapeOctets_pos c
    exact ⟨fuel, by omega, Json.readStringOctets_escape hplain fuel acc s⟩

theorem Json.readStringOctets_chars (chars : List Char) {fuel : Nat} (acc s : Bytes)
    (hfuel : (chars.flatMap Json.escapeOctets ++ 0x22 :: s).length < fuel) :
    Json.readStringOctets fuel acc (chars.flatMap Json.escapeOctets ++ 0x22 :: s) =
      .ok (acc.reverse ++ chars.flatMap String.utf8EncodeChar, s) := by
  induction chars generalizing fuel acc with
  | nil =>
    obtain ⟨fuel, rfl⟩ := Nat.exists_eq_add_of_le' (Nat.one_le_of_lt hfuel)
    rw [List.flatMap_nil, List.flatMap_nil, List.append_nil]
    exact Json.readStringOctets_succ fuel acc _
  | cons c chars ih =>
    rw [List.flatMap_cons, List.append_assoc] at hfuel ⊢
    obtain ⟨fuel', hfuel', hread⟩ := Json.readStringOctets_char c acc hfuel
    rw [hread, ih _ hfuel', List.reverse_append, List.reverse_reverse, List.append_assoc,
      List.flatMap_cons]

/-- A quoted text is read as that text, up to its closing quote. -/
theorem Json.readString_quoted (text : String) (s : Bytes) :
    Json.readString (text.toList.flatMap Json.escapeOctets ++ 0x22 :: s) = .ok (text, s) := by
  unfold Json.readString
  rw [Json.readStringOctets_chars _ _ _ (Nat.lt_succ_self _)]
  have hdecode : Utf8.decode? (text.toList.flatMap String.utf8EncodeChar) = some text :=
    Utf8.decode?_encode text
  simp only [bind, Except.bind, List.reverse_nil, List.nil_append, hdecode]
  rfl

theorem Json.readText_quote (depth : Nat) (text : String) (s : Bytes) :
    Json.readText depth (Utf8.encode (Json.quote text) ++ s) = .ok (text, s) := by
  rw [Json.encode_quote, List.cons_append, List.cons_append, List.append_assoc,
    List.singleton_append]
  exact Json.readString_quoted text s

end Courier
