import Courier.Proofs.Text.Utf8
import Courier.Proofs.Url.Hosts

set_option autoImplicit false

/-! # Forms read back

A name or a value of a form is read back as it was. Plus signs are taken for spaces before the
octets behind the percent signs are put in their place, so a plus sign that was written as an octet
stays one. What is written consists of letters, digits and a few marks; what is to be known of them
is tried out octet by octet. -/

namespace Courier

/-! ## Reading -/

/-- An octet of a form, with a plus sign taken for a space. -/
def Form.spaced (b : UInt8) : UInt8 := if b = 0x2B then 0x20 else b

/-- The name or the value that a form holds in encoded form. -/
def Form.decode (s : List Char) : String :=
  Utf8.lossy (Percent.decode ((Utf8.encode (String.ofList s)).map Form.spaced))

/-! ## Characters -/

/-- What holds of all octets can be tried out. -/
theorem forall_octet {p : UInt8 → Bool} (h : ∀ k : Fin 256, p (UInt8.ofNat k.val) = true)
    (b : UInt8) : p b = true := by
  have := h ⟨b.toNat, b.toNat_lt⟩
  rwa [UInt8.ofNat_toNat] at this

/-- What holds of the characters that octets are written with holds of an encoding. -/
theorem Form.forall_mem_encode {p : Char → Bool}
    (h : ∀ k : Fin 256, (Form.encodeOctet (UInt8.ofNat k.val)).all p = true) (text : String) :
    ∀ c ∈ Form.encode text, p c = true := by
  intro c hc
  obtain ⟨b, -, hc⟩ := List.mem_flatMap.1 hc
  have hoctet := forall_octet (p := fun b => (Form.encodeOctet b).all p) h b
  exact List.all_eq_true.1 hoctet c hc

theorem Form.ascii_encode (text : String) : ∀ c ∈ Form.encode text, c.toNat < 128 := by
  simpa using Form.forall_mem_encode (p := fun c => decide (c.toNat < 128)) (by decide +kernel) text

/-! ## Octets -/

theorem Percent.decode_octet (b : UInt8) (rest : Bytes) :
    Percent.decode (asciiOctets (Percent.octet b) ++ rest) = b :: Percent.decode rest := by
  have hdigit : ∀ k : Fin 16,
      hexValue? (UInt8.ofNat (Percent.digit k.val).toNat) = some k.val := by decide
  have hb := b.toNat_lt
  have hhigh := hdigit ⟨b.toNat / 16, by omega⟩
  have hlow := hdigit ⟨b.toNat % 16, by omega⟩
  have hsum : b.toNat / 16 * 16 + b.toNat % 16 = b.toNat := by omega
  show Percent.decode (0x25 :: UInt8.ofNat (Percent.digit (b.toNat / 16)).toNat ::
    UInt8.ofNat (Percent.digit (b.toNat % 16)).toNat :: rest) = _
  simp only [Percent.decode, hhigh, hlow, hsum, UInt8.ofNat_toNat]

/-- An octet that is held as it is is neither a plus sign nor a percent sign. -/
theorem Form.spaced_of_isPlain {b : UInt8} (h : Form.isPlain b = true) :
    Form.spaced b = b ∧ b ≠ 0x25 := by
  constructor
  · refine if_neg ?_
    rintro rfl
    exact absurd h (by decide)
  · rintro rfl
    exact absurd h (by decide)

/-- No digit of an octet that is written out is a plus sign. -/
theorem Form.spaced_octet (b : UInt8) :
    (asciiOctets (Percent.octet b)).map Form.spaced = asciiOctets (Percent.octet b) := by
  have := forall_octet (p := fun b => (asciiOctets (Percent.octet b)).map Form.spaced ==
    asciiOctets (Percent.octet b)) (by decide +kernel) b
  exact beq_iff_eq.1 this

theorem Form.decode_encodeOctet (b : UInt8) (rest : Bytes) :
    Percent.decode ((asciiOctets (Form.encodeOctet b)).map Form.spaced ++ rest) =
      b :: Percent.decode rest := by
  unfold Form.encodeOctet
  split
  · next hplain =>
    obtain ⟨hspaced, hpercent⟩ := Form.spaced_of_isPlain hplain
    have hchar : UInt8.ofNat (Char.ofNat b.toNat).toNat = b := by
      have := forall_octet (p := fun b => UInt8.ofNat (Char.ofNat b.toNat).toNat == b)
        (by decide +kernel) b
      exact beq_iff_eq.1 this
    show Percent.decode (Form.spaced (UInt8.ofNat (Char.ofNat b.toNat).toNat) :: rest) = _
    rw [hchar, hspaced, Percent.decode_cons hpercent]
  · split
    · next hspace =>
      subst hspace
      exact Percent.decode_cons (by decide) rest
    · rw [Form.spaced_octet, Percent.decode_octet]

/-! ## Texts -/

theorem Form.decode_octets (octets : Bytes) :
    Percent.decode ((asciiOctets (octets.flatMap Form.encodeOctet)).map Form.spaced) = octets := by
  induction octets with
  | nil => rfl
  | cons b octets ih =>
    rw [List.flatMap_cons, asciiOctets, List.map_append, List.map_append]
    exact (Form.decode_encodeOctet b _).trans (congrArg (List.cons b) ih)

theorem Utf8.lossy_encode (text : String) : Utf8.lossy (Utf8.encode text) = text := by
  rw [Utf8.lossy, Utf8.scan_encode, List.map_map]
  exact (congrArg String.ofList (List.map_id _)).trans String.ofList_toList

/-- **Reading a form back.** A name or a value is read as it was written. -/
theorem Form.decode_encode (text : String) : Form.decode (Form.encode text) = text := by
  rw [Form.decode, Utf8.encode_of_ascii (Form.ascii_encode text), Form.encode, Form.decode_octets,
    Utf8.lossy_encode]

/-! ## Fields -/

/-- A name and, after the first equals sign, a value. -/
def Form.field (part : List Char) : String × String :=
  (Form.decode (part.takeWhile (· ≠ '=')), Form.decode ((part.dropWhile (· ≠ '=')).drop 1))

/-- The fields of a form are its parts between ampersands, but for those that are empty. -/
def Form.fields (form : List Char) : List (String × String) :=
  ((splitAll (· == '&') form).filter fun part => !part.isEmpty).map Form.field

/-- An encoded name or value holds no mark of a form. -/
theorem Form.not_mark_of_mem_encode {text : String} {c : Char} (h : c ∈ Form.encode text) :
    c ≠ '&' ∧ c ≠ '=' := by
  simpa using Form.forall_mem_encode (p := fun c => c != '&' && c != '=') (by decide +kernel) text
    c h

theorem Form.field_pair (field : String × String) : Form.field (Form.pair field) = field := by
  have hname : ∀ c ∈ Form.encode field.1, decide (c ≠ '=') = true :=
    fun c hc => decide_eq_true (Form.not_mark_of_mem_encode hc).2
  rw [Form.field, Form.pair, List.takeWhile_append_of_pos hname,
    List.dropWhile_append_of_pos hname]
  simp [Form.decode_encode]

theorem Form.fields_pair (field : String × String) : Form.fields (Form.pair field) = [field] := by
  have hpart : ∀ c ∈ Form.pair field, (c == '&') = false := by
    intro c hc
    rw [beq_eq_false_iff_ne]
    rcases List.mem_append.1 hc with hc | hc
    · exact (Form.not_mark_of_mem_encode hc).1
    · rcases List.mem_cons.1 hc with rfl | hc
      · decide
      · exact (Form.not_mark_of_mem_encode hc).1
  have hsome : Form.pair field ≠ [] := by simp [Form.pair]
  rw [Form.fields, splitAll_of_forall hpart]
  simp [hsome, Form.field_pair]

theorem Form.fields_append (form rest : List Char) :
    Form.fields (form ++ '&' :: rest) = Form.fields form ++ Form.fields rest := by
  rw [Form.fields, splitAll_append rfl, List.filter_append, List.map_append]
  rfl

/-- **Adding to a form.** The fields of a form that some have been added to are those that it had,
and then these. -/
theorem Form.fields_extend (form : List Char) (added : List (String × String)) :
    Form.fields (Form.extend form added) = Form.fields form ++ added := by
  induction added generalizing form with
  | nil => exact (List.append_nil _).symm
  | cons field added ih =>
    rw [Form.extend, List.foldl_cons]
    refine (ih _).trans ?_
    cases form with
    | nil => exact congrArg (· ++ added) (Form.fields_pair field)
    | cons c form =>
      rw [List.append_assoc]
      show Form.fields (c :: form ++ '&' :: Form.pair field) ++ added = _
      rw [Form.fields_append, Form.fields_pair, List.append_assoc, List.singleton_append]

end Courier
