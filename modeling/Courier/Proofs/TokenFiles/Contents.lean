import Courier.Proofs.Json.Objects
import Courier.Proofs.TokenFiles.Saving

set_option autoImplicit false

/-! # What a token file holds

The text that a token is written as is the object of its fields, and reading an object gives a token
with the fields whose names it has: members of other names do not matter, nor does the order
(`Token.Covers.decode`). So a token is read back from its own text, and from the file that it has
been saved to (`token_files_round_trip`). -/

namespace Courier

/-! ## Written tokens -/

/-- The text of a string. -/
def Json.stringText (text : String) : Bytes := Utf8.encode (Json.quote text)

theorem Json.Member.text_quoted (name text : String) :
    (Json.Member.quoted name (Json.stringText text)).text =
      Utf8.encode (Json.quote name ++ ":" ++ Json.quote text) := by
  have hcolon : Utf8.encode ":" = [0x3A] := rfl
  rw [Utf8.encode_append, Utf8.encode_append, Json.encode_quote name, hcolon]
  simp [Json.Member.text, Json.Member.quoted, Json.stringText]

/-- The members that a token is written as. -/
def Token.members (t : Token) : List Json.Member :=
  t.fields.map fun field => .quoted field.1 (Json.stringText field.2)

/-- The text of an object of strings, after its opening brace. -/
theorem Json.encode_intercalate (first : String × String) (fields : List (String × String)) :
    Utf8.encode (String.intercalate "," (Json.memberTexts
      ((first :: fields).map fun field => (field.1, Json.string field.2))) ++ "\x7d") =
    Json.membersText true
      ((first :: fields).map fun field => .quoted field.1 (Json.stringText field.2)) := by
  have htext : ∀ field : String × String,
      Utf8.encode (Json.quote field.1 ++ ":" ++ (Json.string field.2).text) =
        (Json.Member.quoted field.1 (Json.stringText field.2)).text := by
    intro field
    rw [Json.Member.text_quoted, Json.text]
  have hend : Utf8.encode "\x7d" = [0x7D] := rfl
  have hcomma : Utf8.encode "," = [0x2C] := rfl
  induction fields generalizing first with
  | nil =>
    rw [List.map_singleton, List.map_singleton, Json.memberTexts, Json.memberTexts,
      String.intercalate_singleton, Utf8.encode_append, htext, hend]
    rfl
  | cons second fields ih =>
    rw [List.map_cons, Json.memberTexts, List.map_cons, Json.memberTexts,
      String.intercalate_cons_cons, String.append_assoc, Utf8.encode_append, Utf8.encode_append,
      htext, hcomma, List.append_assoc]
    have hrest := ih second
    rw [List.map_cons, Json.memberTexts] at hrest
    rw [hrest]
    rfl

/-- A token is written as the object of its fields. -/
theorem Token.fileContent_eq (t : Token) : t.fileContent = Json.objectText t.members := by
  have hopen : Utf8.encode "\x7b" = [0x7B] := rfl
  have hmembers := Json.encode_intercalate ("access_token", t.accessToken)
    [("refresh_token", t.refreshToken), ("expires_in", t.expiresIn),
      ("expires_on", t.expiresOn), ("not_before", t.notBefore), ("resource", t.resource),
      ("token_type", t.tokenType)]
  rw [Token.fileContent, Token.jsonText, Json.text, String.append_assoc, Utf8.encode_append, hopen,
    List.singleton_append]
  rw [Token.fields, hmembers]
  rfl

/-! ## Fields that are there -/

/-- A token with the fields of some names only; the others are empty. -/
def Token.only (names : List String) (t : Token) : Token :=
  let kept (name text : String) : String := if name ∈ names then text else ""
  ⟨kept "access_token" t.accessToken, kept "refresh_token" t.refreshToken,
    kept "expires_in" t.expiresIn, kept "expires_on" t.expiresOn, kept "not_before" t.notBefore,
    kept "resource" t.resource, kept "token_type" t.tokenType⟩

theorem Token.only_congr {names names' : List String} (t : Token)
    (h : ∀ field ∈ t.fields, (field.1 ∈ names ↔ field.1 ∈ names')) :
    t.only names = t.only names' := by
  simp only [Token.fields, List.forall_mem_cons] at h
  obtain ⟨h1, h2, h3, h4, h5, h6, h7, -⟩ := h
  simp only [Token.only, h1, h2, h3, h4, h5, h6, h7]

theorem Token.only_all (t : Token) : t.only (t.fields.map Prod.fst) = t := by
  simp [Token.only, Token.fields]

theorem Token.only_nil (t : Token) : t.only [] = Token.empty := by
  simp [Token.only, Token.empty]

/-- Reading a field puts its text in its place. -/
theorem Token.exists_jsonField {t : Token} {name text : String} (h : (name, text) ∈ t.fields) :
    ∃ field, (Token.jsonFields.find? fun f => f.name == name) = some field ∧
      ∀ (depth : Nat) (seen : List String) (rest : Bytes),
        field.read depth (t.only seen) (Json.stringText text ++ rest) =
          .ok (t.only (name :: seen), rest) := by
  have hread : ∀ (known : String) (set : Token → String → Token) (depth : Nat)
      (seen : List String) (rest : Bytes), set (t.only seen) text = t.only (name :: seen) →
      (Json.Field.of known .defaulted Json.readText set).read depth (t.only seen)
        (Json.stringText text ++ rest) = .ok (t.only (name :: seen), rest) := by
    intro known set depth seen rest hset
    have htext := Json.readText_quote depth text rest
    unfold Json.Field.of
    dsimp only
    rw [← hset, Json.stringText, htext]
    rfl
  simp only [Token.fields, List.mem_cons, Prod.mk.injEq, List.not_mem_nil, or_false] at h
  rcases h with ⟨rfl, rfl⟩ | ⟨rfl, rfl⟩ | ⟨rfl, rfl⟩ | ⟨rfl, rfl⟩ | ⟨rfl, rfl⟩ | ⟨rfl, rfl⟩ |
    ⟨rfl, rfl⟩ <;>
    exact ⟨_, rfl, fun depth seen rest => hread _ _ depth seen rest (by simp [Token.only])⟩

theorem Token.find?_jsonFields_eq_none {t : Token} {name : String}
    (h : name ∉ t.fields.map Prod.fst) :
    (Token.jsonFields.find? fun f => f.name == name) = none := by
  simp only [Token.fields, List.map_cons, List.map_nil, List.mem_cons, List.not_mem_nil, or_false,
    not_or] at h
  obtain ⟨h1, h2, h3, h4, h5, h6, h7⟩ := h
  simp [Token.jsonFields, Json.Field.of, Ne.symm h1, Ne.symm h2, Ne.symm h3, Ne.symm h4, Ne.symm h5,
    Ne.symm h6, Ne.symm h7]

/-! ## Objects that hold the fields of a token -/

/-- Members that come from the written ones by adding members of other names, with any values, and
    by removing some, in any order. -/
structure Token.Covers (t : Token) (members : List Json.Member) : Prop where
  /-- A field has its text. -/
  known : ∀ m ∈ members, m.name ∈ t.fields.map Prod.fst →
    ∃ text, (m.name, text) ∈ t.fields ∧ m.value = Json.stringText text
  /-- Any other member has some value. -/
  unknown : ∀ m ∈ members, m.name ∉ t.fields.map Prod.fst → Json.Spells .value m.value []
  /-- No field is there twice. -/
  once : ((members.map Json.Member.name).filter fun name =>
    name ∈ t.fields.map Prod.fst).Nodup

/-- The fields of a token are gathered from the members that are there. -/
theorem Token.Covers.gathers {t : Token} {members : List Json.Member} (h : t.Covers members)
    (depth : Nat) (seen : List String) {final : List String}
    (hseen : ∀ m ∈ members, m.name ∈ t.fields.map Prod.fst → m.name ∉ seen)
    (hfinal : ∀ field ∈ t.fields, (field.1 ∈ final ↔
      field.1 ∈ seen ∨ field.1 ∈ members.map Json.Member.name)) :
    Json.Gathers depth Token.jsonFields seen (t.only seen) members (t.only final) := by
  induction members generalizing seen with
  | nil =>
    have heq : t.only final = t.only seen :=
      t.only_congr fun field hfield => (hfinal field hfield).trans (by simp)
    rw [heq]
    exact .all rfl
  | cons m members ih =>
    obtain ⟨hknown, hunknown, honce⟩ := h
    obtain ⟨hm, hknown⟩ := List.forall_mem_cons.1 hknown
    obtain ⟨hm', hunknown⟩ := List.forall_mem_cons.1 hunknown
    obtain ⟨hmseen, hseen⟩ := List.forall_mem_cons.1 hseen
    rw [List.map_cons, List.filter_cons] at honce
    by_cases hname : m.name ∈ t.fields.map Prod.fst
    · rw [if_pos (by simpa using hname), List.nodup_cons] at honce
      obtain ⟨text, hfield, hvalue⟩ := hm hname
      obtain ⟨field, hfind, hread⟩ := Token.exists_jsonField hfield
      refine .read hfind (hmseen hname) (fun rest => hvalue ▸ hread depth seen rest)
        (ih ⟨hknown, hunknown, honce.2⟩ _ (fun n hn hnname => ?_) fun f hf => ?_)
      · -- a field that comes later has another name
        rw [List.mem_cons, not_or]
        refine ⟨fun heq => honce.1 ?_, hseen n hn hnname⟩
        rw [← heq, List.mem_filter]
        exact ⟨List.mem_map_of_mem hn, by simpa using hnname⟩
      · rw [hfinal f hf, List.map_cons, List.mem_cons, List.mem_cons]
        simp only [or_assoc, or_left_comm]
    · rw [if_neg (by simpa using hname)] at honce
      refine .skipped (Token.find?_jsonFields_eq_none hname) (hm' hname)
        (ih ⟨hknown, hunknown, honce⟩ _ hseen fun f hf => ?_)
      have hne : f.1 ≠ m.name := fun heq => hname (heq ▸ List.mem_map_of_mem hf)
      rw [hfinal f hf, List.map_cons, List.mem_cons, or_iff_right hne]

/-- An object that covers a token is read as the token with the fields that are there. -/
theorem Token.Covers.decode {t : Token} {members : List Json.Member} (h : t.Covers members) :
    Json.decode Token.readJson (Json.objectText members) =
      .ok (t.only (members.map Json.Member.name)) := by
  have hgathers := h.gathers 126 [] (fun m _ _ => List.not_mem_nil)
    fun field _ => (or_iff_right List.not_mem_nil).symm
  rw [Token.only_nil] at hgathers
  exact Json.decode_objectText hgathers

theorem Token.covers_members (t : Token) : t.Covers t.members := by
  refine ⟨fun m hm _ => ?_, fun m hm hname => ?_, ?_⟩
  · obtain ⟨field, hfield, rfl⟩ := List.mem_map.1 hm
    exact ⟨field.2, hfield, rfl⟩
  · obtain ⟨field, hfield, rfl⟩ := List.mem_map.1 hm
    exact absurd (List.mem_map_of_mem hfield) hname
  · simp [Token.members, Token.fields, Json.Member.quoted]

/-- A token is read back from the text that it is written as. -/
theorem Token.decode_fileContent (t : Token) :
    Json.decode Token.readJson t.fileContent = .ok t := by
  have hnames : t.members.map Json.Member.name = t.fields.map Prod.fst := by
    rw [Token.members, List.map_map]
    rfl
  rw [t.fileContent_eq, t.covers_members.decode, hnames, t.only_all]

/-- A token that has been saved is loaded again. -/
theorem Token.load_of_save {t : Token} {path : String} {tree tree' : FileTree}
    (h : t.save path tree = (.ok (), tree')) : Token.load path tree' = .ok t := by
  obtain ⟨n, hrun⟩ := @SaveStage.finish_eq_run path t.fileContent .directory tree
  rw [show SaveStage.directory.finish path t.fileContent tree = (.ok (), tree') from h] at hrun
  have hholds := (@SaveStage.run_keeps path t.fileContent
    (List.replicate n (.granted t.fileContent.length)) (.directory, tree) trivial).2
  rw [hrun] at hholds
  simp only [Token.load, hholds.1, Token.ofFile, t.decode_fileContent]

/-! ## Members that are added or removed -/

theorem Token.Covers.add {t : Token} {before after : List Json.Member} {m : Json.Member}
    (h : t.Covers (before ++ after)) (hname : m.name ∉ t.fields.map Prod.fst)
    (hvalue : Json.Spells .value m.value []) : t.Covers (before ++ m :: after) := by
  refine ⟨fun n hn hnname => ?_, fun n hn hnname => ?_, ?_⟩
  · obtain hn | rfl | hn := by simpa using hn
    · exact h.known n (List.mem_append_left _ hn) hnname
    · exact absurd hnname hname
    · exact h.known n (List.mem_append_right _ hn) hnname
  · obtain hn | rfl | hn := by simpa using hn
    · exact h.unknown n (List.mem_append_left _ hn) hnname
    · exact hvalue
    · exact h.unknown n (List.mem_append_right _ hn) hnname
  · have honce := h.once
    rw [List.map_append, List.filter_append] at honce
    rw [List.map_append, List.map_cons, List.filter_append,
      List.filter_cons_of_neg (by simpa using hname)]
    exact honce

theorem Token.Covers.remove {t : Token} {before after : List Json.Member} {m : Json.Member}
    (h : t.Covers (before ++ m :: after)) : t.Covers (before ++ after) := by
  have hsub : (before ++ after).Sublist (before ++ m :: after) :=
    (List.Sublist.refl before).append (List.sublist_cons_self m after)
  exact ⟨fun n hn => h.known n (hsub.subset hn), fun n hn => h.unknown n (hsub.subset hn),
    h.once.sublist ((hsub.map Json.Member.name).filter _)⟩

/-- Token files give back the token that they were written from: the text that a token is saved as is
    read as that token, and so is the file after a save that has succeeded. The text is an object of
    the token's fields. Members of other names may be added anywhere, with any values, and members
    may be removed: reading comes to the same token, but for the fields that have been removed, which
    are empty. -/
theorem token_files_round_trip (t : Token) :
    Json.decode Token.readJson t.fileContent = .ok t ∧
    (∀ (path : String) (tree tree' : FileTree), t.save path tree = (.ok (), tree') →
      Token.load path tree' = .ok t) ∧
    t.fileContent = Json.objectText t.members ∧ t.Covers t.members ∧
    (∀ (before after : List Json.Member) (m : Json.Member), t.Covers (before ++ after) →
      m.name ∉ t.fields.map Prod.fst → Json.Spells .value m.value [] →
      t.Covers (before ++ m :: after)) ∧
    (∀ (before after : List Json.Member) (m : Json.Member), t.Covers (before ++ m :: after) →
      t.Covers (before ++ after)) ∧
    ∀ members : List Json.Member, t.Covers members →
      Json.decode Token.readJson (Json.objectText members) =
        .ok (t.only (members.map Json.Member.name)) :=
  ⟨t.decode_fileContent, fun _ _ _ h => Token.load_of_save h, t.fileContent_eq, t.covers_members,
    fun _ _ _ h hname hvalue => h.add hname hvalue, fun _ _ _ h => h.remove,
    fun _ h => h.decode⟩

set_option maxRecDepth 4000 in
/-- A token with a quote and a line feed in it is saved and loaded; and it is read between two members
    that tokens do not have, without its other fields. -/
theorem token_files_round_trip_extended :
    Token.load "t" (Token.save { Token.empty with resource := "\"\n" } "t" FileTree.empty).2 =
      .ok { Token.empty with resource := "\"\n" } ∧
    Json.decode Token.readJson (Json.objectText
      [.quoted "x" [0x5B, 0x7B, 0x7D, 0x5D], .quoted "resource" (Json.stringText "\"\n"),
        .quoted "" [0x30]]) = .ok { Token.empty with resource := "\"\n" } := by
  obtain ⟨tree', hsave⟩ : ∃ tree', Token.save { Token.empty with resource := "\"\n" } "t"
      FileTree.empty = (.ok (), tree') := ⟨_, SaveStage.finish_of_run (n := 5) rfl⟩
  have hcovers : ({ Token.empty with resource := "\"\n" } : Token).Covers
      [.quoted "x" [0x5B, 0x7B, 0x7D, 0x5D], .quoted "resource" (Json.stringText "\"\n"),
        .quoted "" [0x30]] := by
    refine ⟨fun m hm hname => ?_, fun m hm hname => ?_, by decide⟩
    · obtain rfl | rfl | rfl := by simpa using hm
      · exact absurd hname (by decide)
      · exact ⟨"\"\n", by decide, rfl⟩
      · exact absurd hname (by decide)
    · obtain rfl | rfl | rfl := by simpa using hm
      · exact .array (.someItems (.object .noMembers) .lastItem)
      · exact absurd (by decide) hname
      · exact .number ⟨_, _, .zero, .none, .none⟩
  obtain ⟨-, hload, -, -, -, -, hread⟩ :=
    token_files_round_trip { Token.empty with resource := "\"\n" }
  rw [hsave]
  exact ⟨hload "t" _ tree' hsave, hread _ hcovers⟩

end Courier
