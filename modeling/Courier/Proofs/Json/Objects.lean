import Courier.Proofs.Json.Complete
import Courier.Proofs.Json.Quoted

set_option autoImplicit false

/-! # Objects that are read as records

The text of an object is put together from its members, each with its name as it is spelled and the
text of its value. Reading the object as a record takes the members off one after another: a member
of a known name changes the record, and a member of another name is passed over, whatever its value
is. `Json.Gathers` says what a record becomes on the way, with no mention of the text, and
`Json.decode_objectText` that this is what is read. -/

namespace Courier

/-! ## Members -/

/-- A member of an object in a text. The name is spelled from behind its opening quote to its closing
    quote. -/
structure Json.Member where
  name : String
  spelled : Bytes
  value : Bytes
  /-- The name is read as it is spelled. -/
  reads : ∀ rest : Bytes, Json.readString (spelled ++ rest) = .ok (name, rest)

/-- A member whose name is spelled in the usual way. -/
def Json.Member.quoted (name : String) (value : Bytes) : Json.Member where
  name := name
  spelled := name.toList.flatMap Json.escapeOctets ++ [0x22]
  value := value
  reads rest := by
    rw [List.append_assoc]
    exact Json.readString_quoted name rest

/-- The text of a member. -/
def Json.Member.text (m : Json.Member) : Bytes := 0x22 :: (m.spelled ++ 0x3A :: m.value)

/-- The rest of the text of an object, at its beginning or after a member. -/
def Json.membersText : Bool → List Json.Member → Bytes
  | _, [] => [0x7D]
  | true, m :: members => m.text ++ Json.membersText false members
  | false, m :: members => 0x2C :: (m.text ++ Json.membersText false members)

/-- The text of an object. -/
def Json.objectText (members : List Json.Member) : Bytes := 0x7B :: Json.membersText true members

theorem Json.endsNumber_membersText (members : List Json.Member) :
    Json.EndsNumber (Json.membersText false members) := by
  cases members with
  | nil => exact .of_cons (by decide)
  | cons m members => exact .of_cons (by decide)

theorem Json.Member.text_append (m : Json.Member) (s : Bytes) :
    m.text ++ s = 0x22 :: (m.spelled ++ 0x3A :: (m.value ++ s)) := by
  rw [Json.Member.text, List.cons_append, List.append_assoc, List.cons_append]

/-- The name of the next member is read. -/
theorem Json.nextName?_membersText (first : Bool) (m : Json.Member)
    (members : List Json.Member) :
    Json.nextName? first (Json.membersText first (m :: members)) =
      .ok (some (m.name, 0x3A :: (m.value ++ Json.membersText false members))) := by
  have hname : (Json.readString
      (m.spelled ++ 0x3A :: (m.value ++ Json.membersText false members))).map some =
        .ok (some (m.name, 0x3A :: (m.value ++ Json.membersText false members))) := by
    rw [m.reads]
    rfl
  cases first with
  | true =>
    rw [Json.membersText, Json.Member.text_append]
    exact hname
  | false =>
    rw [Json.membersText, Json.Member.text_append]
    exact hname

theorem Json.length_membersText_lt (first : Bool) (m : Json.Member) (members : List Json.Member) :
    (Json.membersText false members).length <
      (Json.membersText first (m :: members)).length := by
  cases first <;>
    simp only [Json.membersText, Json.Member.text_append, List.length_cons, List.length_append] <;>
    omega

/-! ## Records -/

section Record

variable {σ : Type} {depth : Nat} {fields : List (Json.Field σ)}

/-- What a record becomes when the members of an object are taken off. `seen` are the known names so
    far. -/
inductive Json.Gathers (depth : Nat) (fields : List (Json.Field σ)) :
    List String → σ → List Json.Member → σ → Prop
  | all {seen : List String} {acc : σ}
      (complete : (fields.all fun f => f.absence != .required || seen.contains f.name) = true) :
      Json.Gathers depth fields seen acc [] acc
  | skipped {seen : List String} {acc final : σ} {m : Json.Member} {members : List Json.Member}
      (unknown : (fields.find? fun f => f.name == m.name) = none)
      (value : Json.Spells .value m.value [])
      (rest : Json.Gathers depth fields seen acc members final) :
      Json.Gathers depth fields seen acc (m :: members) final
  | read {seen : List String} {acc acc' final : σ} {field : Json.Field σ} {m : Json.Member}
      {members : List Json.Member} (known : (fields.find? fun f => f.name == m.name) = some field)
      (new : m.name ∉ seen)
      (value : ∀ rest : Bytes, field.read depth acc (m.value ++ rest) = .ok (acc', rest))
      (rest : Json.Gathers depth fields (m.name :: seen) acc' members final) :
      Json.Gathers depth fields seen acc (m :: members) final

/-- The members of an object are read up to its end. -/
theorem Json.Gathers.readNamed_eq {seen : List String} {acc final : σ} {members : List Json.Member}
    (h : Json.Gathers depth fields seen acc members final) (first : Bool) {fuel : Nat}
    (hfuel : (Json.membersText first members).length ≤ fuel) :
    Json.readNamed depth fields fuel first seen acc (Json.membersText first members) =
      .ok (final, [0x7D]) := by
  induction h generalizing first fuel with
  | all complete =>
    obtain ⟨fuel, rfl⟩ := Nat.exists_eq_add_of_le' (Nat.one_le_of_lt (Nat.lt_of_lt_of_le
      (by cases first <;> exact Nat.zero_lt_one) hfuel))
    have hend : Json.nextName? first (Json.membersText first []) = .ok none := by
      cases first <;> rfl
    rw [Json.readNamed, hend]
    exact if_pos complete
  | @skipped seen acc final m members unknown value rest ih =>
    have hlen := Json.length_membersText_lt first m members
    obtain ⟨fuel, rfl⟩ := Nat.exists_eq_add_of_le' (Nat.one_le_of_lt (Nat.lt_of_lt_of_le hlen hfuel))
    have hskip : Json.colon (0x3A :: (m.value ++ Json.membersText false members)) >>= Json.skip =
        .ok (Json.membersText false members) :=
      Json.skip_append value (Json.endsNumber_membersText members)
    simp only [Json.readNamed, Json.nextName?_membersText, unknown, hskip]
    exact ih false (by omega)
  | @read seen acc acc' final field m members known new value rest ih =>
    have hlen := Json.length_membersText_lt first m members
    obtain ⟨fuel, rfl⟩ := Nat.exists_eq_add_of_le' (Nat.one_le_of_lt (Nat.lt_of_lt_of_le hlen hfuel))
    have hread : Json.colon (0x3A :: (m.value ++ Json.membersText false members)) >>=
        field.read depth acc = .ok (acc', Json.membersText false members) := value _
    have hseen : seen.contains m.name = false := by simpa using new
    simp only [Json.readNamed, Json.nextName?_membersText, known, hseen, hread]
    exact ih false (by omega)

/-- An object is read as the record that its members make. -/
theorem Json.decode_objectText {init final : σ} {members : List Json.Member}
    (h : Json.Gathers 126 fields [] init members final) :
    Json.decode (Json.readRecord fields init) (Json.objectText members) = .ok final := by
  have hrecord : Json.readRecord fields init Json.depthLimit (Json.objectText members) =
      (do
        let p ← Json.readNamed 126 fields ((Json.membersText true members).length + 1) true [] init
          (Json.membersText true members)
        let s ← Json.endObject p.2
        pure (p.1, s)) := rfl
  rw [Json.decode, hrecord, h.readNamed_eq true (Nat.le_succ _)]
  rfl

end Record

end Courier
