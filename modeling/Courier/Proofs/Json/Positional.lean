import Courier.Proofs.Json.Sound
import Mathlib.Data.List.DropRight

set_option autoImplicit false

/-! # Records that are written as arrays

A record is read from an array as if the items were read first, by any one reader that the fields
agree with, and put into the fields after that. So it can be told from the items alone which arrays
stand for a record: `Json.fill`.

The main statement is `Json.decode_readRecord_iff`: of the texts that are no object, those stand for
a record that are arrays whose items fill its fields. -/

namespace Courier

variable {σ β : Type}

/-! ## Filling fields -/

/-- A field with what an item does to a record in its place; some items do not fit. -/
structure Json.Slot (σ β : Type) where
  field : Json.Field σ
  put : σ → β → Option σ

/-- The record whose fields are filled by some items in their order. Fields that may be left out at
    the end of an array keep what they have if there are no more items. -/
def Json.fill : List (Json.Slot σ β) → List β → σ → Option σ
  | [], [], acc => some acc
  | [], _ :: _, _ => none
  | slot :: slots, [], acc =>
    if slot.field.absence = .defaulted then Json.fill slots [] acc else none
  | slot :: slots, v :: items, acc => (slot.put acc v).bind fun acc => Json.fill slots items acc

/-- Whether a field reads what a reader reads and puts it in its place. -/
def Json.Slot.Agrees (slot : Json.Slot σ β) (item : Json.Reader β) : Prop :=
  ∀ depth acc s acc' t, slot.field.read depth acc s = .ok (acc', t) ↔
    ∃ v, item depth s = .ok (v, t) ∧ slot.put acc v = some acc'

/-- A field whose value is what `view` sees in an item. -/
def Json.Slot.of {α : Type} (name : String) (absence : Json.Absence) (reader : Json.Reader α)
    (view : β → Option α) (set : σ → α → σ) : Json.Slot σ β :=
  ⟨.of name absence reader set, fun acc v => (view v).map (set acc)⟩

/-- Whether a reader reads what another one does, as far as `view` sees something in it. -/
def Json.Reader.Views {α : Type} (reader : Json.Reader α) (item : Json.Reader β)
    (view : β → Option α) : Prop :=
  ∀ depth s x t, reader depth s = .ok (x, t) ↔
    ∃ v, item depth s = .ok (v, t) ∧ view v = some x

theorem Json.Reader.views_self (item : Json.Reader β) : item.Views item some :=
  fun depth s x t => by simp

theorem Json.Slot.agrees_of {α : Type} {reader : Json.Reader α} {item : Json.Reader β}
    {view : β → Option α} (h : reader.Views item view) (name : String) (absence : Json.Absence)
    (set : σ → α → σ) : (Json.Slot.of name absence reader view set).Agrees item := by
  intro depth acc s acc' t
  constructor
  · intro hfield
    obtain ⟨⟨x, u⟩, hread, hpair⟩ := map_eq_ok_iff.1 hfield
    obtain ⟨rfl, rfl⟩ := Prod.mk.inj hpair
    obtain ⟨v, hitem, hview⟩ := (h depth s x u).1 hread
    exact ⟨v, hitem, Option.map_eq_some_iff.2 ⟨x, hview, rfl⟩⟩
  · rintro ⟨v, hitem, hput⟩
    obtain ⟨x, hview, rfl⟩ := Option.map_eq_some_iff.1 hput
    exact map_eq_ok_iff.2 ⟨(x, t), (h depth s x t).2 ⟨v, hitem, hview⟩, rfl⟩

/-- Fields that agree with a reader take off a value if the reader does. -/
theorem Json.Slot.soundFields {slots : List (Json.Slot σ β)} {item : Json.Reader β}
    (sound : item.Sound) (agree : ∀ slot ∈ slots, slot.Agrees item) :
    Json.SoundFields (slots.map Json.Slot.field) := by
  intro field hfield depth acc s acc' t hread
  obtain ⟨slot, hslot, rfl⟩ := List.mem_map.1 hfield
  obtain ⟨v, hitem, -⟩ := (agree slot hslot depth acc s acc' t).1 hread
  exact sound hitem

/-! ## Items -/

theorem Json.length_skipBlanks_le (s : Bytes) : (Json.skipBlanks s).length ≤ s.length :=
  (List.dropWhile_suffix _).length_le

/-- The next item of an array is not before the place where it is looked for. -/
theorem Json.nextItem?_length_le {first : Bool} {s u : Bytes}
    (h : Json.nextItem? first s = .ok (some u)) : u.length ≤ s.length := by
  have hs := Json.length_skipBlanks_le s
  unfold Json.nextItem? at h
  split at h
  · exact absurd h (by simp)
  · rename_i b v heq
    rw [heq] at hs
    split at h
    · exact absurd h (by simp)
    · split at h
      · obtain rfl := Option.some.inj (Except.ok.inj h)
        exact hs
      · split at h
        · split at h
          · exact absurd h (by simp)
          · rename_i c w heq'
            split at h
            · exact absurd h (by simp)
            · obtain rfl := Option.some.inj (Except.ok.inj h)
              have hv := Json.length_skipBlanks_le v
              rw [heq'] at hv
              exact Nat.le_trans hv (Nat.le_of_succ_le hs)
        · exact absurd h (by simp)

theorem Json.nextItem?_eq_none {first : Bool} {s t : Bytes} (h : Json.endArray s = .ok t) :
    Json.nextItem? first s = .ok none := by
  unfold Json.nextItem?
  rw [Json.endArray_eq_ok h]
  exact if_pos rfl

section Next

variable {item : Bytes → Except Json.Fault (β × Bytes)} {fuel : Nat} {first : Bool} {s v : Bytes}

theorem Json.readItems_of_end (h : Json.nextItem? first s = .ok none) :
    Json.readItems item (fuel + 1) first s = .ok ([], s) := by
  rw [Json.readItems, h]

/-- If there is a next item it is read first, and the others are read after it. -/
theorem Json.readItems_next_iff (h : Json.nextItem? first s = .ok (some v)) {items : List β}
    {u : Bytes} : Json.readItems item (fuel + 1) first s = .ok (items, u) ↔
      ∃ x w others, item v = .ok (x, w) ∧ Json.readItems item fuel false w = .ok (others, u) ∧
        items = x :: others := by
  rw [Json.readItems, h]
  dsimp only
  constructor
  · intro hitems
    split at hitems
    · exact absurd hitems (by simp)
    · rename_i x w hitem
      obtain ⟨⟨others, u'⟩, hothers, hpair⟩ := map_eq_ok_iff.1 hitems
      obtain ⟨rfl, rfl⟩ := Prod.mk.inj hpair
      exact ⟨x, w, others, hitem, hothers, rfl⟩
  · rintro ⟨x, w, others, hitem, hothers, rfl⟩
    rw [hitem]
    exact map_eq_ok_iff.2 ⟨(others, u), hothers, rfl⟩

/-- If there is a next item it is read for the next field. -/
theorem Json.readPositional_next_iff (h : Json.nextItem? first s = .ok (some v)) {depth : Nat}
    {field : Json.Field σ} {fields : List (Json.Field σ)} {acc acc' : σ} {u : Bytes} :
    Json.readPositional depth (field :: fields) first acc s = .ok (acc', u) ↔
      ∃ acc'' w, field.read depth acc v = .ok (acc'', w) ∧
        Json.readPositional depth fields false acc'' w = .ok (acc', u) := by
  rw [Json.readPositional, h]
  dsimp only
  constructor
  · intro hread
    split at hread
    · exact absurd hread (by simp)
    · rename_i acc'' w hfield
      exact ⟨acc'', w, hfield, hread⟩
  · rintro ⟨acc'', w, hfield, hread⟩
    rw [hfield]
    exact hread

end Next

/-- No items are read exactly from where an array ends. -/
theorem Json.readItems_eq_nil_iff {item : Bytes → Except Json.Fault (β × Bytes)} {fuel : Nat}
    {first : Bool} {s t : Bytes} :
    (∃ u, Json.readItems item (fuel + 1) first s = .ok ([], u) ∧ Json.endArray u = .ok t) ↔
      Json.endArray s = .ok t := by
  constructor
  · rintro ⟨u, hitems, hend⟩
    cases hnext : Json.nextItem? first s with
    | error f =>
      rw [Json.readItems, hnext] at hitems
      exact absurd hitems (by simp)
    | ok next =>
      cases next with
      | none =>
        rw [Json.readItems_of_end hnext] at hitems
        obtain ⟨-, rfl⟩ := Prod.mk.inj (Except.ok.inj hitems)
        exact hend
      | some v =>
        obtain ⟨x, w, others, -, -, hcons⟩ := (Json.readItems_next_iff hnext).1 hitems
        exact absurd hcons (by simp)
  · intro hend
    exact ⟨s, Json.readItems_of_end (Json.nextItem?_eq_none hend), hend⟩

/-- Fields that agree with a reader are filled by the items of an array. -/
theorem Json.readPositional_iff {item : Json.Reader β} (sound : item.Sound)
    {slots : List (Json.Slot σ β)} (agree : ∀ slot ∈ slots, slot.Agrees item) {depth fuel : Nat}
    {first : Bool} {acc acc' : σ} {s t : Bytes} (hfuel : s.length < fuel) :
    (∃ u, Json.readPositional depth (slots.map Json.Slot.field) first acc s = .ok (acc', u) ∧
        Json.endArray u = .ok t) ↔
      ∃ items u, Json.readItems (item depth) fuel first s = .ok (items, u) ∧
        Json.endArray u = .ok t ∧ Json.fill slots items acc = some acc' := by
  induction slots generalizing first acc s fuel with
  | nil =>
    obtain ⟨n, rfl⟩ : ∃ n, fuel = n + 1 := ⟨fuel - 1, by omega⟩
    constructor
    · rintro ⟨u, hread, hend⟩
      obtain ⟨rfl, rfl⟩ := Prod.mk.inj (Except.ok.inj hread)
      obtain ⟨u, hitems, hend⟩ := Json.readItems_eq_nil_iff.2 hend
      exact ⟨[], u, hitems, hend, rfl⟩
    · rintro ⟨items, u, hitems, hend, hfill⟩
      cases items with
      | nil =>
        obtain rfl := Option.some.inj hfill
        exact ⟨s, rfl, Json.readItems_eq_nil_iff.1 ⟨u, hitems, hend⟩⟩
      | cons v items => exact absurd hfill (by simp [Json.fill])
  | cons slot slots ih =>
    have rest : ∀ slot ∈ slots, slot.Agrees item := fun f hf => agree f (List.mem_cons_of_mem _ hf)
    obtain ⟨n, rfl⟩ : ∃ n, fuel = n + 1 := ⟨fuel - 1, by omega⟩
    rw [List.map_cons]
    cases hnext : Json.nextItem? first s with
    | error f =>
      rw [Json.readPositional, Json.readItems, hnext]
      simp
    | ok next =>
      cases next with
      | none =>
        -- The array ends, so that no field has an item from here on.
        rw [Json.readItems_of_end hnext, Json.readPositional, hnext]
        by_cases habsence : slot.field.absence = .defaulted
        · rw [if_pos habsence, ih rest hfuel, Json.readItems_of_end hnext]
          refine exists_congr fun items => exists_congr fun u => and_congr_right fun hitems => ?_
          obtain ⟨rfl, -⟩ := Prod.mk.inj (Except.ok.inj hitems)
          rw [Json.fill, if_pos habsence]
        · rw [if_neg habsence]
          constructor
          · rintro ⟨u, hread, -⟩
            exact absurd hread (by simp)
          · rintro ⟨items, u, hitems, -, hfill⟩
            obtain ⟨rfl, -⟩ := Prod.mk.inj (Except.ok.inj hitems)
            rw [Json.fill, if_neg habsence] at hfill
            exact absurd hfill (by simp)
      | some v =>
        have hlength := Json.nextItem?_length_le hnext
        have hagrees := agree slot List.mem_cons_self
        -- What is left after an item is shorter, so that the items after it do not run out of fuel.
        have hshort : ∀ {x w}, item depth v = .ok (x, w) → w.length < n := by
          intro x w hitem
          have := (sound hitem).length_lt
          omega
        constructor
        · rintro ⟨u, hread, hend⟩
          obtain ⟨acc'', w, hfield, hread⟩ := (Json.readPositional_next_iff hnext).1 hread
          obtain ⟨x, hitem, hput⟩ := (hagrees depth acc v acc'' w).1 hfield
          obtain ⟨items, u', hitems, hend', hfill⟩ :=
            (ih rest (hshort hitem)).1 ⟨u, hread, hend⟩
          refine ⟨x :: items, u', ?_, hend', ?_⟩
          · exact (Json.readItems_next_iff hnext).2 ⟨x, w, items, hitem, hitems, rfl⟩
          · rw [Json.fill, hput]
            exact hfill
        · rintro ⟨items, u, hitems, hend, hfill⟩
          obtain ⟨x, w, others, hitem, hothers, rfl⟩ := (Json.readItems_next_iff hnext).1 hitems
          obtain ⟨acc'', hput, hfill⟩ := Option.bind_eq_some_iff.1 hfill
          obtain ⟨u', hread, hend'⟩ :=
            (ih rest (hshort hitem)).2 ⟨others, u, hothers, hend, hfill⟩
          have hfield := (hagrees depth acc v acc'' w).2 ⟨x, hitem, hput⟩
          exact ⟨u', (Json.readPositional_next_iff hnext).2 ⟨acc'', w, hfield, hread⟩, hend'⟩

/-! ## Arrays -/

/-- The items of an array, read inside it. -/
theorem Json.readList_array_iff {item : Json.Reader β} {depth : Nat} {s u t : Bytes}
    {items : List β} (h : Json.skipBlanks s = 0x5B :: u) :
    Json.readList item (depth + 1) s = .ok (items, t) ↔
      ∃ v, Json.readItems (item depth) (u.length + 1) true u = .ok (items, v) ∧
        Json.endArray v = .ok t := by
  unfold Json.readList
  rw [h]
  exact Json.closed_eq_ok_iff

/-- An array is read as a record exactly if its items fill the fields. -/
theorem Json.readRecord_array_iff {item : Json.Reader β} (sound : item.Sound)
    {slots : List (Json.Slot σ β)} (agree : ∀ slot ∈ slots, slot.Agrees item) {init acc : σ}
    {depth : Nat} {s u t : Bytes} (h : Json.skipBlanks s = 0x5B :: u) :
    Json.readRecord (slots.map Json.Slot.field) init (depth + 1) s = .ok (acc, t) ↔
      ∃ items, Json.readList item (depth + 1) s = .ok (items, t) ∧
        Json.fill slots items init = some acc := by
  have hrecord : Json.readRecord (slots.map Json.Slot.field) init (depth + 1) s = .ok (acc, t) ↔
      ∃ v, Json.readPositional depth (slots.map Json.Slot.field) true init u = .ok (acc, v) ∧
        Json.endArray v = .ok t := by
    unfold Json.readRecord
    rw [h]
    exact Json.closed_eq_ok_iff
  rw [hrecord, Json.readPositional_iff sound agree (Nat.lt_succ_self _)]
  constructor
  · rintro ⟨items, v, hitems, hend, hfill⟩
    exact ⟨items, (Json.readList_array_iff h).2 ⟨v, hitems, hend⟩, hfill⟩
  · rintro ⟨items, hlist, hfill⟩
    obtain ⟨v, hitems, hend⟩ := (Json.readList_array_iff h).1 hlist
    exact ⟨items, v, hitems, hend, hfill⟩

/-- What is read as a list begins with a bracket. -/
theorem Json.bracket_of_readList {item : Json.Reader β} {depth : Nat} {s t : Bytes}
    {items : List β} (h : Json.readList item depth s = .ok (items, t)) :
    ∃ u, Json.skipBlanks s = 0x5B :: u := by
  unfold Json.readList at h
  split at h
  · rename_i u heq
    exact ⟨u, heq⟩
  · exact absurd h Json.refuse_ne_ok

/-! ## Views of any value -/

/-- The octet that a value begins with, unless it is a number. -/
def Json.front? : Json → Option UInt8
  | .null => some 0x6E
  | .bool b => some (if b then 0x74 else 0x66)
  | .int _ => none
  | .float _ => none
  | .string _ => some 0x22
  | .array _ => some 0x5B
  | .object _ => some 0x7B

theorem Json.IsNumber.front? {v : Json} (h : v.IsNumber) : v.front? = none := by
  cases h with
  | int n => rfl
  | float x => rfl

/-- What has been read begins with its octet. -/
theorem Json.front_of_readAny {depth : Nat} {s t : Bytes} {v : Json}
    (h : Json.readAny depth s = .ok (v, t)) {b : UInt8} (hb : v.front? = some b) :
    ∃ u, Json.skipBlanks s = b :: u := by
  have word : ∀ {word u : Bytes} {v' : Json} {c : UInt8}, v'.front? = some c →
      (Json.readWord word u).map (v', ·) = .ok (v, t) → c = b := by
    intro word u v' c hc hword
    obtain ⟨w, -, hpair⟩ := map_eq_ok_iff.1 hword
    rw [(Prod.mk.inj hpair).1] at hc
    exact Option.some.inj (hc.symm.trans hb)
  unfold Json.readAny at h
  split at h
  · exact absurd h (by simp)
  · rename_i c u heq
    refine ⟨u, heq.trans (congrArg (· :: u) ?_)⟩
    split at h
    · exact word rfl h
    · exact word rfl h
    · exact word rfl h
    · exact absurd ((Json.unsigned_of_readNumber h).2.front?.symm.trans hb) (by simp)
    · obtain ⟨⟨text, w⟩, -, hpair⟩ := map_eq_ok_iff.1 h
      rw [← (Prod.mk.inj hpair).1] at hb
      exact Option.some.inj hb
    · cases depth with
      | zero => exact absurd h (by simp)
      | succ n =>
        obtain ⟨⟨items, w⟩, -, h⟩ := bind_eq_ok_iff.1 h
        obtain ⟨w', -, h⟩ := bind_eq_ok_iff.1 h
        rw [← (Prod.mk.inj (Except.ok.inj h)).1] at hb
        exact Option.some.inj hb
    · cases depth with
      | zero => exact absurd h (by simp)
      | succ n =>
        obtain ⟨⟨members, w⟩, -, h⟩ := bind_eq_ok_iff.1 h
        obtain ⟨w', -, h⟩ := bind_eq_ok_iff.1 h
        rw [← (Prod.mk.inj (Except.ok.inj h)).1] at hb
        exact Option.some.inj hb
    · split at h
      · exact absurd ((Json.unsigned_of_readNumber h).2.front?.symm.trans hb) (by simp)
      · exact absurd h (by simp)

/-- The text that a value is, if it is one. -/
def Json.text? : Json → Option String
  | .string text => some text
  | _ => none

/-- The items that a value has, if it is an array. -/
def Json.items? : Json → Option (List Json)
  | .array items => some items
  | _ => none

/-- What can be seen in a value if it may also be `null`. -/
def Json.orNull? {α : Type} (view : Json → Option α) : Json → Option (Option α)
  | .null => some none
  | v => (view v).map some

theorem Json.text?_eq_some {v : Json} {text : String} (h : v.text? = some text) :
    v = .string text := by
  cases v with
  | string text' => rw [Option.some.inj h]
  | _ => exact absurd h (by simp [Json.text?])

theorem Json.items?_eq_some {v : Json} {items : List Json} (h : v.items? = some items) :
    v = .array items := by
  cases v with
  | array items' => rw [Option.some.inj h]
  | _ => exact absurd h (by simp [Json.items?])

/-- What is not `null` is seen as it is. -/
theorem Json.orNull?_of_ne_null {α : Type} {view : Json → Option α} {v : Json} (h : v ≠ .null) :
    Json.orNull? view v = (view v).map some := by
  cases v with
  | null => exact absurd rfl h
  | _ => rfl

section Front

variable {depth : Nat} {s u t : Bytes}

theorem Json.readAny_null_iff (heq : Json.skipBlanks s = 0x6E :: u) :
    Json.readAny depth s = .ok (.null, t) ↔ Json.readWord [0x75, 0x6C, 0x6C] u = .ok t := by
  unfold Json.readAny
  rw [heq]
  constructor
  · intro h
    obtain ⟨t', hword, hpair⟩ := map_eq_ok_iff.1 h
    rw [hword, (Prod.mk.inj hpair).2]
  · intro h
    exact map_eq_ok_iff.2 ⟨t, h, rfl⟩

theorem Json.readAny_string_iff {text : String} (heq : Json.skipBlanks s = 0x22 :: u) :
    Json.readAny depth s = .ok (.string text, t) ↔ Json.readString u = .ok (text, t) := by
  unfold Json.readAny
  rw [heq]
  constructor
  · intro h
    obtain ⟨⟨text', t'⟩, hread, hpair⟩ := map_eq_ok_iff.1 h
    obtain ⟨htext, rfl⟩ := Prod.mk.inj hpair
    rw [hread, Json.string.inj htext]
  · intro h
    exact map_eq_ok_iff.2 ⟨(text, t), h, rfl⟩

theorem Json.readAny_array_iff {items : List Json} (heq : Json.skipBlanks s = 0x5B :: u) :
    Json.readAny depth s = .ok (.array items, t) ↔
      Json.readList Json.readAny depth s = .ok (items, t) := by
  cases depth with
  | zero =>
    unfold Json.readAny Json.readList
    rw [heq]
    simp
  | succ depth =>
    rw [Json.readList_array_iff heq]
    unfold Json.readAny
    rw [heq]
    constructor
    · intro h
      obtain ⟨⟨items', v⟩, hitems, h⟩ := bind_eq_ok_iff.1 h
      obtain ⟨w, hend, h⟩ := bind_eq_ok_iff.1 h
      obtain ⟨hpair, rfl⟩ := Prod.mk.inj (Except.ok.inj h)
      exact ⟨v, Json.array.inj hpair ▸ hitems, hend⟩
    · rintro ⟨v, hitems, hend⟩
      exact bind_eq_ok_iff.2 ⟨(items, v), hitems, bind_eq_ok_iff.2 ⟨t, hend, rfl⟩⟩

end Front

theorem Json.readText_views : Json.readText.Views Json.readAny Json.text? := by
  intro depth s text t
  unfold Json.readText
  constructor
  · intro h
    split at h
    · rename_i u heq
      exact ⟨.string text, (Json.readAny_string_iff heq).2 h, rfl⟩
    · exact absurd h Json.refuse_ne_ok
  · rintro ⟨v, hv, htext⟩
    obtain rfl := Json.text?_eq_some htext
    obtain ⟨u, heq⟩ := Json.front_of_readAny hv rfl
    rw [heq]
    exact (Json.readAny_string_iff heq).1 hv

theorem Json.readItems_views : (Json.readList Json.readAny).Views Json.readAny Json.items? := by
  intro depth s items t
  constructor
  · intro h
    obtain ⟨u, heq⟩ := Json.bracket_of_readList h
    exact ⟨.array items, (Json.readAny_array_iff heq).2 h, rfl⟩
  · rintro ⟨v, hv, hitems⟩
    obtain rfl := Json.items?_eq_some hitems
    obtain ⟨u, heq⟩ := Json.front_of_readAny hv rfl
    exact (Json.readAny_array_iff heq).1 hv

/-- What sees something in any value does so from the first octet on that is not blank. -/
theorem Json.Reader.Views.skipBlanks {α : Type} {reader : Json.Reader α} {view : Json → Option α}
    (h : reader.Views Json.readAny view) {depth : Nat} {s t : Bytes} {x : α} :
    reader depth (Json.skipBlanks s) = .ok (x, t) ↔ reader depth s = .ok (x, t) := by
  have again : Json.readAny depth (Json.skipBlanks s) = Json.readAny depth s := by
    unfold Json.readAny Json.skipBlanks
    rw [List.dropWhile_idempotent]
  rw [h, h, again]

theorem Json.Reader.Views.optional {α : Type} {reader : Json.Reader α} {view : Json → Option α}
    (h : reader.Views Json.readAny view) :
    (Json.readOptional reader).Views Json.readAny (Json.orNull? view) := by
  intro depth s found t
  unfold Json.readOptional
  constructor
  · intro hread
    split at hread
    · rename_i u heq
      obtain ⟨t', hword, hpair⟩ := map_eq_ok_iff.1 hread
      obtain ⟨rfl, rfl⟩ := Prod.mk.inj hpair
      exact ⟨.null, (Json.readAny_null_iff heq).2 hword, rfl⟩
    · rename_i hother
      obtain ⟨⟨x, t'⟩, hinner, hpair⟩ := map_eq_ok_iff.1 hread
      obtain ⟨rfl, rfl⟩ := Prod.mk.inj hpair
      obtain ⟨v, hv, hview⟩ := (h depth s x t').1 (h.skipBlanks.1 hinner)
      have hnull : v ≠ .null := by
        rintro rfl
        obtain ⟨u, heq⟩ := Json.front_of_readAny hv rfl
        exact hother u heq
      exact ⟨v, hv, by rw [Json.orNull?_of_ne_null hnull, hview]; rfl⟩
  · rintro ⟨v, hv, hfound⟩
    split
    · rename_i u heq
      obtain ⟨t', hword, hpair⟩ : ∃ t', Json.readWord [0x75, 0x6C, 0x6C] u = .ok t' ∧
          (Json.null, t') = (v, t) := by
        unfold Json.readAny at hv
        rw [heq] at hv
        exact map_eq_ok_iff.1 hv
      obtain ⟨rfl, rfl⟩ := Prod.mk.inj hpair
      exact map_eq_ok_iff.2 ⟨t', hword, by rw [Option.some.inj hfound]⟩
    · rename_i hother
      have hnull : v ≠ .null := by
        rintro rfl
        obtain ⟨u, heq⟩ := Json.front_of_readAny hv rfl
        exact hother u heq
      rw [Json.orNull?_of_ne_null hnull] at hfound
      obtain ⟨x, hview, rfl⟩ := Option.map_eq_some_iff.1 hfound
      exact map_eq_ok_iff.2 ⟨(x, t), h.skipBlanks.2 ((h depth s x t).2 ⟨v, hv, hview⟩), rfl⟩

/-! ## Whole texts -/

theorem Json.decode_eq_ok_iff {α : Type} {reader : Json.Reader α} {c : Bytes} {x : α} :
    Json.decode reader c = .ok x ↔
      ∃ t, reader Json.depthLimit c = .ok (x, t) ∧ Json.skipBlanks t = [] := by
  unfold Json.decode
  cases reader Json.depthLimit c with
  | error f => simp
  | ok p =>
    obtain ⟨y, t⟩ := p
    dsimp only
    constructor
    · intro h
      split at h
      · rename_i hblank
        exact ⟨t, by rw [Except.ok.inj h], List.isEmpty_iff.1 hblank⟩
      · exact absurd h (by simp)
    · rintro ⟨u, hread, hblank⟩
      obtain ⟨rfl, rfl⟩ := Prod.mk.inj (Except.ok.inj hread)
      exact if_pos (List.isEmpty_iff.2 hblank)

/-- **Records among other texts.** Of the texts that are no object those stand for a record that
    are arrays whose items fill its fields. -/
theorem Json.decode_readRecord_iff {item : Json.Reader β} (sound : item.Sound)
    {slots : List (Json.Slot σ β)} (agree : ∀ slot ∈ slots, slot.Agrees item) {init acc : σ}
    {c : Bytes} (other : ¬Json.IsObjectText c) :
    Json.decode (Json.readRecord (slots.map Json.Slot.field) init) c = .ok acc ↔
      ∃ items, Json.decode (Json.readList item) c = .ok items ∧
        Json.fill slots items init = some acc := by
  simp only [Json.decode_eq_ok_iff]
  constructor
  · rintro ⟨t, hread, hblank⟩
    rcases Json.spells_of_readRecord (Json.Slot.soundFields sound agree) hread with
      ⟨u, heq, -⟩ | ⟨u, heq, members⟩
    · obtain ⟨items, hlist, hfill⟩ := (Json.readRecord_array_iff sound agree heq).1 hread
      exact ⟨items, ⟨t, hlist, hblank⟩, hfill⟩
    · exact absurd ⟨u, t, heq, members, hblank⟩ other
  · rintro ⟨items, ⟨t, hlist, hblank⟩, hfill⟩
    obtain ⟨u, heq⟩ := Json.bracket_of_readList hlist
    exact ⟨t, (Json.readRecord_array_iff sound agree heq).2 ⟨items, hlist, hfill⟩, hblank⟩

/-- A record of a single field that must be there, and that is the record itself. -/
theorem Json.decode_single_iff {item : Json.Reader β} (sound : item.Sound) {name : String}
    {absence : Json.Absence} (must : absence ≠ .defaulted) {init v : β} {c : Bytes}
    (other : ¬Json.IsObjectText c) :
    Json.decode (Json.readRecord [.of name absence item fun _ v => v] init) c = .ok v ↔
      Json.decode (Json.readList item) c = .ok [v] := by
  have agree : ∀ slot ∈ [Json.Slot.of name absence item some fun _ (v : β) => v],
      slot.Agrees item := by
    intro slot hslot
    obtain rfl := List.mem_singleton.1 hslot
    exact Json.Slot.agrees_of (Json.Reader.views_self item) name absence _
  refine (Json.decode_readRecord_iff sound agree other).trans ?_
  constructor
  · rintro ⟨items, hitems, hfill⟩
    rcases items with - | ⟨x, - | ⟨y, items⟩⟩
    · exact absurd hfill (by simp [Json.fill, Json.Slot.of, Json.Field.of, must])
    · obtain rfl : x = v := Option.some.inj hfill
      exact hitems
    · exact absurd hfill (by simp [Json.fill, Json.Slot.of])
  · intro hitems
    exact ⟨[v], hitems, rfl⟩

/-- The items of an array are read with the array, or each on its own. -/
theorem Json.decode_array_iff {items : List Json} {c : Bytes} :
    Json.decode Json.readAny c = .ok (.array items) ↔
      Json.decode (Json.readList Json.readAny) c = .ok items := by
  simp only [Json.decode_eq_ok_iff]
  refine exists_congr fun t => and_congr_left' ?_
  rw [Json.readItems_views]
  constructor
  · intro h
    exact ⟨.array items, h, rfl⟩
  · rintro ⟨v, hv, hitems⟩
    exact Json.items?_eq_some hitems ▸ hv

/-- What is read as a list is an array. -/
theorem Json.isArrayText_of_decode {item : Json.Reader β} (sound : item.Sound) {items : List β}
    {c : Bytes} (h : Json.decode (Json.readList item) c = .ok items) : Json.IsArrayText c := by
  obtain ⟨t, hlist, hblank⟩ := Json.decode_eq_ok_iff.1 h
  obtain ⟨u, heq⟩ := Json.bracket_of_readList hlist
  obtain ⟨v, hitems, hend⟩ := (Json.readList_array_iff heq).1 hlist
  exact ⟨u, t, heq, Json.spells_of_readItems sound hitems hend, hblank⟩

/-- The first item of what is read as a list is read where items begin. -/
theorem Json.first_of_decode {item : Json.Reader β} {v : β} {items : List β} {c : Bytes}
    (h : Json.decode (Json.readList item) c = .ok (v :: items)) :
    ∃ u s t, Json.skipBlanks c = 0x5B :: u ∧ Json.nextItem? true u = .ok (some s) ∧
      item (Json.depthLimit - 1) s = .ok (v, t) := by
  obtain ⟨t, hlist, -⟩ := Json.decode_eq_ok_iff.1 h
  obtain ⟨u, heq⟩ := Json.bracket_of_readList hlist
  obtain ⟨w, hitems, -⟩ := (Json.readList_array_iff heq).1 hlist
  cases hnext : Json.nextItem? true u with
  | error f =>
    rw [Json.readItems, hnext] at hitems
    exact absurd hitems (by simp)
  | ok next =>
    cases next with
    | none =>
      rw [Json.readItems_of_end hnext] at hitems
      exact absurd hitems (by simp)
    | some s =>
      obtain ⟨x, t', others, hitem, -, hcons⟩ := (Json.readItems_next_iff hnext).1 hitems
      obtain ⟨rfl, -⟩ := List.cons.inj hcons
      exact ⟨u, s, t', heq, hnext, hitem⟩

end Courier
