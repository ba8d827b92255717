import Courier.Proofs.Json.Grammar

set_option autoImplicit false

/-! # What readers take off

Every reader that comes back with a value has taken a value of the grammar off the front of the
text, whether it keeps the value, puts it into a record or passes over it. For values that are
passed over, the arrays and objects around the place stand for what the rest of the text has to
close: `Json.Closes`.

The main statement is `Json.Reader.Sound.record`. -/

namespace Courier

/-! ## Places -/

/-- A mark that must be next is next. -/
theorem Json.mark_eq_ok {mark : UInt8} {s t : Bytes} (h : (match Json.skipBlanks s with
    | [] => .error .ended
    | b :: s => if b = mark then .ok s else .error .illFormed : Except Json.Fault Bytes) = .ok t) :
    Json.skipBlanks s = mark :: t := by
  split at h
  · exact absurd h (by simp)
  · rename_i b u heq
    split at h
    · rename_i hb
      rw [heq, hb, Except.ok.inj h]
    · exact absurd h (by simp)

theorem Json.colon_eq_ok {s t : Bytes} (h : Json.colon s = .ok t) :
    Json.skipBlanks s = 0x3A :: t :=
  Json.mark_eq_ok h

theorem Json.endArray_eq_ok {s t : Bytes} (h : Json.endArray s = .ok t) :
    Json.skipBlanks s = 0x5D :: t :=
  Json.mark_eq_ok h

theorem Json.endObject_eq_ok {s t : Bytes} (h : Json.endObject s = .ok t) :
    Json.skipBlanks s = 0x7D :: t :=
  Json.mark_eq_ok h

/-- The value after a name and its colon. -/
theorem Json.Spells.of_colon {s u t : Bytes} (h : Json.colon s = .ok u)
    (value : Json.Spells .value u t) : Json.Spells .afterName s t := by
  refine .of_skipBlanks ?_
  rw [Json.colon_eq_ok h]
  exact .afterName value

/-- The place in an array before or after its first item. -/
def Json.itemPlace (first : Bool) : Json.Place := if first then .items else .afterItem

/-- The place in an object before or after its first member. -/
def Json.memberPlace (first : Bool) : Json.Place := if first then .members else .afterMember

theorem Json.Spells.of_endArray {first : Bool} {s t : Bytes} (h : Json.endArray s = .ok t) :
    Json.Spells (Json.itemPlace first) s t := by
  refine .of_skipBlanks ?_
  rw [Json.endArray_eq_ok h]
  cases first with
  | true => exact .noItems
  | false => exact .lastItem

theorem Json.Spells.of_endObject {first : Bool} {s t : Bytes} (h : Json.endObject s = .ok t) :
    Json.Spells (Json.memberPlace first) s t := by
  refine .of_skipBlanks ?_
  rw [Json.endObject_eq_ok h]
  cases first with
  | true => exact .noMembers
  | false => exact .lastMember

/-- An item and what follows it, from where the next item is looked for. -/
theorem Json.Spells.of_nextItem? {first : Bool} {s u v t : Bytes}
    (h : Json.nextItem? first s = .ok (some u)) (item : Json.Spells .value u v)
    (rest : Json.Spells .afterItem v t) : Json.Spells (Json.itemPlace first) s t := by
  refine .of_skipBlanks ?_
  unfold Json.nextItem? at h
  split at h
  · exact absurd h (by simp)
  · rename_i b w heq
    rw [heq]
    split at h
    · exact absurd h (by simp)
    · cases first with
      | true =>
        obtain rfl := Option.some.inj (Except.ok.inj h)
        exact .someItems item rest
      | false =>
        rw [if_neg (by decide)] at h
        split at h
        · rename_i hcomma
          subst hcomma
          split at h
          · exact absurd h (by simp)
          · rename_i c x heq'
            split at h
            · exact absurd h (by simp)
            · obtain rfl := Option.some.inj (Except.ok.inj h)
              exact .nextItem (.of_skipBlanks (heq' ▸ item)) rest
        · exact absurd h (by simp)

/-- A member and what follows it, from where the next name is looked for. -/
theorem Json.Spells.of_nextName? {first : Bool} {name : String} {s u v t : Bytes}
    (h : Json.nextName? first s = .ok (some (name, u))) (value : Json.Spells .afterName u v)
    (rest : Json.Spells .afterMember v t) : Json.Spells (Json.memberPlace first) s t := by
  refine .of_skipBlanks ?_
  have named : ∀ w : Bytes, (match w with
      | [] => .error .ended
      | b :: s => if b = 0x22 then (Json.readString s).map some else .error .illFormed :
        Except Json.Fault (Option (String × Bytes))) = .ok (some (name, u)) →
      Json.Spells .member w v := by
    intro w hw
    split at hw
    · exact absurd hw (by simp)
    · rename_i b w'
      split at hw
      · rename_i hquote
        subst hquote
        obtain ⟨⟨text, x⟩, hread, hpair⟩ := map_eq_ok_iff.1 hw
        obtain ⟨rfl, rfl⟩ := Prod.mk.inj (Option.some.inj hpair)
        exact .member (Json.inString_of_readString hread) value
      · exact absurd hw (by simp)
  unfold Json.nextName? at h
  dsimp only at h
  split at h
  · exact absurd h (by simp)
  · rename_i b w heq
    rw [heq]
    split at h
    · exact absurd h (by simp)
    · cases first with
      | true => exact .someMembers (named _ h) rest
      | false =>
        rw [if_neg (by decide)] at h
        split at h
        · rename_i hcomma
          subst hcomma
          exact .nextMember (.of_skipBlanks (named _ h)) rest
        · exact absurd h (by simp)

/-! ## Values that are passed over -/

/-- What is left of the arrays and objects around a place, up to the end of the outermost. -/
def Json.Closes : List Json.Opened → Bytes → Bytes → Prop
  | [], s, t => s = t
  | .array :: opened, s, t => ∃ u, Json.Spells .afterItem s u ∧ Json.Closes opened u t
  | .object :: opened, s, t => ∃ u, Json.Spells .afterMember s u ∧ Json.Closes opened u t

/-- The place at which something is due, and what is open around it; no place is left when nothing
    is open after a value. -/
def Json.Due.place? : Json.Due → List Json.Opened → Option (Json.Place × List Json.Opened)
  | .value, opened => some (.value, opened)
  | .first, .array :: opened => some (.items, opened)
  | .first, .object :: opened => some (.members, opened)
  | .name, opened => some (.member, opened)
  | .rest, .array :: opened => some (.afterItem, opened)
  | .rest, .object :: opened => some (.afterMember, opened)
  | _, [] => none

/-- What is left of a text when what is due has been taken off and what is open has been closed. -/
def Json.Leaves (due : Json.Due) (opened : List Json.Opened) (s t : Bytes) : Prop :=
  match due.place? opened with
  | some (place, around) => ∃ u, Json.Spells place s u ∧ Json.Closes around u t
  | none => s = t

theorem Json.closes_of_leaves {opened : List Json.Opened} {s t : Bytes}
    (h : Json.Leaves .rest opened s t) : Json.Closes opened s t := by
  cases opened with
  | nil => exact h
  | cons o opened => cases o <;> exact h

/-- What is due after blanks is due before them, inside an array or an object or before a value. -/
theorem Json.Leaves.of_skipBlanks {due : Json.Due} {opened : List Json.Opened} {s t : Bytes}
    (inside : due.place? opened ≠ none) (h : Json.Leaves due opened (Json.skipBlanks s) t) :
    Json.Leaves due opened s t := by
  unfold Json.Leaves at h ⊢
  split at h
  · obtain ⟨u, spells, closes⟩ := h
    exact ⟨u, spells.of_skipBlanks, closes⟩
  · rename_i hnone
    exact absurd hnone inside

/-- A value that stands in one piece at the front of some octets. -/
theorem Json.Leaves.of_value {opened : List Json.Opened} {s u t : Bytes}
    (value : Json.Spells .value s u) (rest : Json.Leaves .rest opened u t) :
    Json.Leaves .value opened s t :=
  ⟨u, value, Json.closes_of_leaves rest⟩

section Step

variable {fuel : Nat} {opened : List Json.Opened} {b : UInt8} {s u t : Bytes}

/-- No place is left only where nothing is open. -/
theorem Json.Due.place?_eq_none {due : Json.Due} (h : due.place? opened = none) :
    opened = [] ∧ (due = .first ∨ due = .rest) := by
  rcases opened with - | ⟨o, around⟩
  · cases due with
    | first => exact ⟨rfl, .inl rfl⟩
    | rest => exact ⟨rfl, .inr rfl⟩
    | value | name => exact absurd h (by simp [Json.Due.place?])
  · cases due <;> cases o <;> exact absurd h (by simp [Json.Due.place?])

/-- Something must follow where something is due. -/
theorem Json.skipLoop_ended {due : Json.Due} (inside : due.place? opened ≠ none)
    (hs : Json.skipBlanks s = []) : Json.skipLoop (fuel + 1) due opened s = .error .ended := by
  rcases opened with - | ⟨o, around⟩ <;> cases due <;>
    first | exact absurd rfl inside | (unfold Json.skipLoop; rw [hs])

/-- A value that is due: the octet at its front says of which kind it is. -/
theorem Json.leaves_of_skipLoop_value
    (ih : ∀ {due opened s}, Json.skipLoop fuel due opened s = .ok t → Json.Leaves due opened s t)
    (hs : Json.skipBlanks s = b :: u) (h : Json.skipLoop (fuel + 1) .value opened s = .ok t) :
    Json.Leaves .value opened (b :: u) t := by
  unfold Json.skipLoop at h
  rw [hs] at h
  dsimp only at h
  split at h
  · obtain ⟨v, hword, hrest⟩ := bind_eq_ok_iff.1 h
    rw [Json.readWord_eq_ok hword]
    exact .of_value .null (ih hrest)
  · obtain ⟨v, hword, hrest⟩ := bind_eq_ok_iff.1 h
    rw [Json.readWord_eq_ok hword]
    exact .of_value .true (ih hrest)
  · obtain ⟨v, hword, hrest⟩ := bind_eq_ok_iff.1 h
    rw [Json.readWord_eq_ok hword]
    exact .of_value .false (ih hrest)
  · obtain ⟨v, hnumber, hrest⟩ := bind_eq_ok_iff.1 h
    exact .of_value (.negative (Json.unsigned_of_skipNumber hnumber)) (ih hrest)
  · obtain ⟨v, hstring, hrest⟩ := bind_eq_ok_iff.1 h
    exact .of_value (.string (Json.inString_of_skipString hstring)) (ih hrest)
  · obtain ⟨v, items, closes⟩ := ih h
    exact ⟨v, .array items, closes⟩
  · obtain ⟨v, members, closes⟩ := ih h
    exact ⟨v, .object members, closes⟩
  · split at h
    · obtain ⟨v, hnumber, hrest⟩ := bind_eq_ok_iff.1 h
      exact .of_value (.number (Json.unsigned_of_skipNumber hnumber)) (ih hrest)
    · exact absurd h (by simp)

/-- The first item or member of what has been opened, or its end. -/
theorem Json.leaves_of_skipLoop_first
    (ih : ∀ {due opened s}, Json.skipLoop fuel due opened s = .ok t → Json.Leaves due opened s t)
    (hs : Json.skipBlanks s = b :: u) (h : Json.skipLoop (fuel + 1) .first opened s = .ok t) :
    Json.Leaves .first opened (b :: u) t := by
  unfold Json.skipLoop at h
  rw [hs] at h
  rcases opened with - | ⟨- | -, around⟩
  · exact absurd h (by simp)
  · dsimp only at h
    split at h
    · rename_i hend
      exact ⟨u, hend ▸ .noItems, Json.closes_of_leaves (ih h)⟩
    · obtain ⟨v, item, w, rest, closes⟩ := ih h
      exact ⟨w, .someItems item rest, closes⟩
  · dsimp only at h
    split at h
    · rename_i hend
      exact ⟨u, hend ▸ .noMembers, Json.closes_of_leaves (ih h)⟩
    · obtain ⟨v, member, w, rest, closes⟩ := ih h
      exact ⟨w, .someMembers member rest, closes⟩

/-- A member: its name, the colon and its value. -/
theorem Json.leaves_of_skipLoop_name
    (ih : ∀ {due opened s}, Json.skipLoop fuel due opened s = .ok t → Json.Leaves due opened s t)
    (hs : Json.skipBlanks s = b :: u) (h : Json.skipLoop (fuel + 1) .name opened s = .ok t) :
    Json.Leaves .name opened (b :: u) t := by
  unfold Json.skipLoop at h
  rw [hs] at h
  dsimp only at h
  split at h
  · rename_i hquote
    obtain ⟨v, hname, hrest⟩ := bind_eq_ok_iff.1 h
    obtain ⟨w, hstring, hcolon⟩ := bind_eq_ok_iff.1 hname
    obtain ⟨x, value, closes⟩ := ih hrest
    subst hquote
    exact ⟨x, .member (Json.inString_of_skipString hstring) (.of_colon hcolon value), closes⟩
  · exact absurd h (by simp)

/-- What follows a value inside an array or an object. -/
theorem Json.leaves_of_skipLoop_rest
    (ih : ∀ {due opened s}, Json.skipLoop fuel due opened s = .ok t → Json.Leaves due opened s t)
    (inside : opened ≠ []) (hs : Json.skipBlanks s = b :: u)
    (h : Json.skipLoop (fuel + 1) .rest opened s = .ok t) :
    Json.Leaves .rest opened (b :: u) t := by
  rcases opened with - | ⟨- | -, around⟩
  · exact absurd rfl inside
  · unfold Json.skipLoop at h
    rw [hs] at h
    dsimp only at h
    split at h
    · rename_i hcomma
      obtain ⟨v, item, w, rest, closes⟩ := ih h
      exact ⟨w, hcomma ▸ .nextItem item rest, closes⟩
    · split at h
      · rename_i hend
        exact ⟨u, hend ▸ .lastItem, Json.closes_of_leaves (ih h)⟩
      · exact absurd h (by simp)
  · unfold Json.skipLoop at h
    rw [hs] at h
    dsimp only at h
    split at h
    · rename_i hcomma
      obtain ⟨v, member, w, rest, closes⟩ := ih h
      exact ⟨w, hcomma ▸ .nextMember member rest, closes⟩
    · split at h
      · rename_i hend
        exact ⟨u, hend ▸ .lastMember, Json.closes_of_leaves (ih h)⟩
      · exact absurd h (by simp)

end Step

/-- Passing over values takes off what is due and closes what is open. -/
theorem Json.leaves_of_skipLoop {fuel : Nat} {due : Json.Due} {opened : List Json.Opened}
    {s t : Bytes} (h : Json.skipLoop fuel due opened s = .ok t) : Json.Leaves due opened s t := by
  induction fuel generalizing due opened s with
  | zero => exact absurd h (by simp [Json.skipLoop])
  | succ fuel ih =>
    by_cases inside : due.place? opened = none
    · obtain ⟨rfl, rfl | rfl⟩ := Json.Due.place?_eq_none inside
      · unfold Json.skipLoop at h
        cases hs : Json.skipBlanks s <;> rw [hs] at h <;> exact absurd h (by simp)
      · exact Except.ok.inj h
    refine .of_skipBlanks inside ?_
    cases hs : Json.skipBlanks s with
    | nil => exact absurd ((Json.skipLoop_ended inside hs).symm.trans h) (by simp)
    | cons b u =>
      cases due with
      | value => exact Json.leaves_of_skipLoop_value ih hs h
      | first => exact Json.leaves_of_skipLoop_first ih hs h
      | name => exact Json.leaves_of_skipLoop_name ih hs h
      | rest => exact Json.leaves_of_skipLoop_rest ih (by rintro rfl; exact inside rfl) hs h

/-- Passing over a value takes off a value. -/
theorem Json.spells_of_skip {s t : Bytes} (h : Json.skip s = .ok t) : Json.Spells .value s t := by
  obtain ⟨u, spells, rfl⟩ := Json.leaves_of_skipLoop h
  exact spells

/-! ## Readers -/

/-- A reader that takes a value off the front of the text whenever it comes back with one. -/
def Json.Reader.Sound {α : Type} (reader : Json.Reader α) : Prop :=
  ∀ {depth s x t}, reader depth s = .ok (x, t) → Json.Spells .value s t

section Readers

variable {α σ : Type}

/-- The items of an array up to its end. -/
theorem Json.spells_of_readItems {item : Bytes → Except Json.Fault (α × Bytes)}
    (sound : ∀ {s x t}, item s = .ok (x, t) → Json.Spells .value s t) {fuel : Nat} {first : Bool}
    {s u t : Bytes} {xs : List α} (h : Json.readItems item fuel first s = .ok (xs, u))
    (hend : Json.endArray u = .ok t) : Json.Spells (Json.itemPlace first) s t := by
  induction fuel generalizing first s xs with
  | zero => exact absurd h (by simp [Json.readItems])
  | succ fuel ih =>
    rw [Json.readItems] at h
    split at h
    · exact absurd h (by simp)
    · obtain ⟨-, rfl⟩ := Prod.mk.inj (Except.ok.inj h)
      exact .of_endArray hend
    · rename_i v hnext
      split at h
      · exact absurd h (by simp)
      · rename_i x v' hitem
        obtain ⟨⟨rest, u'⟩, hrest, hpair⟩ := map_eq_ok_iff.1 h
        obtain ⟨-, rfl⟩ := Prod.mk.inj hpair
        exact .of_nextItem? hnext (sound hitem) (ih hrest)

/-- The members of an object up to its end. -/
theorem Json.spells_of_readMembers {value : Bytes → Except Json.Fault (α × Bytes)}
    (sound : ∀ {s x t}, value s = .ok (x, t) → Json.Spells .value s t) {fuel : Nat} {first : Bool}
    {s u t : Bytes} {xs : List (String × α)}
    (h : Json.readMembers value fuel first s = .ok (xs, u)) (hend : Json.endObject u = .ok t) :
    Json.Spells (Json.memberPlace first) s t := by
  induction fuel generalizing first s xs with
  | zero => exact absurd h (by simp [Json.readMembers])
  | succ fuel ih =>
    rw [Json.readMembers] at h
    split at h
    · exact absurd h (by simp)
    · obtain ⟨-, rfl⟩ := Prod.mk.inj (Except.ok.inj h)
      exact .of_endObject hend
    · rename_i name v hnext
      split at h
      · exact absurd h (by simp)
      · rename_i x v' hvalue
        obtain ⟨w, hcolon, hread⟩ := bind_eq_ok_iff.1 hvalue
        obtain ⟨⟨rest, u'⟩, hrest, hpair⟩ := map_eq_ok_iff.1 h
        obtain ⟨-, rfl⟩ := Prod.mk.inj hpair
        exact .of_nextName? hnext (.of_colon hcolon (sound hread)) (ih hrest)

/-- Reading a value takes off a value if reading the values inside it does. -/
theorem Json.spells_of_readAny {depth : Nat}
    (inner : ∀ n, depth = n + 1 → ∀ {s x t}, Json.readAny n s = .ok (x, t) →
      Json.Spells .value s t) {s t : Bytes} {x : Json} (h : Json.readAny depth s = .ok (x, t)) :
    Json.Spells .value s t := by
  have word : ∀ {w u : Bytes} {v : Json}, (Json.readWord w u).map (v, ·) = .ok (x, t) →
      u = w ++ t := by
    intro w u v hw
    obtain ⟨t', hword, hpair⟩ := map_eq_ok_iff.1 hw
    obtain ⟨-, rfl⟩ := Prod.mk.inj hpair
    exact Json.readWord_eq_ok hword
  refine .of_skipBlanks ?_
  unfold Json.readAny at h
  split at h
  · exact absurd h (by simp)
  · rename_i b u heq
    rw [heq]
    split at h
    · exact word h ▸ .null
    · exact word h ▸ .true
    · exact word h ▸ .false
    · exact .negative (Json.unsigned_of_readNumber h).1
    · obtain ⟨⟨text, t'⟩, hread, hpair⟩ := map_eq_ok_iff.1 h
      obtain ⟨-, rfl⟩ := Prod.mk.inj hpair
      exact .string (Json.inString_of_readString hread)
    · cases depth with
      | zero => exact absurd h (by simp)
      | succ n =>
        obtain ⟨⟨items, v⟩, hitems, h⟩ := bind_eq_ok_iff.1 h
        obtain ⟨w, hend, h⟩ := bind_eq_ok_iff.1 h
        obtain ⟨-, rfl⟩ := Prod.mk.inj (Except.ok.inj h)
        exact .array (Json.spells_of_readItems (inner n rfl) hitems hend)
    · cases depth with
      | zero => exact absurd h (by simp)
      | succ n =>
        obtain ⟨⟨members, v⟩, hmembers, h⟩ := bind_eq_ok_iff.1 h
        obtain ⟨w, hend, h⟩ := bind_eq_ok_iff.1 h
        obtain ⟨-, rfl⟩ := Prod.mk.inj (Except.ok.inj h)
        exact .object (Json.spells_of_readMembers (inner n rfl) hmembers hend)
    · split at h
      · exact .number (Json.unsigned_of_readNumber h).1
      · exact absurd h (by simp)

theorem Json.readAny_sound : Json.Reader.Sound Json.readAny := by
  intro depth
  induction depth with
  | zero => exact Json.spells_of_readAny fun n hn => absurd hn (by simp)
  | succ depth ih =>
    refine Json.spells_of_readAny fun n hn => ?_
    obtain rfl : depth = n := Nat.succ.inj hn
    exact ih

/-- No value is refused without a fault. -/
theorem Json.refuse_ne_ok {s t : Bytes} {x : α} : Json.refuse s ≠ .ok (x, t) := by
  unfold Json.refuse
  intro h
  dsimp only at h
  split at h
  · exact absurd h (by simp)
  · split at h
    · split at h <;> exact absurd h (by simp)
    · split at h <;> exact absurd h (by simp)
    · split at h <;> exact absurd h (by simp)
    · split at h <;> exact absurd h (by simp)
    · split at h <;> exact absurd h (by simp)
    · exact absurd h (by simp)
    · exact absurd h (by simp)
    · split at h
      · split at h <;> exact absurd h (by simp)
      · exact absurd h (by simp)

/-- Reading a text takes off a value. -/
theorem Json.readText_sound : Json.Reader.Sound Json.readText := by
  intro depth s x t h
  refine .of_skipBlanks ?_
  unfold Json.readText at h
  split at h
  · rename_i u heq
    rw [heq]
    exact .string (Json.inString_of_readString h)
  · exact absurd h Json.refuse_ne_ok

/-- The fields of a record that each take off a value. -/
def Json.SoundFields (fields : List (Json.Field σ)) : Prop :=
  ∀ field ∈ fields, ∀ {depth acc s acc' t}, field.read depth acc s = .ok (acc', t) →
    Json.Spells .value s t

/-- The fields of a record from the items of an array, up to its end. -/
theorem Json.spells_of_readPositional {depth : Nat} {fields : List (Json.Field σ)}
    (sound : Json.SoundFields fields) {first : Bool} {acc acc' : σ} {s u t : Bytes}
    (h : Json.readPositional depth fields first acc s = .ok (acc', u))
    (hend : Json.endArray u = .ok t) : Json.Spells (Json.itemPlace first) s t := by
  induction fields generalizing first acc s with
  | nil =>
    obtain ⟨-, rfl⟩ := Prod.mk.inj (Except.ok.inj h)
    exact .of_endArray hend
  | cons field fields ih =>
    have rest : Json.SoundFields fields := fun f hf => sound f (List.mem_cons_of_mem _ hf)
    rw [Json.readPositional] at h
    split at h
    · exact absurd h (by simp)
    · split at h
      · exact ih rest h
      · exact absurd h (by simp)
    · rename_i v hnext
      split at h
      · exact absurd h (by simp)
      · rename_i acc'' v' hread
        exact .of_nextItem? hnext (sound field List.mem_cons_self hread) (ih rest h)

/-- The fields of a record from the members of an object, up to its end. -/
theorem Json.spells_of_readNamed {depth : Nat} {fields : List (Json.Field σ)}
    (sound : Json.SoundFields fields) {fuel : Nat} {first : Bool} {seen : List String}
    {acc acc' : σ} {s u t : Bytes}
    (h : Json.readNamed depth fields fuel first seen acc s = .ok (acc', u))
    (hend : Json.endObject u = .ok t) : Json.Spells (Json.memberPlace first) s t := by
  induction fuel generalizing first seen acc s with
  | zero => exact absurd h (by simp [Json.readNamed])
  | succ fuel ih =>
    rw [Json.readNamed] at h
    split at h
    · exact absurd h (by simp)
    · split at h
      · obtain ⟨-, rfl⟩ := Prod.mk.inj (Except.ok.inj h)
        exact .of_endObject hend
      · exact absurd h (by simp)
    · rename_i name v hnext
      split at h
      · split at h
        · exact absurd h (by simp)
        · rename_i v' hskip
          obtain ⟨w, hcolon, hskip⟩ := bind_eq_ok_iff.1 hskip
          exact .of_nextName? hnext (.of_colon hcolon (Json.spells_of_skip hskip)) (ih h)
      · rename_i field hfield
        split at h
        · exact absurd h (by simp)
        · split at h
          · exact absurd h (by simp)
          · rename_i acc'' v' hread
            obtain ⟨w, hcolon, hread⟩ := bind_eq_ok_iff.1 hread
            exact .of_nextName? hnext
              (.of_colon hcolon (sound field (List.mem_of_find?_eq_some hfield) hread)) (ih h)

/-- What has been opened is read up to its end. -/
theorem Json.closed_eq_ok_iff {r : Except Json.Fault (α × Bytes)}
    {close : Bytes → Except Json.Fault Bytes} {x : α} {t : Bytes} :
    (do let (x, s) ← r; let s ← close s; pure (x, s) : Except Json.Fault (α × Bytes)) =
        .ok (x, t) ↔ ∃ u, r = .ok (x, u) ∧ close u = .ok t := by
  constructor
  · intro h
    obtain ⟨⟨y, u⟩, hread, h⟩ := bind_eq_ok_iff.1 h
    obtain ⟨w, hclose, h⟩ := bind_eq_ok_iff.1 h
    obtain ⟨rfl, rfl⟩ := Prod.mk.inj (Except.ok.inj h)
    exact ⟨u, hread, hclose⟩
  · rintro ⟨u, hread, hclose⟩
    exact bind_eq_ok_iff.2 ⟨(x, u), hread, bind_eq_ok_iff.2 ⟨t, hclose, rfl⟩⟩

/-- What is read as a record is written as an array or as an object. -/
theorem Json.spells_of_readRecord {fields : List (Json.Field σ)} (sound : Json.SoundFields fields)
    {init acc : σ} {depth : Nat} {s t : Bytes}
    (h : Json.readRecord fields init depth s = .ok (acc, t)) :
    (∃ u, Json.skipBlanks s = 0x5B :: u ∧ Json.Spells .items u t) ∨
      ∃ u, Json.skipBlanks s = 0x7B :: u ∧ Json.Spells .members u t := by
  unfold Json.readRecord at h
  split at h
  · rename_i u heq
    cases depth with
    | zero => exact absurd h (by simp)
    | succ depth =>
      obtain ⟨v, hfields, hend⟩ := Json.closed_eq_ok_iff.1 h
      exact .inl ⟨u, heq, Json.spells_of_readPositional sound hfields hend⟩
  · rename_i u heq
    cases depth with
    | zero => exact absurd h (by simp)
    | succ depth =>
      obtain ⟨v, hfields, hend⟩ := Json.closed_eq_ok_iff.1 h
      exact .inr ⟨u, heq, Json.spells_of_readNamed sound hfields hend⟩
  · exact absurd h Json.refuse_ne_ok

/-- **Reading a record takes off a value**, be it written as an object or as an array. -/
theorem Json.Reader.Sound.record {fields : List (Json.Field σ)} (sound : Json.SoundFields fields)
    (init : σ) : (Json.readRecord fields init).Sound := by
  intro depth s x t h
  refine .of_skipBlanks ?_
  rcases Json.spells_of_readRecord sound h with ⟨u, heq, items⟩ | ⟨u, heq, members⟩
  · exact heq ▸ .array items
  · exact heq ▸ .object members

end Readers

end Courier
