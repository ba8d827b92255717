import Courier.Proofs.Preparing.Replacing
import Courier.Proofs.Url.Forms
import Mathlib.Data.List.Nodup

set_option autoImplicit false

/-! # Parameters of a path

Placeholders are replaced one parameter after another, each time in all of the text that is there by
then. What is meant is that all are replaced at once, and this is what `Template.fill` does: it goes
through the template and never looks at a value. The two agree as long as the value of no parameter
can be mistaken for the placeholder of one that comes later, not even together with what stands next
to it: every text on the way is then a filling of the template with some of the values.

An encoded value holds no brace, so it is never mistaken. A value that is inserted as it is can be,
and then it depends on the order of the parameters what becomes of it. -/

namespace Courier

/-! ## Templates -/

/-- Whether a name holds no brace. -/
def Braceless (name : String) : Prop := '\x7b' ∉ name.toList ∧ '\x7d' ∉ name.toList

instance (name : String) : Decidable (Braceless name) := inferInstanceAs (Decidable (_ ∧ _))

theorem placeholder_ne_nil (name : String) : placeholder name ≠ [] := List.cons_ne_nil _ _

theorem placeholder_append (name : String) (rest : List Char) :
    placeholder name ++ rest = '\x7b' :: (name.toList ++ '\x7d' :: rest) := by
  simp [placeholder]

namespace Template

/-- Whether no brace is opened between an opening brace and the next closing one. -/
def IsFlat (template : List Char) : Prop :=
  ∀ s ∈ template.tails, s.head? = some '\x7b' → '\x7d' ∈ s →
    '\x7b' ∉ s.tail.takeWhile (· != '\x7d')

instance (template : List Char) : Decidable (IsFlat template) :=
  inferInstanceAs (Decidable (∀ s ∈ template.tails, _))

/-- A template with values in place of its placeholders, gone through once. Characters outside of
braces are kept; a name in braces is replaced by its value, if it has one. The second argument is
what has been read of a name since the opening brace. -/
def fill (value? : String → Option (List Char)) : Option (List Char) → List Char → List Char
  | none, [] => []
  | none, c :: s => if c = '\x7b' then fill value? (some []) s else c :: fill value? none s
  | some name, [] => '\x7b' :: name
  | some name, c :: s =>
    if c = '\x7d' then
      (value? (String.ofList name)).getD (placeholder (String.ofList name)) ++ fill value? none s
    else fill value? (some (name ++ [c])) s

/-- The value of a name: that of the first parameter of this name. -/
def valueIn (encode : String → List Char) (parameters : List (String × String)) (name : String) :
    Option (List Char) :=
  (parameters.lookup name).map encode

/-- A template with the encoded values of parameters in place of their placeholders. -/
def filled (encode : String → List Char) (parameters : List (String × String))
    (template : String) : String :=
  String.ofList (fill (valueIn encode parameters) none template.toList)

/-! ## Filling piece by piece -/

section Fill

variable {value? : String → Option (List Char)} {front rest : List Char} {name : String}

theorem fill_append (h : '\x7b' ∉ front) (rest : List Char) :
    fill value? none (front ++ rest) = front ++ fill value? none rest := by
  induction front with
  | nil => rfl
  | cons c front ih =>
    rw [List.mem_cons, not_or] at h
    rw [List.cons_append, fill, if_neg (Ne.symm h.1), ih h.2, List.cons_append]

theorem fill_name (read : List Char) {name : List Char} (h : '\x7d' ∉ name) (rest : List Char) :
    fill value? (some read) (name ++ '\x7d' :: rest) =
      (value? (String.ofList (read ++ name))).getD (placeholder (String.ofList (read ++ name))) ++
        fill value? none rest := by
  induction name generalizing read with
  | nil => rw [List.nil_append, fill, if_pos rfl, List.append_nil]
  | cons c name ih =>
    rw [List.mem_cons, not_or] at h
    rw [List.cons_append, fill, if_neg (Ne.symm h.1), ih _ h.2, List.append_assoc,
      List.singleton_append]

theorem fill_placeholder (h : Braceless name) (rest : List Char) :
    fill value? none (placeholder name ++ rest) =
      (value? name).getD (placeholder name) ++ fill value? none rest := by
  have hfill : fill value? (some []) (name.toList ++ '\x7d' :: rest) = _ := fill_name [] h.2 rest
  rw [List.nil_append, String.ofList_toList] at hfill
  rw [placeholder_append, fill, if_pos rfl, hfill]

theorem fill_open (read : List Char) (h : '\x7d' ∉ rest) :
    fill value? (some read) rest = '\x7b' :: read ++ rest := by
  induction rest generalizing read with
  | nil => rw [fill, List.append_nil]
  | cons c rest ih =>
    rw [List.mem_cons, not_or] at h
    rw [fill, if_neg (Ne.symm h.1), ih _ h.2]
    simp

/-- Without a closing brace there is nothing to fill. -/
theorem fill_of_not_mem (h : '\x7d' ∉ rest) : fill value? none rest = rest := by
  induction rest with
  | nil => rfl
  | cons c rest ih =>
    rw [List.mem_cons, not_or] at h
    rw [fill]
    split
    · next hopen => rw [fill_open [] h.2, hopen, List.singleton_append]
    · rw [ih h.2]

end Fill

/-! ## Pieces -/

/-- What a flat template consists of: text without opening braces, placeholders, and in the end some
text without closing braces. -/
inductive Pieced : List Char → Prop
  | plain {front rest : List Char} (hfront : '\x7b' ∉ front) (hrest : '\x7d' ∉ rest) :
    Pieced (front ++ rest)
  | hole {front rest : List Char} {name : String} (hfront : '\x7b' ∉ front)
    (hname : Braceless name) (hrest : Pieced rest) : Pieced (front ++ (placeholder name ++ rest))

theorem IsFlat.suffix {s t : List Char} (h : IsFlat t) (hs : s <:+ t) : IsFlat s :=
  fun r hr => h r ((List.mem_tails r t).2 (((List.mem_tails r s).1 hr).trans hs))

theorem takeWhile_name {name : List Char} (h : '\x7d' ∉ name) (rest : List Char) :
    (name ++ '\x7d' :: rest).takeWhile (· != '\x7d') = name := by
  have hall : ∀ c ∈ name, (c != '\x7d') = true := fun c hc =>
    bne_iff_ne.2 fun hsame => h (hsame ▸ hc)
  rw [List.takeWhile_append_of_pos hall]
  simp

/-- Between an opening brace and the next closing one there is a name without braces. -/
theorem IsFlat.braceless {name rest : List Char} (h : IsFlat ('\x7b' :: (name ++ '\x7d' :: rest)))
    (hname : '\x7d' ∉ name) : Braceless (String.ofList name) := by
  have hopen := h _ ((List.mem_tails _ _).2 (List.suffix_refl _)) rfl (by simp)
  rw [List.tail_cons, takeWhile_name hname] at hopen
  exact ⟨by rwa [String.toList_ofList], by rwa [String.toList_ofList]⟩

theorem IsFlat.pieced {template : List Char} (h : IsFlat template) : Pieced template := by
  induction hn : template.length using Nat.strongRecOn generalizing template with
  | ind n ih =>
    by_cases hopen : '\x7b' ∈ template
    · obtain ⟨front, s, rfl, hfront⟩ := List.eq_append_cons_of_mem hopen
      by_cases hclose : '\x7d' ∈ s
      · obtain ⟨name, rest, rfl, hname⟩ := List.eq_append_cons_of_mem hclose
        have hbraceless := (h.suffix (List.suffix_append front _)).braceless hname
        have hrest : rest <:+ front ++ '\x7b' :: (name ++ '\x7d' :: rest) :=
          ⟨front ++ '\x7b' :: (name ++ ['\x7d']), by simp⟩
        have hshorter : rest.length < n := by
          rw [← hn]
          simp
          omega
        have hpieced := Pieced.hole hfront hbraceless (ih _ hshorter (h.suffix hrest) rfl)
        simpa [placeholder] using hpieced
      · exact .plain hfront (by simpa using hclose)
    · rw [← List.append_nil template]
      exact .plain hopen (by simp)

/-! ## Replacing one parameter -/

section Placeholders

variable {a b : String}

theorem eq_of_placeholder_front (ha : Braceless a) (hb : Braceless b)
    (h : placeholder a <+: placeholder b) : a = b := by
  obtain ⟨rest, hrest⟩ := h
  have htail : a.toList ++ '\x7d' :: rest = b.toList ++ '\x7d' :: [] :=
    (List.cons.inj ((placeholder_append a rest).symm.trans hrest)).2
  have hname := congrArg (List.takeWhile (· != '\x7d')) htail
  rw [takeWhile_name ha.2, takeWhile_name hb.2] at hname
  exact String.toList_inj.1 hname

/-- No placeholder begins in a text without opening braces. -/
theorem staysClear_of_not_open {s : List Char} (h : '\x7b' ∉ s) (name : String) :
    StaysClear (placeholder name) s :=
  staysClear_of_not_mem h _

/-- Placeholders of different names stay clear of each other. -/
theorem staysClear_placeholder (ha : Braceless a) (hb : Braceless b) (hne : a ≠ b) :
    StaysClear (placeholder b) (placeholder a) := by
  have htail : StaysClear (placeholder b) (a.toList ++ ['\x7d']) :=
    staysClear_of_not_open (by simpa using ha.1) b
  exact htail.cons (fun h => hne (eq_of_placeholder_front ha hb h))
    fun h => hne (eq_of_placeholder_front hb ha h).symm

theorem placeholder_absent {s : List Char} (h : '\x7b' ∉ s) (name : String) :
    ¬placeholder name <:+: s :=
  fun hoccurs => h (hoccurs.subset List.mem_cons_self)

end Placeholders

section Step

variable {encode : String → List Char} {parameters : List (String × String)} {p : String × String}
  {template : List Char} {name : String}

theorem mem_of_valueIn {value : List Char} (h : valueIn encode parameters name = some value) :
    ∃ q ∈ parameters, encode q.2 = value := by
  obtain ⟨text, hlookup, rfl⟩ := Option.map_eq_some_iff.1 h
  obtain ⟨before, after, rfl, -⟩ := List.lookup_eq_some_iff.1 hlookup
  exact ⟨(name, text), by simp, rfl⟩

/-- A later parameter gives a name its value only if none before it does. -/
theorem valueIn_concat : valueIn encode (parameters ++ [p]) name =
    (valueIn encode parameters name).or (if name = p.1 then some (encode p.2) else none) := by
  unfold valueIn
  rw [List.lookup_append, Option.map_or, List.lookup_singleton]
  by_cases h : name = p.1 <;> simp [h]

theorem fill_none (ht : Pieced template) : fill (valueIn encode []) none template = template := by
  induction ht with
  | plain hfront hrest => rw [fill_append hfront, fill_of_not_mem hrest]
  | hole hfront hname _ ih => rw [fill_append hfront, fill_placeholder hname, ih]; rfl

/-- **One parameter after others.** If its placeholder cannot be mistaken in their values, replacing
it gives the template filled with its value too. -/
theorem replaceFrom_fill (ht : Pieced template) (hp : Braceless p.1)
    (hclear : ∀ q ∈ parameters, StaysClear (placeholder p.1) (encode q.2)) :
    replaceFrom (placeholder p.1) (encode p.2) 0 (fill (valueIn encode parameters) none template) =
      fill (valueIn encode (parameters ++ [p])) none template := by
  induction ht with
  | @plain front rest hfront hrest =>
    have hnone : ¬placeholder p.1 <:+: rest :=
      fun hoccurs => hrest (hoccurs.subset (by simp [placeholder]))
    rw [fill_append hfront, fill_append hfront, fill_of_not_mem hrest, fill_of_not_mem hrest,
      replaceFrom_append_of_staysClear (staysClear_of_not_open hfront _),
      replaceFrom_of_absent hnone]
  | @hole front rest name hfront hname _ ih =>
    rw [fill_append hfront, fill_append hfront, fill_placeholder hname, fill_placeholder hname,
      replaceFrom_append_of_staysClear (staysClear_of_not_open hfront _), ← ih, valueIn_concat]
    congr 1
    cases hvalue : valueIn encode parameters name with
    | some value =>
      obtain ⟨q, hq, rfl⟩ := mem_of_valueIn hvalue
      exact replaceFrom_append_of_staysClear (hclear q hq) _
    | none =>
      by_cases h : name = p.1
      · subst h
        simpa using replaceFrom_append_self (placeholder_ne_nil _) _
      · simpa [h] using replaceFrom_append_of_staysClear (staysClear_placeholder hname hp h) _

end Step

/-! ## Replacing all parameters -/

theorem fill_congr {value? other? : String → Option (List Char)}
    (h : ∀ name, (value? name).getD (placeholder name) = (other? name).getD (placeholder name))
    (read : Option (List Char)) (s : List Char) : fill value? read s = fill other? read s := by
  induction s generalizing read with
  | nil => cases read <;> rfl
  | cons c s ih => cases read <;> simp only [fill, h, ih]

section All

variable {encode : String → List Char} {parameters others : List (String × String)}
  {p : String × String} {template : List Char}

/-- A parameter whose value is its own placeholder changes nothing. -/
theorem fill_concat_self (h : encode p.2 = placeholder p.1) (template : List Char) :
    fill (valueIn encode (parameters ++ [p])) none template =
      fill (valueIn encode parameters) none template := by
  refine fill_congr (fun name => ?_) none template
  rw [valueIn_concat]
  cases valueIn encode parameters name with
  | some value => rfl
  | none => by_cases hname : name = p.1 <;> simp [hname, h]

/-- Whether the placeholder of a parameter cannot be mistaken in the value of another, or it does
not matter because it is replaced by itself. -/
def Spares (encode : String → List Char) (a b : String × String) : Prop :=
  encode b.2 = placeholder b.1 ∨ StaysClear (placeholder b.1) (encode a.2)

instance (encode : String → List Char) (a b : String × String) : Decidable (Spares encode a b) :=
  inferInstanceAs (Decidable (_ ∨ _))

/-- **One after another is all at once.** If no value can be mistaken for a placeholder that comes
later, a template is filled. -/
theorem substitute_eq_fill (ht : Pieced template) (hnames : ∀ p ∈ parameters, Braceless p.1)
    (hspares : parameters.Pairwise (Spares encode)) :
    substitute encode template parameters = fill (valueIn encode parameters) none template := by
  induction parameters using List.reverseRecOn with
  | nil => exact (fill_none ht).symm
  | append_singleton parameters p ih =>
    rw [List.forall_mem_append, List.forall_mem_singleton] at hnames
    obtain ⟨hbefore, -, hlast⟩ := List.pairwise_append.1 hspares
    have hsubstitute : substitute encode template (parameters ++ [p]) =
        replaceFrom (placeholder p.1) (encode p.2) 0
          (fill (valueIn encode parameters) none template) := by
      rw [← ih hnames.1 hbefore, substitute, List.foldl_append]
      rfl
    rw [hsubstitute]
    by_cases hself : encode p.2 = placeholder p.1
    · rw [hself, replaceFrom_self (placeholder_ne_nil _), fill_concat_self hself]
    · exact replaceFrom_fill ht hnames.2 fun q hq =>
        (hlast q hq p List.mem_cons_self).resolve_left hself

/-! ## The order of parameters -/

theorem lookup_eq_some_iff_mem (h : (parameters.map Prod.fst).Nodup) {name text : String} :
    parameters.lookup name = some text ↔ (name, text) ∈ parameters := by
  rw [List.lookup_eq_some_iff]
  constructor
  · rintro ⟨before, after, rfl, -⟩
    simp
  · intro hmem
    obtain ⟨before, after, rfl⟩ := List.append_of_mem hmem
    refine ⟨before, after, rfl, fun q hq => bne_iff_ne.2 ?_⟩
    rw [List.map_append, List.nodup_append] at h
    exact (h.2.2 q.1 (List.mem_map_of_mem hq) name List.mem_cons_self).symm

/-- Where names are distinct the order of the parameters does not matter for their values. -/
theorem valueIn_perm (h : (parameters.map Prod.fst).Nodup) (hperm : others.Perm parameters) :
    valueIn encode others = valueIn encode parameters := by
  have hothers : (others.map Prod.fst).Nodup := (hperm.map _).nodup_iff.2 h
  funext name
  refine congrArg (Option.map encode) (Option.ext fun text => ?_)
  rw [lookup_eq_some_iff_mem hothers, lookup_eq_some_iff_mem h, hperm.mem_iff]

/-- Where no value can be mistaken for the placeholder of another parameter, every order of the
parameters fills the template. -/
theorem substitute_perm (hflat : IsFlat template) (h : (parameters.map Prod.fst).Nodup)
    (hnames : ∀ p ∈ parameters, Braceless p.1)
    (hspares : ∀ a ∈ parameters, ∀ b ∈ parameters, a ≠ b → Spares encode a b)
    (hperm : others.Perm parameters) :
    substitute encode template others = fill (valueIn encode parameters) none template := by
  have hdistinct : others.Nodup := hperm.nodup_iff.2 (List.Nodup.of_map Prod.fst h)
  have hpairwise : others.Pairwise (Spares encode) :=
    hdistinct.imp_of_mem fun ha hb hne =>
      hspares _ (hperm.subset ha) _ (hperm.subset hb) hne
  rw [substitute_eq_fill hflat.pieced (fun p hp => hnames p (hperm.subset hp)) hpairwise,
    valueIn_perm h hperm]

/-! ## Values that are mistaken -/

theorem substitute_of_absent (h : ∀ p ∈ parameters, ¬placeholder p.1 <:+: template) :
    substitute encode template parameters = template := by
  induction parameters with
  | nil => rfl
  | cons p parameters ih =>
    obtain ⟨hp, hrest⟩ := List.forall_mem_cons.1 h
    rw [substitute, List.foldl_cons, replaceFrom_of_absent hp]
    exact ih hrest

/-- A placeholder with no other opening brace in the text is what is replaced. -/
theorem substitute_one {front rest : List Char} (hfront : '\x7b' ∉ front) (hrest : '\x7b' ∉ rest)
    (encode : String → List Char) (p : String × String) :
    substitute encode (front ++ (placeholder p.1 ++ rest)) [p] = front ++ (encode p.2 ++ rest) := by
  rw [substitute, List.foldl_cons, List.foldl_nil,
    replaceFrom_append_of_staysClear (staysClear_of_not_open hfront p.1),
    replaceFrom_append_self (placeholder_ne_nil _),
    replaceFrom_of_absent (placeholder_absent hrest p.1)]

theorem isFlat_placeholder_append {name : String} {rest : List Char} (hname : Braceless name)
    (hrest : '\x7b' ∉ rest) : IsFlat (placeholder name ++ rest) := by
  have htail : '\x7b' ∉ name.toList ++ '\x7d' :: rest := by simpa [hname.1] using hrest
  rw [placeholder_append]
  intro s hs hhead _
  rcases List.suffix_cons_iff.1 ((List.mem_tails _ _).1 hs) with rfl | hsuffix
  · rw [List.tail_cons, takeWhile_name hname.2]
    exact hname.1
  · exact absurd (hsuffix.subset (List.mem_of_mem_head? hhead)) htail

/-- What does not stay clear of a placeholder holds it, or begins it and can be completed to hold
it. -/
theorem exists_completion {s : List Char} {name : String} (hname : Braceless name)
    (h : ¬StaysClear (placeholder name) s) :
    ∃ rest, '\x7b' ∉ rest ∧ placeholder name <:+: s ++ rest := by
  simp only [StaysClear, not_forall, Classical.not_and_iff_not_or_not, not_not] at h
  obtain ⟨t, hne, ⟨front, rfl⟩, hover | hwithin⟩ := h
  · obtain ⟨rest, hrest⟩ := hover
    refine ⟨rest, fun hopen => ?_, front, [], by simp [hrest]⟩
    obtain ⟨c, t, rfl⟩ := List.exists_cons_of_ne_nil hne
    have htail : t ++ rest = name.toList ++ ['\x7d'] := (List.cons.inj hrest).2
    have hmem : '\x7b' ∈ name.toList ++ ['\x7d'] := htail ▸ List.mem_append_right t hopen
    exact absurd hmem (by simpa using hname.1)
  · refine ⟨[], by simp, ?_⟩
    rw [List.append_nil]
    exact hwithin.isInfix.trans (List.suffix_append front t).isInfix

/-- Any two of distinct parameters can be put last, in either order. -/
theorem erase_append_perm {a b : String × String} (ha : a ∈ parameters) (hb : b ∈ parameters)
    (hne : a ≠ b) : ((parameters.erase a).erase b ++ [a, b]).Perm parameters := by
  have hb' : b ∈ parameters.erase a := (List.mem_erase_of_ne hne.symm).2 hb
  have hrest : (a :: b :: (parameters.erase a).erase b).Perm (a :: parameters.erase a) :=
    (List.perm_cons_erase hb').symm.cons a
  exact List.perm_append_comm.trans (hrest.trans (List.perm_cons_erase ha).symm)

/-- Only where no value can be mistaken do all orders of the parameters fill every template. -/
theorem spares_of_forall (h : (parameters.map Prod.fst).Nodup)
    (hnames : ∀ p ∈ parameters, Braceless p.1)
    (hfills : ∀ template, IsFlat template → ∀ others : List (String × String),
      others.Perm parameters →
        substitute encode template others = fill (valueIn encode parameters) none template)
    {a b : String × String} (ha : a ∈ parameters) (hb : b ∈ parameters) (hne : a ≠ b) :
    Spares encode a b := by
  by_contra hmistaken
  obtain ⟨hself, hclear⟩ := not_or.1 hmistaken
  obtain ⟨rest, hopen, hoccurs⟩ := exists_completion (hnames b hb) hclear
  -- The value that is mistaken is put in by the last parameter but one, and the last one takes it up.
  have hperm := erase_append_perm ha hb hne
  generalize (parameters.erase a).erase b = front at hperm
  have hfront : ∀ p ∈ front, ¬placeholder p.1 <:+: placeholder a.1 ++ rest := by
    intro p hp
    have hname : a.1 ≠ p.1 := by
      have hdistinct := (hperm.map Prod.fst).nodup_iff.2 h
      rw [List.map_append, List.nodup_append] at hdistinct
      exact (hdistinct.2.2 p.1 (List.mem_map_of_mem hp) a.1 (by simp)).symm
    have hclear := staysClear_placeholder (hnames a ha)
      (hnames p (hperm.subset (List.mem_append_left _ hp))) hname
    exact hclear.absent_append (placeholder_absent hopen p.1)
  have hsubstitute : substitute encode (placeholder a.1 ++ rest) (front ++ [a, b]) =
      replaceFrom (placeholder b.1) (encode b.2) 0 (encode a.2 ++ rest) := by
    have hbefore : substitute encode (placeholder a.1 ++ rest) front = placeholder a.1 ++ rest :=
      substitute_of_absent hfront
    have hone := substitute_one (show '\x7b' ∉ ([] : List Char) by simp) hopen encode a
    calc substitute encode (placeholder a.1 ++ rest) (front ++ [a, b])
        = replaceFrom (placeholder b.1) (encode b.2) 0 (substitute encode
            (substitute encode (placeholder a.1 ++ rest) front) [a]) := List.foldl_append
      _ = replaceFrom (placeholder b.1) (encode b.2) 0 (encode a.2 ++ rest) := by
        rw [hbefore]
        exact congrArg _ hone
  have hvalue : valueIn encode parameters a.1 = some (encode a.2) :=
    congrArg (Option.map encode) ((lookup_eq_some_iff_mem h).2 ha)
  have hfilled : fill (valueIn encode parameters) none (placeholder a.1 ++ rest) =
      encode a.2 ++ rest := by
    have hrest : fill (valueIn encode parameters) none (rest ++ []) = _ := fill_append hopen []
    rw [List.append_nil, fill, List.append_nil] at hrest
    rw [fill_placeholder (hnames a ha), hvalue, hrest, Option.getD_some]
  have hsame := hfills _ (isFlat_placeholder_append (hnames a ha) hopen) _ hperm
  rw [hsubstitute, hfilled] at hsame
  exact replaceFrom_ne (placeholder_ne_nil _) hself hoccurs hsame

end All

end Template

/-! ## Parameters that are inserted as they are -/

/-- **When parameters are substituted at once.** The order of the parameters does not matter, and
each placeholder of a template is replaced by the value of its name and everything else kept, if and
only if no value can be mistaken for the placeholder of another parameter. -/
theorem path_parameters_simultaneous_iff {parameters : List (String × String)}
    (hdistinct : (parameters.map Prod.fst).Nodup) (hnames : ∀ p ∈ parameters, Braceless p.1) :
    (∀ template : String, Template.IsFlat template.toList → ∀ others : List (String × String),
      others.Perm parameters → PrepareStep.pathParameters template others =
        .path (Template.filled String.toList parameters template)) ↔
      ∀ a ∈ parameters, ∀ b ∈ parameters, a ≠ b → Template.Spares String.toList a b := by
  constructor
  · intro hfills a ha b hb hne
    refine Template.spares_of_forall hdistinct hnames (fun template hflat others hperm => ?_)
      ha hb hne
    have htext := hfills (String.ofList template) (by rwa [String.toList_ofList]) others hperm
    rw [PrepareStep.pathParameters, Template.filled, PrepareStep.path.injEq,
      String.toList_ofList] at htext
    exact String.ofList_injective htext
  · intro hspares template hflat others hperm
    rw [PrepareStep.pathParameters,
      Template.substitute_perm hflat hdistinct hnames hspares hperm, Template.filled]

/-- Values that hold braces but neither a placeholder nor the beginning of one at their end, and one
that is its own placeholder. -/
theorem path_parameters_simultaneous_iff_braces :
    let template := "\x7ba\x7d\x7bb\x7d/\x7bc\x7d\x7ba\x7d"
    let parameters := [("a", "\x7bc\x7d\x7d"), ("b", "b\x7d/\x7bx"), ("c", "\x7bc\x7d")]
    (parameters.map Prod.fst).Nodup ∧ (∀ p ∈ parameters, Braceless p.1) ∧
    Template.IsFlat template.toList ∧ parameters.reverse.Perm parameters ∧
    PrepareStep.pathParameters template parameters.reverse =
      .path "\x7bc\x7d\x7db\x7d/\x7bx/\x7bc\x7d\x7bc\x7d\x7d" := by
  intro template parameters
  have hdistinct : (parameters.map Prod.fst).Nodup := by decide
  have hnames : ∀ p ∈ parameters, Braceless p.1 := by decide
  have hflat : Template.IsFlat template.toList := by decide +kernel
  have hspares : ∀ a ∈ parameters, ∀ b ∈ parameters, a ≠ b → Template.Spares String.toList a b := by
    decide +kernel
  have hperm := List.reverse_perm parameters
  have hfilled : Template.filled String.toList parameters template =
      "\x7bc\x7d\x7db\x7d/\x7bx/\x7bc\x7d\x7bc\x7d\x7d" := by decide +kernel
  exact ⟨hdistinct, hnames, hflat, hperm,
    ((path_parameters_simultaneous_iff hdistinct hnames).2 hspares template hflat _ hperm).trans
      (congrArg PrepareStep.path hfilled)⟩

/-- A value that is the placeholder of a later parameter is not left alone, and the other order of
the two parameters gives another path. -/
theorem not_path_parameters_simultaneous :
    let template := "\x7ba\x7d"
    let parameters := [("a", "\x7bb\x7d"), ("b", "x")]
    Template.IsFlat template.toList ∧ (parameters.map Prod.fst).Nodup ∧
    (∀ p ∈ parameters, Braceless p.1) ∧
    Template.filled String.toList parameters template = "\x7bb\x7d" ∧
    PrepareStep.pathParameters template parameters = .path "x" ∧
    PrepareStep.pathParameters template parameters.reverse = .path "\x7bb\x7d" := by
  refine ⟨by decide +kernel, by decide, by decide, by decide +kernel, ?_, ?_⟩
  all_goals exact congrArg PrepareStep.path (by decide +kernel)

/-! ## Escaped parameters -/

theorem not_open_of_encode (text : String) : '\x7b' ∉ Form.encode text := by
  intro hopen
  have := Form.forall_mem_encode (p := (· != '\x7b')) (by decide +kernel) text _ hopen
  simp at this

/-- **Escaped parameters are substituted at once.** In whatever order they come, each placeholder of
the template is replaced by the encoded value of its name, and everything else is kept. -/
theorem escaped_path_parameters_simultaneous {template : String}
    (hflat : Template.IsFlat template.toList) {parameters others : List (String × String)}
    (hdistinct : (parameters.map Prod.fst).Nodup) (hnames : ∀ p ∈ parameters, Braceless p.1)
    (hperm : others.Perm parameters) :
    PrepareStep.escapedPathParameters template others =
      .path (Template.filled Form.encode parameters template) := by
  have hspares : ∀ a ∈ parameters, ∀ b ∈ parameters, a ≠ b → Template.Spares Form.encode a b :=
    fun a _ b _ _ => .inr (Template.staysClear_of_not_open (not_open_of_encode a.2) b.1)
  rw [PrepareStep.escapedPathParameters,
    Template.substitute_perm hflat hdistinct hnames hspares hperm, Template.filled]

/-- A value that looks like a placeholder, one that is repeated, a name without a value, and braces
that are not closed. -/
theorem escaped_path_parameters_simultaneous_nested :
    let template := "\x7d/\x7ba\x7d\x7bb\x7d/\x7bc\x7d\x7ba\x7d\x7bb"
    let parameters := [("a", "\x7bb\x7d"), ("b", "é +/"), ("", "x")]
    Template.IsFlat template.toList ∧ (parameters.map Prod.fst).Nodup ∧
    (∀ p ∈ parameters, Braceless p.1) ∧ parameters.reverse.Perm parameters ∧
    PrepareStep.escapedPathParameters template parameters.reverse =
      .path "\x7d/%7Bb%7D%C3%A9+%2B%2F/\x7bc\x7d%7Bb%7D\x7bb" := by
  intro template parameters
  have hflat : Template.IsFlat template.toList := by decide +kernel
  have hdistinct : (parameters.map Prod.fst).Nodup := by decide
  have hnames : ∀ p ∈ parameters, Braceless p.1 := by decide
  have hperm := List.reverse_perm parameters
  have hfilled : Template.filled Form.encode parameters template =
      "\x7d/%7Bb%7D%C3%A9+%2B%2F/\x7bc\x7d%7Bb%7D\x7bb" := by decide +kernel
  exact ⟨hflat, hdistinct, hnames, hperm,
    (escaped_path_parameters_simultaneous hflat hdistinct hnames hperm).trans
      (congrArg PrepareStep.path hfilled)⟩

end Courier
