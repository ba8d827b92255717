import Courier.Proofs.Files.Places
import Courier.Proofs.Json.Grammar

set_option autoImplicit false

/-! # What operations leave alone

Each operation on files that succeeds changes what stands at one place, or at two, and no directory
is ever lost: `FileTree.Spares` says which places may have changed. Making directories changes no
file at all. -/

namespace Courier

/-! ## Places that may change -/

/-- The place that a path points at. -/
def FileTree.PointsAt (t : FileTree) (path : String) (q : Place) : Prop :=
  ∃ place name slash, t.target path = .ok (.name place name slash) ∧ q = place ++ [name]

theorem FileTree.PointsAt.of_grows {t u : FileTree} {path : String} {q : Place} (h : t.Grows u)
    (hq : t.PointsAt path q) : u.PointsAt path q := by
  obtain ⟨place, name, slash, htarget, rfl⟩ := hq
  exact ⟨place, name, slash, FileTree.target_of_grows h htarget, rfl⟩

theorem FileTree.PointsAt.unique {t : FileTree} {path : String} {q q' : Place}
    (h : t.PointsAt path q) (h' : t.PointsAt path q') : q = q' := by
  obtain ⟨place, name, slash, htarget, rfl⟩ := h
  obtain ⟨place', name', slash', htarget', rfl⟩ := h'
  rw [htarget] at htarget'
  obtain ⟨rfl, rfl, -⟩ := FileTree.Target.name.inj (Except.ok.inj htarget')
  rfl

/-- Whether all files stay as they are, and none is added, but at some places, and no directory is
    lost. -/
structure FileTree.Spares (P : Place → Prop) (t u : FileTree) : Prop where
  grows : t.Grows u
  files : ∀ q, ¬P q → ∀ c, t.find? q = some (.file c) ↔ u.find? q = some (.file c)

theorem FileTree.Spares.refl (P : Place → Prop) (t : FileTree) : t.Spares P t :=
  ⟨.refl t, fun _ _ _ => Iff.rfl⟩

theorem FileTree.Spares.trans {P : Place → Prop} {t u v : FileTree} (h : t.Spares P u)
    (h' : u.Spares P v) : t.Spares P v :=
  ⟨h.grows.trans h'.grows, fun q hq c => (h.files q hq c).trans (h'.files q hq c)⟩

theorem FileTree.Spares.mono {P Q : Place → Prop} {t u : FileTree} (h : t.Spares P u)
    (hPQ : ∀ q, P q → Q q) : t.Spares Q u :=
  ⟨h.grows, fun q hq c => h.files q (fun hP => hq (hPQ q hP)) c⟩

section Put

variable {t : FileTree} {place : Place} {name : String}

theorem FileTree.find?_put_self (entry : FileTree.Entry) :
    (t.put (place ++ [name]) entry).find? (place ++ [name]) = some entry := by
  rw [FileTree.find?_put _ _ _ _ (by simp), if_pos rfl]

theorem FileTree.find?_put_of_ne {q : Place} (h : q ≠ place ++ [name]) (entry : FileTree.Entry) :
    (t.put (place ++ [name]) entry).find? q = t.find? q := by
  rw [FileTree.find?_put _ _ _ _ (by simp), if_neg h]

theorem FileTree.find?_erase_self : (t.erase (place ++ [name])).find? (place ++ [name]) = none := by
  rw [FileTree.find?_erase _ _ _ (by simp), if_pos rfl]

theorem FileTree.find?_erase_of_ne {q : Place} (h : q ≠ place ++ [name]) :
    (t.erase (place ++ [name])).find? q = t.find? q := by
  rw [FileTree.find?_erase _ _ _ (by simp), if_neg h]

/-- A file may be put where no directory stands. -/
theorem FileTree.spares_put_file (h : t.find? (place ++ [name]) ≠ some .directory) (c : Bytes) :
    t.Spares (· = place ++ [name]) (t.put (place ++ [name]) (.file c)) := by
  refine ⟨fun q hq => ?_, fun q hq c' => ?_⟩
  · rw [FileTree.find?_put_of_ne (fun heq => h (heq ▸ hq)), hq]
  · rw [FileTree.find?_put_of_ne hq]

theorem FileTree.spares_erase (h : t.find? (place ++ [name]) ≠ some .directory) :
    t.Spares (· = place ++ [name]) (t.erase (place ++ [name])) := by
  refine ⟨fun q hq => ?_, fun q hq c => ?_⟩
  · rw [FileTree.find?_erase_of_ne (fun heq => h (heq ▸ hq)), hq]
  · rw [FileTree.find?_erase_of_ne hq]

/-- A directory that is put where nothing stands changes no file. -/
theorem FileTree.spares_put_directory (h : t.find? (place ++ [name]) = none) (P : Place → Prop) :
    t.Spares P (t.put (place ++ [name]) .directory) := by
  refine ⟨fun q hq => ?_, fun q _ c => ?_⟩
  · rw [FileTree.find?_put_of_ne (fun heq => by simp [heq ▸ hq] at h), hq]
  · by_cases heq : q = place ++ [name]
    · rw [heq, FileTree.find?_put_self, h]
      simp
    · rw [FileTree.find?_put_of_ne heq]

end Put

/-! ## Operations that succeed -/

section Operations

variable {t u : FileTree} {path : String}

/-- A file is read where a path with no slash after it points at one. -/
theorem FileTree.read_eq_ok_iff {c : Bytes} :
    t.read path = .ok c ↔ ∃ place name, t.target path = .ok (.name place name false) ∧
      t.find? (place ++ [name]) = some (.file c) := by
  refine ⟨fun h => ?_, ?_⟩
  · unfold FileTree.read at h
    obtain ⟨target, htarget, h⟩ := bind_eq_ok_iff.1 h
    cases target with
    | directory place => cases h
    | name place name slash =>
      dsimp only at h
      split at h
      · cases h
      · cases h
      · rename_i content hfind
        cases slash with
        | true => cases h
        | false =>
          obtain rfl : content = c := Except.ok.inj h
          exact ⟨place, name, htarget, hfind⟩
  · rintro ⟨place, name, htarget, hfind⟩
    simp only [FileTree.read, htarget, bind, Except.bind, hfind]
    rfl

/-- A file is written where a path with no slash after it points at no directory. -/
theorem FileTree.placeToWrite_eq_ok {q : Place} (h : t.placeToWrite path = .ok q) :
    ∃ place name, t.target path = .ok (.name place name false) ∧ q = place ++ [name] ∧
      t.find? (place ++ [name]) ≠ some .directory := by
  unfold FileTree.placeToWrite at h
  obtain ⟨target, htarget, h⟩ := bind_eq_ok_iff.1 h
  cases target with
  | directory place => cases h
  | name place name slash =>
    cases slash with
    | true => cases h
    | false =>
      dsimp only at h
      rw [if_neg Bool.false_ne_true] at h
      split at h
      · cases h
      · rename_i hfind
        exact ⟨place, name, htarget, (Except.ok.inj h).symm, hfind⟩

theorem FileTree.truncate_eq_ok (h : t.truncate path = .ok u) :
    ∃ place name, t.target path = .ok (.name place name false) ∧
      t.find? (place ++ [name]) ≠ some .directory ∧ u = t.put (place ++ [name]) (.file []) := by
  obtain ⟨q, hq, rfl⟩ := map_eq_ok_iff.1 h
  obtain ⟨place, name, htarget, rfl, hfind⟩ := FileTree.placeToWrite_eq_ok hq
  exact ⟨place, name, htarget, hfind, rfl⟩

/-- What is written goes to the end of the file that is there; without one it is lost. -/
theorem FileTree.append_eq_ok {more : Bytes} (h : t.append path more = .ok u) :
    ∃ place name, t.target path = .ok (.name place name false) ∧
      t.find? (place ++ [name]) ≠ some .directory ∧
      ((∃ c, t.find? (place ++ [name]) = some (.file c) ∧
        u = t.put (place ++ [name]) (.file (c ++ more))) ∨
      t.find? (place ++ [name]) = none ∧ u = t) := by
  obtain ⟨q, hq, rfl⟩ := map_eq_ok_iff.1 h
  obtain ⟨place, name, htarget, rfl, hfind⟩ := FileTree.placeToWrite_eq_ok hq
  refine ⟨place, name, htarget, hfind, ?_⟩
  cases hentry : t.find? (place ++ [name]) with
  | none => exact .inr ⟨rfl, rfl⟩
  | some entry =>
    cases entry with
    | directory => exact absurd hentry hfind
    | file c => exact .inl ⟨c, rfl, rfl⟩

/-- A file is moved in place of what is there, which is no directory. -/
theorem FileTree.move_eq_ok {source : String} (h : t.move source path = .ok u) :
    ∃ place name place' name' c, t.target source = .ok (.name place name false) ∧
      t.target path = .ok (.name place' name' false) ∧
      t.find? (place ++ [name]) = some (.file c) ∧
      t.find? (place' ++ [name']) ≠ some .directory ∧
      u = (t.erase (place ++ [name])).put (place' ++ [name']) (.file c) := by
  unfold FileTree.move at h
  obtain ⟨source', hsource, hmove⟩ := bind_eq_ok_iff.1 h
  obtain ⟨target', htarget, hmoved⟩ := bind_eq_ok_iff.1 hmove
  clear h hmove
  cases source' with
  | directory place => cases hmoved
  | name place name slash =>
    cases target' with
    | directory place' => cases hmoved
    | name place' name' slash' =>
      dsimp only at hmoved
      split at hmoved
      · cases hmoved
      · cases hmoved
      · rename_i c hfind
        split at hmoved
        · cases hmoved
        · rename_i hslash
          obtain ⟨rfl, rfl⟩ : slash = false ∧ slash' = false := by
            simpa [not_or] using hslash
          split at hmoved
          · cases hmoved
          · rename_i hfind'
            exact ⟨place, name, place', name', c, hsource, htarget, hfind, hfind',
              (Except.ok.inj hmoved).symm⟩

theorem FileTree.remove_eq_ok (h : t.remove path = .ok u) :
    ∃ place name c, t.target path = .ok (.name place name false) ∧
      t.find? (place ++ [name]) = some (.file c) ∧ u = t.erase (place ++ [name]) := by
  unfold FileTree.remove at h
  obtain ⟨target, htarget, h⟩ := bind_eq_ok_iff.1 h
  cases target with
  | directory place => cases h
  | name place name slash =>
    dsimp only at h
    split at h
    · cases h
    · cases h
    · rename_i c hfind
      cases slash with
      | true => cases h
      | false => exact ⟨place, name, c, htarget, hfind, (Except.ok.inj h).symm⟩

theorem FileTree.makeDirectory_eq_ok (h : t.makeDirectory path = .ok u) :
    ∃ place name, t.find? (place ++ [name]) = none ∧ u = t.put (place ++ [name]) .directory := by
  unfold FileTree.makeDirectory at h
  obtain ⟨target, htarget, h⟩ := bind_eq_ok_iff.1 h
  cases target with
  | directory place => cases h
  | name place name slash =>
    dsimp only at h
    split at h
    · cases h
    · rename_i hfind
      exact ⟨place, name, hfind, (Except.ok.inj h).symm⟩

theorem FileTree.spares_truncate (h : t.truncate path = .ok u) :
    t.Spares (t.PointsAt path) u := by
  obtain ⟨place, name, htarget, hfind, rfl⟩ := FileTree.truncate_eq_ok h
  refine (FileTree.spares_put_file hfind []).mono fun q hq => ?_
  exact ⟨place, name, false, htarget, hq⟩

theorem FileTree.spares_append {more : Bytes} (h : t.append path more = .ok u) :
    t.Spares (t.PointsAt path) u := by
  obtain ⟨place, name, htarget, hfind, ⟨c, -, rfl⟩ | ⟨-, rfl⟩⟩ := FileTree.append_eq_ok h
  · refine (FileTree.spares_put_file hfind _).mono fun q hq => ?_
    exact ⟨place, name, false, htarget, hq⟩
  · exact .refl _ _

theorem FileTree.spares_move {source : String} (h : t.move source path = .ok u) :
    t.Spares (fun q => t.PointsAt source q ∨ t.PointsAt path q) u := by
  obtain ⟨place, name, place', name', c, hsource, htarget, hfind, hfind', rfl⟩ :=
    FileTree.move_eq_ok h
  have herase : t.Spares (fun q => t.PointsAt source q ∨ t.PointsAt path q)
      (t.erase (place ++ [name])) :=
    (FileTree.spares_erase (by simp [hfind])).mono fun q hq => .inl ⟨place, name, false, hsource, hq⟩
  have hentry : (t.erase (place ++ [name])).find? (place' ++ [name']) ≠ some .directory := by
    by_cases heq : place' ++ [name'] = place ++ [name]
    · rw [heq, FileTree.find?_erase_self]
      exact fun h => by cases h
    · rw [FileTree.find?_erase_of_ne heq]
      exact hfind'
  exact herase.trans ((FileTree.spares_put_file hentry c).mono fun q hq =>
    .inr ⟨place', name', false, htarget, hq⟩)

theorem FileTree.spares_remove (h : t.remove path = .ok u) : t.Spares (t.PointsAt path) u := by
  obtain ⟨place, name, c, htarget, hfind, rfl⟩ := FileTree.remove_eq_ok h
  refine (FileTree.spares_erase (by simp [hfind])).mono fun q hq => ?_
  exact ⟨place, name, false, htarget, hq⟩

/-! ## What is read afterwards -/

/-- Nothing is read where a path points at nothing. -/
theorem FileTree.read_eq_notFound {place : Place} {name : String}
    (htarget : t.target path = .ok (.name place name false))
    (hfind : t.find? (place ++ [name]) = none) : t.read path = .error .notFound := by
  simp only [FileTree.read, htarget, bind, Except.bind, hfind]
  rfl

theorem FileTree.read_truncate (h : t.truncate path = .ok u) : u.read path = .ok [] := by
  have hgrows := (FileTree.spares_truncate h).grows
  obtain ⟨place, name, htarget, -, rfl⟩ := FileTree.truncate_eq_ok h
  exact FileTree.read_eq_ok_iff.2 ⟨place, name, FileTree.target_of_grows hgrows htarget,
    FileTree.find?_put_self _⟩

theorem FileTree.read_append {c more : Bytes} (hread : t.read path = .ok c)
    (h : t.append path more = .ok u) : u.read path = .ok (c ++ more) := by
  have hgrows := (FileTree.spares_append h).grows
  obtain ⟨place, name, htarget, hfind⟩ := FileTree.read_eq_ok_iff.1 hread
  obtain ⟨place', name', htarget', -, happended⟩ := FileTree.append_eq_ok h
  rw [htarget] at htarget'
  obtain ⟨rfl, rfl, -⟩ := FileTree.Target.name.inj (Except.ok.inj htarget')
  rw [hfind] at happended
  obtain ⟨c', hc', rfl⟩ | ⟨hnone, -⟩ := happended
  · obtain rfl : c = c' := by simpa using hc'
    exact FileTree.read_eq_ok_iff.2 ⟨place, name, FileTree.target_of_grows hgrows htarget,
      FileTree.find?_put_self _⟩
  · cases hnone

/-- What has been moved is read at its new place, and not at its old one. -/
theorem FileTree.read_move {source : String} {c : Bytes} (hread : t.read source = .ok c)
    (h : t.move source path = .ok u) (hapart : ∀ q, t.PointsAt source q → ¬t.PointsAt path q) :
    u.read path = .ok c ∧ u.read source = .error .notFound := by
  have hgrows := (FileTree.spares_move h).grows
  obtain ⟨place, name, hsource, hfind⟩ := FileTree.read_eq_ok_iff.1 hread
  obtain ⟨place₁, name₁, place', name', c', hsource', htarget, hfind', -, rfl⟩ :=
    FileTree.move_eq_ok h
  rw [hsource] at hsource'
  obtain ⟨rfl, rfl, -⟩ := FileTree.Target.name.inj (Except.ok.inj hsource')
  obtain rfl : c = c' := by simpa [hfind] using hfind'
  have hne : place ++ [name] ≠ place' ++ [name'] := fun heq =>
    hapart _ ⟨place, name, false, hsource, rfl⟩ ⟨place', name', false, htarget, heq⟩
  refine ⟨FileTree.read_eq_ok_iff.2 ⟨place', name', FileTree.target_of_grows hgrows htarget,
    FileTree.find?_put_self _⟩, FileTree.read_eq_notFound
      (FileTree.target_of_grows hgrows hsource) ?_⟩
  rw [FileTree.find?_put_of_ne hne, FileTree.find?_erase_self]

/-- A file that is spared is read as before. -/
theorem FileTree.Spares.read {P : Place → Prop} (h : t.Spares P u)
    (hP : ∀ place name, u.target path = .ok (.name place name false) → ¬P (place ++ [name]))
    {c : Bytes} (hread : t.read path = .ok c) : u.read path = .ok c := by
  obtain ⟨place, name, htarget, hfind⟩ := FileTree.read_eq_ok_iff.1 hread
  have htarget' := FileTree.target_of_grows h.grows htarget
  exact FileTree.read_eq_ok_iff.2
    ⟨place, name, htarget', (h.files _ (hP place name htarget') c).1 hfind⟩

end Operations

theorem FileTree.spares_ensureDirectory (P : Place → Prop) (t : FileTree) (path : String) :
    t.Spares P (t.ensureDirectory path).2 := by
  unfold FileTree.ensureDirectory
  split
  · rename_i u hmake
    obtain ⟨place, name, hfind, rfl⟩ := FileTree.makeDirectory_eq_ok hmake
    exact FileTree.spares_put_directory hfind P
  · split <;> exact .refl _ _

/-- Making directories changes no file, whether all of them can be made or not. -/
theorem FileTree.spares_makeMissing (P : Place → Prop) (t : FileTree) (ways : List String) :
    t.Spares P (t.makeMissing ways).2 := by
  induction ways generalizing t with
  | nil => exact .refl _ _
  | cons path above ih =>
    rw [FileTree.makeMissing]
    split
    · split
      · rename_i u habove
        have hmissing := ih t
        rw [habove] at hmissing
        exact hmissing.trans (FileTree.spares_ensureDirectory P u path)
      · exact ih t
    · exact FileTree.spares_ensureDirectory P t path

end Courier
