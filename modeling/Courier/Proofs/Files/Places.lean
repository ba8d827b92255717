import Courier.Files.Tree

set_option autoImplicit false

/-! # Where a path leads

A path leads through directories to a name in the last of them, and still leads there when other
directories have been added (`FileTree.target_of_grows`). A path with an ending put behind it leads
to another name in the same directory (`FileTree.target_append`). -/

namespace Courier

/-! ## Parts -/

/-- The parts of a list before and after the last separator; what has no separator in it only makes
    the last part longer. -/
theorem splitOn_append {α : Type} [BEq α] [LawfulBEq α] (a : α) (l : List α) :
    ∃ init last, l.splitOn a = init ++ [last] ∧
      ∀ m : List α, a ∉ m → (l ++ m).splitOn a = init ++ [last ++ m] := by
  induction l with
  | nil => exact ⟨[], [], rfl, fun m hm => List.splitOn_eq_singleton hm⟩
  | cons c l ih =>
    obtain ⟨init, last, hl, hm⟩ := ih
    by_cases hc : (c == a) = true
    · refine ⟨[] :: init, last, ?_, fun m h => ?_⟩
      · rw [List.splitOn_cons_eq_if_modifyHead, if_pos hc, hl, List.cons_append]
      · rw [List.cons_append, List.splitOn_cons_eq_if_modifyHead, if_pos hc, hm m h,
          List.cons_append]
    · cases init with
      | nil =>
        refine ⟨[], c :: last, ?_, fun m h => ?_⟩
        · rw [List.splitOn_cons_eq_if_modifyHead, if_neg hc, hl]
          rfl
        · rw [List.cons_append, List.splitOn_cons_eq_if_modifyHead, if_neg hc, hm m h]
          rfl
      | cons first init =>
        refine ⟨(c :: first) :: init, last, ?_, fun m h => ?_⟩
        · rw [List.splitOn_cons_eq_if_modifyHead, if_neg hc, hl]
          rfl
        · rw [List.cons_append, List.splitOn_cons_eq_if_modifyHead, if_neg hc, hm m h]
          rfl

/-- The last part of a path, empty after a slash. -/
def FilePath.last (path : String) : String := ((FilePath.parts path).getLast?).getD ""

/-- The parts of a path before the last one, those that are empty left out. -/
def FilePath.above (path : String) : List String :=
  (FilePath.parts path).dropLast.filter (· ≠ "")

theorem FilePath.parts_eq (path : String) :
    FilePath.parts path = (FilePath.parts path).dropLast ++ [FilePath.last path] := by
  have hne : FilePath.parts path ≠ [] := by
    unfold FilePath.parts
    simp
  unfold FilePath.last
  rw [List.getLast?_eq_some_getLast hne, Option.getD_some, List.dropLast_concat_getLast]

theorem FilePath.parts_append {ending : String} (h : '/' ∉ ending.toList) (path : String) :
    FilePath.parts (path ++ ending) =
      (FilePath.parts path).dropLast ++ [FilePath.last path ++ ending] := by
  obtain ⟨init, last, hpath, happend⟩ := splitOn_append '/' path.toList
  have hparts : FilePath.parts path = init.map String.ofList ++ [String.ofList last] := by
    rw [FilePath.parts, hpath, List.map_append, List.map_singleton]
  have hlast : FilePath.last path = String.ofList last := by
    rw [FilePath.last, hparts, List.getLast?_concat, Option.getD_some]
  rw [hlast, hparts, List.dropLast_concat, FilePath.parts, String.toList_append,
    happend ending.toList h, List.map_append, List.map_singleton, String.ofList_append,
    String.ofList_toList]

/-! ## Directories that stay -/

/-- Whether every directory of a tree is one of another tree. -/
def FileTree.Grows (t u : FileTree) : Prop :=
  ∀ place, t.find? place = some .directory → u.find? place = some .directory

theorem FileTree.Grows.refl (t : FileTree) : t.Grows t := fun _ h => h

theorem FileTree.Grows.trans {t u v : FileTree} (h : t.Grows u) (h' : u.Grows v) : t.Grows v :=
  fun place hplace => h' place (h place hplace)

/-- A way through directories stays. -/
theorem FileTree.walk_of_grows {t u : FileTree} (h : t.Grows u) {place place' : Place}
    {parts : List String} (hwalk : t.walk place parts = .ok place') :
    u.walk place parts = .ok place' := by
  induction parts generalizing place with
  | nil => exact hwalk
  | cons part rest ih =>
    rw [FileTree.walk] at hwalk ⊢
    split at hwalk
    · rename_i hdot
      rw [if_pos hdot]
      exact ih hwalk
    · rename_i hdot
      rw [if_neg hdot]
      split at hwalk
      · rename_i hup
        rw [if_pos hup]
        exact ih hwalk
      · rename_i hup
        rw [if_neg hup]
        split at hwalk
        · cases hwalk
        · rename_i hlong
          rw [if_neg hlong]
          split at hwalk
          · rename_i hfind
            rw [h _ hfind]
            exact ih hwalk
          · cases hwalk
          · cases hwalk

/-! ## What a path points at -/

/-- The target of a path that names something in a directory. -/
theorem FileTree.targetOf_concat {t : FileTree} {above : List String} {last : String}
    {slash : Bool} {target : FileTree.Target}
    (h : t.targetOf (above ++ [last]) slash = .ok target) :
    (∃ place, target = .directory place) ∨
      ∃ place, t.walk [] above = .ok place ∧ target = .name place last slash := by
  unfold FileTree.targetOf at h
  rw [List.getLast?_concat] at h
  dsimp only at h
  split at h
  · cases hwalk : t.walk [] (above ++ [last]) with
    | error e =>
      rw [hwalk] at h
      cases h
    | ok place =>
      rw [hwalk] at h
      exact .inl ⟨place, (Except.ok.inj h).symm⟩
  · rw [List.dropLast_concat] at h
    split at h
    · cases h
    · rename_i place hwalk
      split at h
      · cases h
      · exact .inr ⟨place, hwalk, (Except.ok.inj h).symm⟩

/-- What a path points at, its parts given. -/
theorem FileTree.targetOf_of_target {t : FileTree} {path : String} {target : FileTree.Target}
    (h : t.target path = .ok target) :
    t.targetOf ((FilePath.parts path).filter (· ≠ ""))
      ((FilePath.parts path).getLast? == some "") = .ok target := by
  unfold FileTree.target at h
  split at h
  · cases h
  · split at h
    · cases h
    · split at h
      · cases h
      · exact h

theorem FileTree.targetOf_of_grows {t u : FileTree} (h : t.Grows u) {parts : List String}
    {slash : Bool} {target : FileTree.Target} (ht : t.targetOf parts slash = .ok target) :
    u.targetOf parts slash = .ok target := by
  unfold FileTree.targetOf at ht ⊢
  split at ht
  · exact ht
  · rename_i last hlast
    split at ht
    · rename_i hdots
      rw [if_pos hdots]
      cases hwalk : t.walk [] parts with
      | error e =>
        rw [hwalk] at ht
        cases ht
      | ok place =>
        rw [hwalk] at ht
        rw [FileTree.walk_of_grows h hwalk]
        exact ht
    · rename_i hdots
      rw [if_neg hdots]
      split at ht
      · cases ht
      · rename_i place hwalk
        rw [FileTree.walk_of_grows h hwalk]
        exact ht

/-- What a path points at stays what it points at. -/
theorem FileTree.target_of_grows {t u : FileTree} (h : t.Grows u) {path : String}
    {target : FileTree.Target} (ht : t.target path = .ok target) : u.target path = .ok target := by
  unfold FileTree.target at ht ⊢
  split at ht
  · cases ht
  · rename_i hnul
    rw [if_neg hnul]
    split at ht
    · cases ht
    · rename_i hempty
      rw [if_neg hempty]
      split at ht
      · cases ht
      · rename_i hlong
        rw [if_neg hlong]
        exact FileTree.targetOf_of_grows h ht

/-- A path with no slash after it points at its last part. -/
theorem FileTree.target_name {t : FileTree} {path name : String} {place : Place}
    (h : t.target path = .ok (.name place name false)) :
    t.walk [] (FilePath.above path) = .ok place ∧ name = FilePath.last path := by
  have htarget := FileTree.targetOf_of_target h
  have hlast : (FilePath.parts path).getLast? = some (FilePath.last path) := by
    rw [FilePath.parts_eq, List.getLast?_concat]
  rw [hlast] at htarget
  by_cases hslash : FilePath.last path = ""
  · -- a slash at the end is told with the target
    rw [hslash] at htarget
    unfold FileTree.targetOf at htarget
    split at htarget
    · cases htarget
    · split at htarget
      · cases hwalk : t.walk [] ((FilePath.parts path).filter (· ≠ "")) with
        | error e =>
          rw [hwalk] at htarget
          cases htarget
        | ok place' =>
          rw [hwalk] at htarget
          cases htarget
      · split at htarget
        · cases htarget
        · split at htarget
          · cases htarget
          · cases htarget
  · rw [FilePath.parts_eq, List.filter_append, List.filter_cons_of_pos (by simpa using hslash),
      List.filter_nil] at htarget
    obtain ⟨place', heq⟩ | ⟨place', hwalk, heq⟩ := FileTree.targetOf_concat htarget
    · cases heq
    · obtain ⟨rfl, rfl, -⟩ := FileTree.Target.name.inj heq
      exact ⟨hwalk, rfl⟩

/-- A path with an ending behind it points into the same directory. -/
theorem FileTree.target_append {t : FileTree} {path ending : String} {target : FileTree.Target}
    (hending : '/' ∉ ending.toList) (hlong : 2 < ending.length)
    (h : t.target (path ++ ending) = .ok target) :
    ∃ place, t.walk [] (FilePath.above path) = .ok place ∧
      target = .name place (FilePath.last path ++ ending) false := by
  have htarget := FileTree.targetOf_of_target h
  -- the last part is too long for one of the parts that name no entry
  have hlength : 2 < (FilePath.last path ++ ending).length := by
    rw [String.length_append]
    omega
  have hne : ∀ short : String, short.length ≤ 2 → FilePath.last path ++ ending ≠ short := by
    intro short hshort heq
    rw [heq] at hlength
    omega
  have hkept : [FilePath.last path ++ ending].filter (· ≠ "") = [FilePath.last path ++ ending] :=
    List.filter_cons_of_pos (decide_eq_true (hne "" (by decide)))
  rw [FilePath.parts_append hending, List.getLast?_concat, List.filter_append, hkept] at htarget
  unfold FileTree.targetOf at htarget
  rw [List.getLast?_concat, List.dropLast_concat] at htarget
  dsimp only at htarget
  rw [if_neg (not_or.2 ⟨hne "." (by decide), hne ".." (by decide)⟩)] at htarget
  split at htarget
  · cases htarget
  · rename_i place hwalk
    split at htarget
    · cases htarget
    · have hslash : (some (FilePath.last path ++ ending) == some "") = false := by
        simpa using hne "" (by decide)
      rw [hslash] at htarget
      exact ⟨place, hwalk, (Except.ok.inj htarget).symm⟩

end Courier
