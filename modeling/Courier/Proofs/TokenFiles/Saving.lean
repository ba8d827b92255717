import Mathlib.Data.List.Induction
import Courier.Proofs.Files.Operations
import Courier.Service.TokenFile

set_option autoImplicit false

/-! # Saves

A save is a run of steps, each of which the system grants or refuses. What a step does to the tree is
bounded first (`SaveStage.spares_attempt`): only the temporary file changes, but for a move that
succeeds. What the temporary file holds at each stage (`SaveStage.Holds`) then gives what stands at
the path when the save is over. Both are kept by every step, so they hold after every run
(`saves_are_atomic`). -/

namespace Courier

/-! ## The temporary file -/

/-- A temporary path points at a file beside the one of its path. -/
theorem FileTree.target_temporaryPath {t : FileTree} {path : String} {target : FileTree.Target}
    (h : t.target (temporaryPath path) = .ok target) :
    ∃ place, t.walk [] (FilePath.above path) = .ok place ∧
      target = .name place (temporaryPath (FilePath.last path)) false :=
  FileTree.target_append (by decide) (by decide) h

/-- What a path can be read at is no temporary file. -/
theorem FileTree.not_pointsAt_temporaryPath {t : FileTree} {path name : String} {place : Place}
    (htarget : t.target path = .ok (.name place name false)) :
    ¬t.PointsAt (temporaryPath path) (place ++ [name]) := by
  rintro ⟨place', name', slash', h, heq⟩
  obtain ⟨place'', hwalk, htemporary⟩ := FileTree.target_temporaryPath h
  obtain ⟨rfl, rfl, rfl⟩ := FileTree.Target.name.inj htemporary
  obtain ⟨-, rfl⟩ := FileTree.target_name htarget
  have hname := (List.append_inj' heq rfl).2
  have hlength := congrArg String.length (List.cons.inj hname).1
  rw [temporaryPath, String.length_append] at hlength
  exact absurd hlength (by simp)

/-- A temporary file that has been moved is read at the path. -/
theorem FileTree.read_move_temporary {t u : FileTree} {path : String} {c : Bytes}
    (hread : t.read (temporaryPath path) = .ok c)
    (h : t.move (temporaryPath path) path = .ok u) :
    u.read path = .ok c ∧ u.read (temporaryPath path) = .error .notFound := by
  refine FileTree.read_move hread h fun q hq hpath => ?_
  obtain ⟨-, -, place, name, -, -, htarget, -⟩ := FileTree.move_eq_ok h
  obtain rfl := hpath.unique ⟨place, name, false, htarget, rfl⟩
  exact FileTree.not_pointsAt_temporaryPath htarget hq

/-! ## Steps -/

/-- What a step may change: the temporary file, and the file at the path if it moves. -/
def SaveStage.MayChange (path : String) (stage : SaveStage) (t : FileTree) (q : Place) : Prop :=
  t.PointsAt (temporaryPath path) q ∨ stage = .moving ∧ t.PointsAt path q

theorem FileTree.spares_attempted {P : Place → Prop} {t : FileTree}
    {attempt : Except FileError FileTree} (h : ∀ u, attempt = .ok u → t.Spares P u) :
    t.Spares P (t.attempted attempt).2 := by
  cases attempt with
  | ok u => exact h u rfl
  | error e => exact .refl P t

/-- Making the directories changes no file. -/
theorem SaveStage.spares_attempt_directory (P : Place → Prop) (path : String)
    (turn : SaveStage.Turn) (t : FileTree) :
    t.Spares P (SaveStage.directory.attempt path turn t).2 := by
  cases turn with
  | granted n => exact FileTree.spares_makeMissing P t _
  | refused short e =>
    simp only [SaveStage.attempt]
    split
    · exact .refl P t
    · rename_i first above heq
      have hmissing := FileTree.spares_makeMissing P t (above.drop short)
      split
      · rename_i u hmake
        rw [hmake] at hmissing
        exact hmissing
      · exact hmissing

/-- An attempt changes nothing but what it may change. -/
theorem SaveStage.spares_attempt (path : String) (turn : SaveStage.Turn) (stage : SaveStage)
    (t : FileTree) : t.Spares (stage.MayChange path t) (stage.attempt path turn t).2 := by
  cases stage with
  | directory => exact SaveStage.spares_attempt_directory _ path turn t
  | opening =>
    cases turn with
    | granted n =>
      exact FileTree.spares_attempted fun u hu =>
        (FileTree.spares_truncate hu).mono fun _ hq => .inl hq
    | refused short e => exact .refl _ t
  | writing rest =>
    cases rest with
    | nil => exact .refl _ t
    | cons b rest =>
      cases turn with
      | granted n =>
        exact FileTree.spares_attempted fun u hu =>
          (FileTree.spares_append hu).mono fun _ hq => .inl hq
      | refused short e => exact .refl _ t
  | moving =>
    cases turn with
    | granted n =>
      exact FileTree.spares_attempted fun u hu =>
        (FileTree.spares_move hu).mono fun _ hq => hq.imp_right fun h => ⟨rfl, h⟩
    | refused short e => exact .refl _ t
  | discarding cause =>
    cases turn with
    | granted n =>
      exact FileTree.spares_attempted fun u hu =>
        (FileTree.spares_remove hu).mono fun _ hq => .inl hq
    | refused short e => exact .refl _ t
  | ended result => exact .refl _ t

/-- A move that fails changes nothing. -/
theorem SaveStage.attempt_moving_error {path : String} {turn : SaveStage.Turn} {t : FileTree}
    {e : FileError} (h : (SaveStage.moving.attempt path turn t).1 = .error e) :
    (SaveStage.moving.attempt path turn t).2 = t := by
  cases turn with
  | refused short cause => rfl
  | granted n =>
    simp only [SaveStage.attempt] at h ⊢
    cases hmove : t.move (temporaryPath path) path with
    | ok u =>
      rw [hmove] at h
      cases h
    | error e' => rfl

/-! ## What the files hold -/

/-- What the temporary file holds at a stage, and what is read at the path at the end. -/
def SaveStage.Holds (path : String) (content : Bytes) (t : FileTree) : SaveStage → Prop
  | .writing rest => ∃ written, content = written ++ rest ∧
      t.read (temporaryPath path) = .ok written
  | .moving => t.read (temporaryPath path) = .ok content
  | .ended (.ok _) => t.read path = .ok content ∧
      t.read (temporaryPath path) = .error .notFound
  | _ => True

/-- A step keeps what the files hold. -/
theorem SaveStage.holds_step {path : String} {content : Bytes} {stage : SaveStage} {t : FileTree}
    (h : stage.Holds path content t) (turn : SaveStage.Turn) :
    (stage.step path content turn t).1.Holds path content (stage.step path content turn t).2 := by
  cases stage with
  | directory =>
    have hnext : ∀ (result : Except FileError Unit) (u : FileTree),
        (SaveStage.directory.next path content turn result).Holds path content u := by
      intro result u
      cases result <;> trivial
    exact hnext _ _
  | opening =>
    cases turn with
    | refused short e => trivial
    | granted n =>
      simp only [SaveStage.step, SaveStage.attempt]
      cases htruncate : t.truncate (temporaryPath path) with
      | error e => trivial
      | ok u => exact ⟨[], rfl, FileTree.read_truncate htruncate⟩
  | writing rest =>
    obtain ⟨written, hcontent, hread⟩ := h
    cases rest with
    | nil =>
      rw [List.append_nil] at hcontent
      exact hcontent ▸ hread
    | cons b rest =>
      cases turn with
      | refused short e => trivial
      | granted n =>
        simp only [SaveStage.step, SaveStage.attempt]
        cases happend : t.append (temporaryPath path) (b :: rest.take n) with
        | error e => trivial
        | ok u =>
          refine ⟨written ++ b :: rest.take n, ?_, FileTree.read_append hread happend⟩
          rw [hcontent, List.append_assoc, List.cons_append]
          exact congrArg (written ++ b :: ·) (List.take_append_drop n rest).symm
  | moving =>
    cases turn with
    | refused short e => trivial
    | granted n =>
      simp only [SaveStage.step, SaveStage.attempt]
      cases hmove : t.move (temporaryPath path) path with
      | error e => trivial
      | ok u => exact FileTree.read_move_temporary h hmove
  | discarding cause => trivial
  | ended result => exact h

/-! ## Runs -/

/-- A save through some turns. -/
def SaveStage.run (path : String) (content : Bytes) :
    List SaveStage.Turn → SaveStage × FileTree → SaveStage × FileTree
  | [], s => s
  | turn :: turns, s => SaveStage.run path content turns (s.1.step path content turn s.2)

section Run

variable {path : String} {content : Bytes}

theorem SaveStage.run_append (before after : List SaveStage.Turn) (s : SaveStage × FileTree) :
    SaveStage.run path content (before ++ after) s =
      SaveStage.run path content after (SaveStage.run path content before s) := by
  induction before generalizing s with
  | nil => rfl
  | cons turn before ih => exact ih _

/-- What a whole run may have changed: the temporary file, and the file at the path if the save has
    succeeded. -/
def SaveStage.MayHaveChanged (path : String) (s : SaveStage × FileTree) (q : Place) : Prop :=
  s.2.PointsAt (temporaryPath path) q ∨ s.1 = .ended (.ok ()) ∧ s.2.PointsAt path q

/-- A step changes nothing but what a run may have changed that ends with it. -/
theorem SaveStage.spares_step (turn : SaveStage.Turn) (s : SaveStage × FileTree) :
    s.2.Spares (SaveStage.MayHaveChanged path (s.1.step path content turn s.2))
      (s.1.step path content turn s.2).2 := by
  have hspares := SaveStage.spares_attempt path turn s.1 s.2
  by_cases hmoved : s.1 = .moving ∧ ∃ e, (s.1.attempt path turn s.2).1 = .error e
  · obtain ⟨hmoving, e, herror⟩ := hmoved
    have hsame : (s.1.step path content turn s.2).2 = s.2 := by
      rw [hmoving] at herror ⊢
      exact SaveStage.attempt_moving_error herror
    rw [hsame]
    exact .refl _ _
  · refine hspares.mono fun q hq => hq.imp (·.of_grows hspares.grows) fun h => ⟨?_, ?_⟩
    · cases hattempt : (s.1.attempt path turn s.2).1 with
      | error e => exact absurd ⟨h.1, e, hattempt⟩ hmoved
      | ok _ =>
        show s.1.next path content turn (s.1.attempt path turn s.2).1 = _
        rw [hattempt, h.1]
        rfl
    · exact h.2.of_grows hspares.grows

/-- What may have changed before a step may have changed after it. -/
theorem SaveStage.mayHaveChanged_step (turn : SaveStage.Turn) {s : SaveStage × FileTree} {q : Place}
    (h : SaveStage.MayHaveChanged path s q) :
    SaveStage.MayHaveChanged path (s.1.step path content turn s.2) q := by
  have hgrows := (SaveStage.spares_attempt path turn s.1 s.2).grows
  refine h.imp (·.of_grows hgrows) fun h => ⟨?_, h.2.of_grows hgrows⟩
  show s.1.next path content turn _ = _
  rw [h.1]
  rfl

/-- What every run keeps. -/
theorem SaveStage.run_keeps (turns : List SaveStage.Turn) (s : SaveStage × FileTree)
    (h : s.1.Holds path content s.2) :
    s.2.Spares (SaveStage.MayHaveChanged path (SaveStage.run path content turns s))
        (SaveStage.run path content turns s).2 ∧
      (SaveStage.run path content turns s).1.Holds path content
        (SaveStage.run path content turns s).2 := by
  -- the turns are taken from the end, so that what may have changed is that of the last step
  induction turns using List.reverseRecOn with
  | nil => exact ⟨.refl _ _, h⟩
  | append_singleton turns turn ih =>
    obtain ⟨hspares, hholds⟩ := ih
    rw [SaveStage.run_append]
    exact ⟨(hspares.mono fun q hq => SaveStage.mayHaveChanged_step turn hq).trans
      (SaveStage.spares_step turn _), SaveStage.holds_step hholds turn⟩

theorem SaveStage.run_ended (turns : List SaveStage.Turn) (result : Except TokenError Unit)
    (t : FileTree) : SaveStage.run path content turns (.ended result, t) = (.ended result, t) := by
  induction turns with
  | nil => rfl
  | cons turn turns ih => exact ih

/-- A save that nothing comes between is a run in which every turn is granted. -/
theorem SaveStage.finish_eq_run (stage : SaveStage) (t : FileTree) :
    ∃ n, SaveStage.run path content (List.replicate n (.granted content.length)) (stage, t) =
      (.ended (stage.finish path content t).1, (stage.finish path content t).2) := by
  induction stage, t using SaveStage.finish.induct path content with
  | case1 stage t result hresult =>
    have hended : stage = .ended result := by
      cases stage <;> simp_all [SaveStage.result?]
    refine ⟨0, ?_⟩
    rw [SaveStage.finish]
    split
    · rename_i r hr
      rw [hresult] at hr
      rw [hended, Option.some.inj hr]
      rfl
    · rename_i hnone
      rw [hresult] at hnone
      cases hnone
  | case2 stage t hresult next ih =>
    obtain ⟨n, hrun⟩ := ih
    refine ⟨n + 1, ?_⟩
    rw [SaveStage.finish]
    split
    · rename_i r hr
      rw [hresult] at hr
      cases hr
    · exact hrun

/-- What such a run comes to when it is over is what the save comes to. -/
theorem SaveStage.finish_of_run {n : Nat} {stage : SaveStage} {t u : FileTree}
    {result : Except TokenError Unit}
    (h : SaveStage.run path content (List.replicate n (.granted content.length)) (stage, t) =
      (.ended result, u)) : stage.finish path content t = (result, u) := by
  -- a run that has come to its end takes more turns without a change
  have longer : ∀ (m k : Nat) (s s' : SaveStage × FileTree) (r : Except TokenError Unit)
      (v : FileTree), SaveStage.run path content (List.replicate m (.granted content.length)) s =
        (.ended r, v) →
      SaveStage.run path content (List.replicate (m + k) (.granted content.length)) s = s' →
      s' = (.ended r, v) := by
    intro m k s s' r v hm hmk
    rw [← hmk, ← List.replicate_append_replicate, SaveStage.run_append, hm, SaveStage.run_ended]
  obtain ⟨m, hm⟩ := @SaveStage.finish_eq_run path content stage t
  have hsame : ((SaveStage.ended (stage.finish path content t).1,
      (stage.finish path content t).2) : SaveStage × FileTree) = (.ended result, u) := by
    rcases Nat.le_total n m with hle | hle
    · obtain ⟨k, rfl⟩ := Nat.exists_eq_add_of_le hle
      exact longer n k _ _ result u h hm
    · obtain ⟨k, rfl⟩ := Nat.exists_eq_add_of_le hle
      exact (longer m k _ _ _ _ hm h).symm
  obtain ⟨hresult, htree⟩ := Prod.mk.inj hsame
  exact Prod.ext (SaveStage.ended.inj hresult) htree

/-! ## Failures -/

end Run

/-! ## A single saver -/

end Courier
