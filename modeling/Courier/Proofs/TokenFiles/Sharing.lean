import Courier.Proofs.TokenFiles.Saving

set_option autoImplicit false

/-! # Savers that share a path

Several savers save to one path, a step of one between any two steps of another, and anyone may load
what stands at the path at any time. All of them use one temporary file. A saver that opens it while
another writes it, or is about to move it, empties what the other has written; the other then moves
less than a text to the path, and that is loaded (`not_loads_are_whole`).

Where no saver does that, every file but the temporary one is always a whole text
(`orderly_loads_are_whole`). What carries this is `Savers.Sound`: at most one saver means to move
the temporary file, and what the file holds, if it is there, is what that saver has written. -/

namespace Courier

/-! ## The temporary file of a saver -/

/-- The octets that the temporary file still lacks, if a save means to move it. -/
def SaveStage.lacking? : SaveStage → Option Bytes
  | .writing rest => some rest
  | .moving => some []
  | _ => none

/-- Whether the temporary file, if it is there, holds some content but for the octets at its end. -/
def FileTree.Lacks (t : FileTree) (path : String) (content rest : Bytes) : Prop :=
  ∃ q, t.PointsAt (temporaryPath path) q ∧
    ∀ c, t.find? q = some (.file c) → c ++ rest = content

section Step

variable {path : String} {content rest : Bytes} {stage : SaveStage} {t u : FileTree}

/-- What a file lacks it lacks still where no file has been added or changed. -/
theorem FileTree.Lacks.of_grows (h : t.Lacks path content rest) (hgrows : t.Grows u)
    (hfiles : ∀ q c, u.find? q = some (.file c) → t.find? q = some (.file c)) :
    u.Lacks path content rest := by
  obtain ⟨q, hq, hlacks⟩ := h
  exact ⟨q, hq.of_grows hgrows, fun c hc => hlacks c (hfiles q c hc)⟩

theorem FileTree.lacks_truncate (h : t.truncate (temporaryPath path) = .ok u) :
    u.Lacks path content content := by
  have hgrows := (FileTree.spares_truncate h).grows
  obtain ⟨place, name, htarget, -, rfl⟩ := FileTree.truncate_eq_ok h
  refine ⟨_, ⟨place, name, false, FileTree.target_of_grows hgrows htarget, rfl⟩, fun c hc => ?_⟩
  rw [FileTree.find?_put_self] at hc
  obtain rfl : [] = c := by simpa using hc
  exact List.nil_append content

theorem FileTree.lacks_append {more : Bytes} (hlacks : t.Lacks path content (more ++ rest))
    (h : t.append (temporaryPath path) more = .ok u) : u.Lacks path content rest := by
  have hgrows := (FileTree.spares_append h).grows
  obtain ⟨q, hq, hlacks⟩ := hlacks
  obtain ⟨place, name, htarget, -, happended⟩ := FileTree.append_eq_ok h
  obtain rfl := hq.unique ⟨place, name, false, htarget, rfl⟩
  refine ⟨_, hq.of_grows hgrows, fun c hc => ?_⟩
  obtain ⟨c', hc', rfl⟩ | ⟨hnone, rfl⟩ := happended
  · rw [FileTree.find?_put_self] at hc
    obtain rfl : c' ++ more = c := by simpa using hc
    rw [List.append_assoc]
    exact hlacks c' hc'
  · rw [hnone] at hc
    cases hc

/-- A saver means to move the temporary file from when it opens it. -/
theorem SaveStage.lacking?_next {turn : SaveStage.Turn} {result : Except FileError Unit}
    (h : (stage.next path content turn result).lacking? ≠ none) :
    stage = .opening ∨ ∃ left, stage = .writing left := by
  cases stage with
  | opening => exact .inl rfl
  | writing left => exact .inr ⟨left, rfl⟩
  | directory | moving => cases result <;> exact absurd rfl h
  | discarding cause => exact absurd rfl h
  | ended r => exact absurd rfl h

/-- A step of a saver keeps what its own temporary file lacks. -/
theorem SaveStage.lacks_step (turn : SaveStage.Turn)
    (h : ∀ rest, stage.lacking? = some rest → t.Lacks path content rest)
    (hrest : (stage.step path content turn t).1.lacking? = some rest) :
    (stage.step path content turn t).2.Lacks path content rest := by
  obtain rfl | ⟨left, rfl⟩ :=
    SaveStage.lacking?_next (ne_of_eq_of_ne hrest (Option.some_ne_none rest))
  · cases turn with
    | refused short e => cases hrest
    | granted n =>
      simp only [SaveStage.step, SaveStage.attempt] at hrest ⊢
      cases htruncate : t.truncate (temporaryPath path) with
      | error e =>
        rw [htruncate] at hrest
        cases hrest
      | ok u =>
        rw [htruncate] at hrest
        obtain rfl : content = rest := Option.some.inj hrest
        exact FileTree.lacks_truncate htruncate
  · cases left with
    | nil => exact h rest hrest
    | cons b left =>
      cases turn with
      | refused short e => cases hrest
      | granted n =>
        simp only [SaveStage.step, SaveStage.attempt] at hrest ⊢
        cases happend : t.append (temporaryPath path) (b :: left.take n) with
        | error e =>
          rw [happend] at hrest
          cases hrest
        | ok u =>
          rw [happend] at hrest
          obtain rfl : left.drop n = rest := Option.some.inj hrest
          refine FileTree.lacks_append ?_ happend
          rw [List.cons_append, List.take_append_drop]
          exact h _ rfl

/-- A saver that neither opens the temporary file nor means to move it adds no file, and changes
    none. -/
theorem SaveStage.file_of_attempt_idle (turn : SaveStage.Turn) (hopening : stage ≠ .opening)
    (hnone : stage.lacking? = none) {q : Place} {c : Bytes}
    (h : (stage.attempt path turn t).2.find? q = some (.file c)) : t.find? q = some (.file c) := by
  cases stage with
  | opening => exact absurd rfl hopening
  | writing rest => cases hnone
  | moving => cases hnone
  | ended result => exact h
  | directory =>
    have hspares := SaveStage.spares_attempt_directory (fun _ => False) path turn t
    exact (hspares.files q not_false c).2 h
  | discarding cause =>
    cases turn with
    | refused short e => exact h
    | granted n =>
      simp only [SaveStage.attempt] at h
      cases hremove : t.remove (temporaryPath path) with
      | error e =>
        rw [hremove] at h
        exact h
      | ok u =>
        rw [hremove] at h
        obtain ⟨place, name, -, -, -, rfl⟩ := FileTree.remove_eq_ok hremove
        have hne : q ≠ place ++ [name] := by
          rintro rfl
          exact absurd (FileTree.find?_erase_self.symm.trans h) (Option.some_ne_none _).symm
        exact (FileTree.find?_erase_of_ne hne).symm.trans h

/-- A file that an attempt leaves stood there before, or is the temporary file, or has been moved
    from there. -/
theorem SaveStage.file_of_attempt (turn : SaveStage.Turn) {q : Place} {c : Bytes}
    (h : (stage.attempt path turn t).2.find? q = some (.file c)) :
    t.find? q = some (.file c) ∨ t.PointsAt (temporaryPath path) q ∨
      stage = .moving ∧ ∃ q', t.PointsAt (temporaryPath path) q' ∧ t.find? q' = some (.file c) := by
  by_cases hq : stage.MayChange path t q
  · obtain htemporary | ⟨rfl, hpath⟩ := hq
    · exact .inr (.inl htemporary)
    · cases turn with
      | refused short e => exact .inl h
      | granted n =>
        simp only [SaveStage.attempt] at h
        cases hmove : t.move (temporaryPath path) path with
        | error e =>
          rw [hmove] at h
          exact .inl h
        | ok u =>
          rw [hmove] at h
          obtain ⟨place, name, place', name', c', hsource, htarget, hfind, -, rfl⟩ :=
            FileTree.move_eq_ok hmove
          obtain rfl := hpath.unique ⟨place', name', false, htarget, rfl⟩
          obtain rfl : c' = c := by
            simpa using (FileTree.find?_put_self (.file c')).symm.trans h
          exact .inr (.inr ⟨rfl, _, ⟨place, name, false, hsource, rfl⟩, hfind⟩)
  · exact .inl (((SaveStage.spares_attempt path turn stage t).files q hq c).2 h)

/-- A file at the path stays as it is but for a move that succeeds. -/
theorem SaveStage.read_of_attempt (stage : SaveStage) (turn : SaveStage.Turn) {c : Bytes}
    (hread : t.read path = .ok c) :
    (stage.attempt path turn t).2.read path = .ok c ∨
      stage = .moving ∧ (stage.attempt path turn t).1 = .ok () := by
  by_cases hmoving : stage = .moving
  · subst hmoving
    cases hattempt : (SaveStage.moving.attempt path turn t).1 with
    | ok _ => exact .inr ⟨rfl, rfl⟩
    | error e =>
      rw [SaveStage.attempt_moving_error hattempt]
      exact .inl hread
  · have hspares := SaveStage.spares_attempt path turn stage t
    refine .inl (hspares.read (fun place name htarget hchange => ?_) hread)
    obtain htemporary | ⟨hmoves, -⟩ := hchange
    · exact FileTree.not_pointsAt_temporaryPath htarget (htemporary.of_grows hspares.grows)
    · exact hmoving hmoves

/-- A move that succeeds brings the temporary file to the path. -/
theorem SaveStage.read_moved {turn : SaveStage.Turn}
    (h : (SaveStage.moving.attempt path turn t).1 = .ok ()) (hlacks : t.Lacks path content []) :
    (SaveStage.moving.attempt path turn t).2.read path = .ok content := by
  cases turn with
  | refused short e => cases h
  | granted n =>
    simp only [SaveStage.attempt] at h ⊢
    cases hmove : t.move (temporaryPath path) path with
    | error e =>
      rw [hmove] at h
      cases h
    | ok u =>
      obtain ⟨place, name, -, -, c, hsource, -, hfind, -⟩ := FileTree.move_eq_ok hmove
      obtain ⟨q, hq, hlacks⟩ := hlacks
      obtain rfl := hq.unique ⟨place, name, false, hsource, rfl⟩
      obtain rfl : c = content := (List.append_nil c).symm.trans (hlacks c hfind)
      exact (FileTree.read_move_temporary
        (FileTree.read_eq_ok_iff.2 ⟨place, name, hsource, hfind⟩) hmove).1

/-- A save succeeds with a move that succeeds. -/
theorem SaveStage.eq_of_next_eq_ok {turn : SaveStage.Turn} {result : Except FileError Unit}
    (h : stage.next path content turn result = .ended (.ok ())) :
    stage = .ended (.ok ()) ∨ stage = .moving ∧ result = .ok () := by
  cases stage with
  | ended r => exact .inl h
  | discarding cause => cases h
  | directory | opening => cases result <;> cases h
  | writing rest => cases rest <;> cases result <;> cases h
  | moving =>
    cases result with
    | ok _ => exact .inr ⟨rfl, rfl⟩
    | error e => cases h

end Step

/-! ## Savers -/

/-- How far each of some savers has come, and the tree that they share. -/
structure Savers (ι : Type) where
  stage : ι → SaveStage
  tree : FileTree

variable {ι : Type}

/-- Savers that have not begun. -/
def Savers.start (t : FileTree) : Savers ι := ⟨fun _ => .directory, t⟩

/-- Whether a saver that is about to open the temporary file would be the only one that means to
    move it. -/
def Savers.MayStep (saver : ι) (s : Savers ι) : Prop :=
  match s.stage saver with
  | .opening => ∀ other, other ≠ saver → (s.stage other).lacking? = none
  | _ => True

theorem Savers.MayStep.lacking? {saver other : ι} {s : Savers ι} (h : s.MayStep saver)
    (hopening : s.stage saver = .opening) (hne : other ≠ saver) :
    (s.stage other).lacking? = none := by
  unfold Savers.MayStep at h
  rw [hopening] at h
  exact h other hne

/-- What orderly savers keep, from a tree on. -/
structure Savers.Sound (path : String) (content : ι → Bytes) (t : FileTree) (s : Savers ι) :
    Prop where
  whole : ∀ q c, s.tree.find? q = some (.file c) → ¬s.tree.PointsAt (temporaryPath path) q →
    t.find? q = some (.file c) ∨ ∃ saver, c = content saver
  written : ∀ saver rest, (s.stage saver).lacking? = some rest →
    s.tree.Lacks path (content saver) rest
  alone : ∀ saver other, (s.stage saver).lacking? ≠ none → (s.stage other).lacking? ≠ none →
    saver = other
  arrived : ∀ saver, s.stage saver = .ended (.ok ()) →
    ∃ other, s.tree.read path = .ok (content other)

theorem Savers.sound_start (path : String) (content : ι → Bytes) (t : FileTree) :
    Savers.Sound path content t (Savers.start t) where
  whole _ _ hfind _ := .inl hfind
  written _ rest h := absurd h (Option.some_ne_none rest).symm
  alone _ _ h _ := absurd rfl h
  arrived _ h := absurd h (by simp [Savers.start])

section Runs

variable [DecidableEq ι] (path : String) (content : ι → Bytes)

/-- A step of one of the savers. -/
def Savers.step (saver : ι) (turn : SaveStage.Turn) (s : Savers ι) : Savers ι :=
  let next := (s.stage saver).step path (content saver) turn s.tree
  ⟨fun other => if other = saver then next.1 else s.stage other, next.2⟩

/-- The savers through some steps, each of one of them. -/
def Savers.run : List (ι × SaveStage.Turn) → Savers ι → Savers ι
  | [], s => s
  | move :: moves, s => Savers.run moves (s.step path content move.1 move.2)

/-- Whether no saver opens the temporary file while another writes it or is about to move it. -/
def Savers.Orderly : List (ι × SaveStage.Turn) → Savers ι → Prop
  | [], _ => True
  | move :: moves, s => s.MayStep move.1 ∧ Savers.Orderly moves (s.step path content move.1 move.2)

variable {path content}

theorem Savers.stage_step_self (saver : ι) (turn : SaveStage.Turn) (s : Savers ι) :
    (s.step path content saver turn).stage saver =
      ((s.stage saver).step path (content saver) turn s.tree).1 := if_pos rfl

theorem Savers.stage_step_of_ne {saver other : ι} (h : other ≠ saver) (turn : SaveStage.Turn)
    (s : Savers ι) : (s.step path content saver turn).stage other = s.stage other := if_neg h

/-- A saver that means to move the temporary file after a step meant to before, or has just opened
    it. -/
theorem Savers.lacking?_step {saver other : ι} {turn : SaveStage.Turn} {s : Savers ι}
    (h : ((s.step path content saver turn).stage other).lacking? ≠ none) :
    (s.stage other).lacking? ≠ none ∨ other = saver ∧ s.stage saver = .opening := by
  by_cases hne : other = saver
  · subst hne
    rw [Savers.stage_step_self] at h
    obtain hopening | ⟨left, hwriting⟩ := SaveStage.lacking?_next h
    · exact .inr ⟨rfl, hopening⟩
    · rw [hwriting]
      exact .inl (Option.some_ne_none left)
  · rw [Savers.stage_step_of_ne hne] at h
    exact .inl h

/-- A saver that has succeeded after a step had succeeded before, or has just moved the temporary
    file. -/
theorem Savers.succeeded_step {saver other : ι} {turn : SaveStage.Turn} {s : Savers ι}
    (h : (s.step path content saver turn).stage other = .ended (.ok ())) :
    s.stage other = .ended (.ok ()) ∨
      s.stage saver = .moving ∧ ((s.stage saver).attempt path turn s.tree).1 = .ok () := by
  by_cases hne : other = saver
  · subst hne
    rw [Savers.stage_step_self] at h
    exact SaveStage.eq_of_next_eq_ok h
  · rw [Savers.stage_step_of_ne hne] at h
    exact .inl h

/-- A step that may be taken keeps every file whole. -/
theorem Savers.sound_step {t : FileTree} {s : Savers ι} (h : Savers.Sound path content t s)
    {saver : ι} (hmay : s.MayStep saver) (turn : SaveStage.Turn) :
    Savers.Sound path content t (s.step path content saver turn) where
  whole := by
    intro q c hfind htemporary
    have hnot : ¬s.tree.PointsAt (temporaryPath path) q := fun hq =>
      htemporary (hq.of_grows (SaveStage.spares_attempt path turn (s.stage saver) s.tree).grows)
    obtain hold | hq | ⟨hmoving, q', hq', hmoved⟩ := SaveStage.file_of_attempt turn hfind
    · exact h.whole q c hold hnot
    · exact absurd hq hnot
    · obtain ⟨q'', hq'', hlacks⟩ := h.written saver [] (by rw [hmoving]; rfl)
      obtain rfl := hq'.unique hq''
      exact .inr ⟨saver, (List.append_nil c).symm.trans (hlacks c hmoved)⟩
  written := by
    intro other rest hrest
    by_cases hne : other = saver
    · subst hne
      rw [Savers.stage_step_self] at hrest
      exact SaveStage.lacks_step turn (h.written other) hrest
    · -- the file is that of a saver that does not step, so the one that steps leaves it alone
      rw [Savers.stage_step_of_ne hne] at hrest
      have hother : (s.stage other).lacking? ≠ none := by simp [hrest]
      have hopening : s.stage saver ≠ .opening := fun hopening =>
        hother (hmay.lacking? hopening hne)
      have hnone : (s.stage saver).lacking? = none := by
        by_contra hsaver
        exact hne (h.alone other saver hother hsaver)
      exact (h.written other rest hrest).of_grows
        (SaveStage.spares_attempt path turn (s.stage saver) s.tree).grows fun q c hc =>
          SaveStage.file_of_attempt_idle turn hopening hnone hc
  alone := by
    intro x y hx hy
    obtain hxold | ⟨rfl, hopening⟩ := Savers.lacking?_step hx
    · obtain hyold | ⟨rfl, hopening⟩ := Savers.lacking?_step hy
      · exact h.alone x y hxold hyold
      · by_contra hne
        exact hxold (hmay.lacking? hopening hne)
    · obtain hyold | ⟨rfl, -⟩ := Savers.lacking?_step hy
      · by_contra hne
        exact hyold (hmay.lacking? hopening (Ne.symm hne))
      · rfl
  arrived := by
    intro other hother
    have moved : s.stage saver = .moving →
        ((s.stage saver).attempt path turn s.tree).1 = .ok () →
        (s.step path content saver turn).tree.read path = .ok (content saver) := by
      intro hmoving hattempt
      have hlacks := h.written saver [] (by rw [hmoving]; rfl)
      show ((s.stage saver).attempt path turn s.tree).2.read path = _
      rw [hmoving] at hattempt ⊢
      exact SaveStage.read_moved hattempt hlacks
    obtain hold | ⟨hmoving, hattempt⟩ := Savers.succeeded_step hother
    · obtain ⟨first, hread⟩ := h.arrived other hold
      obtain hkept | ⟨hmoving, hattempt⟩ :=
        (s.stage saver).read_of_attempt turn hread
      · exact ⟨first, hkept⟩
      · exact ⟨saver, moved hmoving hattempt⟩
    · exact ⟨saver, moved hmoving hattempt⟩

theorem Savers.sound_run {t : FileTree} (moves : List (ι × SaveStage.Turn)) {s : Savers ι}
    (h : Savers.Sound path content t s) (horderly : Savers.Orderly path content moves s) :
    Savers.Sound path content t (Savers.run path content moves s) := by
  induction moves generalizing s with
  | nil => exact h
  | cons move moves ih => exact ih (Savers.sound_step h horderly.1 move.2) horderly.2

/-- Where no saver opens the temporary file while another writes it or is about to move it, what is
    read at the path is whole at any time: what stood there at first, or what one of the savers
    saves. Once a saver has succeeded it is what one of them saves. -/
theorem orderly_loads_are_whole (path : String) (token : ι → Token)
    (moves : List (ι × SaveStage.Turn)) (t : FileTree) (s : Savers ι)
    (hrun : Savers.run path (fun saver => (token saver).fileContent) moves (.start t) = s)
    (horderly : Savers.Orderly path (fun saver => (token saver).fileContent) moves (.start t)) :
    (∀ c, s.tree.read path = .ok c →
      (∃ q, s.tree.PointsAt path q ∧ t.find? q = some (.file c)) ∨
        ∃ saver, c = (token saver).fileContent) ∧
    ∀ saver, s.stage saver = .ended (.ok ()) →
      ∃ other, s.tree.read path = .ok (token other).fileContent := by
  have hsound := Savers.sound_run moves (Savers.sound_start path _ t) horderly
  rw [hrun] at hsound
  refine ⟨fun c hread => ?_, hsound.arrived⟩
  obtain ⟨place, name, htarget, hfind⟩ := FileTree.read_eq_ok_iff.1 hread
  refine (hsound.whole _ c hfind (FileTree.not_pointsAt_temporaryPath htarget)).imp_left fun h => ?_
  exact ⟨_, ⟨place, name, false, htarget, rfl⟩, h⟩

end Runs

/-- Two savers, each with a token of its own. -/
def Savers.pair (saver : Bool) : Token :=
  { Token.empty with accessToken := if saver then "a" else "b" }

/-- The second saver opens the temporary file when the first has moved it. -/
def Savers.inTurn : List (Bool × SaveStage.Turn) :=
  [(false, .granted 0), (false, .granted 0), (true, .granted 0), (false, .granted 500),
    (false, .granted 0), (false, .granted 0), (true, .granted 0)]

set_option maxRecDepth 4000 in
/-- Of two savers in turn the file has the token of one when the first is done. -/
theorem orderly_loads_are_whole_inTurn :
    Savers.Orderly "t" (fun saver => (Savers.pair saver).fileContent) Savers.inTurn
        (.start .empty) ∧
      ∃ other, (Savers.run "t" (fun saver => (Savers.pair saver).fileContent) Savers.inTurn
        (.start .empty)).tree.read "t" = .ok (Savers.pair other).fileContent := by
  have horderly : Savers.Orderly "t" (fun saver => (Savers.pair saver).fileContent) Savers.inTurn
      (.start .empty) := by
    refine ⟨trivial, fun other hne => ?_, trivial, trivial, trivial, trivial, fun other hne => ?_,
      trivial⟩
    · cases other with
      | false => exact absurd rfl hne
      | true => rfl
    · cases other with
      | false => rfl
      | true => exact absurd rfl hne
  exact ⟨horderly, (orderly_loads_are_whole "t" Savers.pair Savers.inTurn .empty _ rfl horderly).2
    false (by rfl)⟩

/-- The second saver opens the temporary file when the first is about to move it. -/
def Savers.outOfTurn : List (Bool × SaveStage.Turn) :=
  [(false, .granted 0), (false, .granted 0), (false, .granted 500), (false, .granted 0),
    (true, .granted 0), (true, .granted 0), (false, .granted 0)]

set_option maxRecDepth 4000 in
/-- Of two savers the first moves a file that the second has just emptied. -/
theorem not_loads_are_whole :
    ¬∀ (path : String) (token : Bool → Token) (moves : List (Bool × SaveStage.Turn)) (t : FileTree)
      (c : Bytes),
      (Savers.run path (fun saver => (token saver).fileContent) moves (.start t)).tree.read path =
        .ok c →
      t.read path = .ok c ∨ ∃ saver, c = (token saver).fileContent := by
  intro h
  obtain hbefore | ⟨saver, hsaved⟩ :=
    h "t" Savers.pair Savers.outOfTurn .empty [] (by rfl)
  · cases hbefore
  · have hlength : 0 = (Savers.pair saver).fileContent.length := congrArg List.length hsaved
    cases saver with
    | false => exact absurd hlength (Nat.succ_ne_zero _).symm
    | true => exact absurd hlength (Nat.succ_ne_zero _).symm

end Courier
