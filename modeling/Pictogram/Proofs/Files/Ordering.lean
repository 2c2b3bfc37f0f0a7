import Mathlib.Data.List.Perm.Basic
import Pictogram.Command.Plan
import Pictogram.Proofs.Files.Following

/-!
The order in which files are listed. Paths are compared step by step, so that two of them may stand
in either order only if they have the same steps. No two files of a tree are found by such paths,
and so their list is the same in whatever order they are found.
-/

namespace Pictogram

namespace Path

section Steps

variable {a b c : Step} {as bs cs : List Step}

theorem Step.le_total (a b : Step) : a.le b ∨ b.le a := by
  cases a <;> cases b <;> simp [Step.le, String.le_total]

theorem Step.le_trans (hab : a.le b) (hbc : b.le c) : a.le c := by
  cases a <;> cases b <;> cases c <;> simp [Step.le] at hab hbc ⊢
  exact String.le_trans hab hbc

theorem Step.le_antisymm (hab : a.le b) (hba : b.le a) : a = b := by
  cases a <;> cases b <;> simp [Step.le] at hab hba ⊢
  exact String.le_antisymm hab hba

theorem stepsLe_total (as bs : List Step) : stepsLe as bs ∨ stepsLe bs as := by
  induction as generalizing bs with
  | nil => exact .inl rfl
  | cons a as ih =>
    cases bs with
    | nil => exact .inr rfl
    | cons b bs =>
      rw [stepsLe, stepsLe]
      by_cases hab : a = b
      · rw [if_pos hab, if_pos hab.symm]
        exact ih bs
      · rw [if_neg hab, if_neg (Ne.symm hab)]
        exact Step.le_total a b

theorem stepsLe_trans (hab : stepsLe as bs) (hbc : stepsLe bs cs) : stepsLe as cs := by
  induction as generalizing bs cs with
  | nil => rfl
  | cons a as ih =>
    cases bs with
    | nil => cases hab
    | cons b bs =>
      cases cs with
      | nil => cases hbc
      | cons c cs =>
        rw [stepsLe] at hab hbc ⊢
        by_cases hsame : a = b
        · subst hsame
          rw [if_pos rfl] at hab
          by_cases hac : a = c
          · rw [if_pos hac] at hbc ⊢
            exact ih hab hbc
          · rwa [if_neg hac] at hbc ⊢
        · rw [if_neg hsame] at hab
          by_cases hnext : b = c
          · subst hnext
            rwa [if_neg hsame]
          · rw [if_neg hnext] at hbc
            -- The first step comes strictly before the last, or else the one between equals both.
            have hne : a ≠ c := by
              rintro rfl
              exact hsame (Step.le_antisymm hab hbc)
            rw [if_neg hne]
            exact Step.le_trans hab hbc

theorem stepsLe_antisymm (hab : stepsLe as bs) (hba : stepsLe bs as) : as = bs := by
  induction as generalizing bs with
  | nil =>
    cases bs with
    | nil => rfl
    | cons b bs => cases hba
  | cons a as ih =>
    cases bs with
    | nil => cases hab
    | cons b bs =>
      rw [stepsLe] at hab hba
      by_cases hsame : a = b
      · subst hsame
        rw [if_pos rfl] at hab hba
        rw [ih hab hba]
      · rw [if_neg hsame] at hab
        rw [if_neg (Ne.symm hsame)] at hba
        exact absurd (Step.le_antisymm hab hba) hsame

end Steps

variable {paths paths' : List String} {directory path segment : String}

theorem pairwise_mergeSort_le (paths : List String) :
    (paths.mergeSort le).Pairwise fun a b => le a b := by
  have htrans : ∀ a b c, le a b → le b c → le a c := fun _ _ _ => stepsLe_trans
  have htotal : ∀ a b, le a b || le b a := by
    intro a b
    rw [Bool.or_eq_true]
    exact stepsLe_total (steps a) (steps b)
  exact List.pairwise_mergeSort htrans htotal paths

/-- Paths with different steps are sorted in one way only. -/
theorem mergeSort_eq_of_perm (h : paths.Perm paths') (hdistinct : (paths.map steps).Nodup) :
    paths.mergeSort le = paths'.mergeSort le := by
  have hperm : (paths.mergeSort le).Perm (paths'.mergeSort le) :=
    (List.mergeSort_perm paths le).trans (h.trans (List.mergeSort_perm paths' le).symm)
  -- Two paths that may stand in either order have the same steps, and so they are one.
  refine hperm.eq_of_pairwise ?_ (pairwise_mergeSort_le paths) (pairwise_mergeSort_le paths')
  intro a b ha hb hab hba
  have hmem : a ∈ paths := List.mem_mergeSort.1 ha
  have hmem' : b ∈ paths := h.mem_iff.2 (List.mem_mergeSort.1 hb)
  exact List.inj_on_of_nodup_map hdistinct hmem hmem' (stepsLe_antisymm hab hba)

/-- Different paths make the same list of drawings in whatever order they come. -/
theorem drawings_eq_of_perm (h : paths.Perm paths') (hdistinct : (paths.map steps).Nodup) :
    drawings paths = drawings paths' :=
  mergeSort_eq_of_perm (h.filter _) (hdistinct.sublist (List.filter_sublist.map _))

theorem eq_empty_of_segments (h : segments path = [""]) : path = "" := by
  obtain ⟨piece, hsplit, hpiece⟩ := List.map_eq_singleton_iff.1 h
  have hnil : piece = [] := by simpa using congrArg String.toList hpiece
  subst hnil
  cases hchars : path.toList with
  | nil => exact String.toList_eq_nil_iff.1 hchars
  | cons c cs =>
    rw [hchars, Text.splitWhere] at hsplit
    split at hsplit
    · exact absurd (List.cons.inj hsplit).2 (Text.splitWhere_ne_nil _ cs)
    · split at hsplit <;> cases hsplit

/-- The steps of a path behind a directory come after those of the directory. -/
theorem steps_join (h : directory ≠ "") (path : String) :
    steps (join directory path) =
      steps directory ++ ((segments path).filter (!isIdle ·)).map .ofSegment := by
  obtain ⟨front, hsegments, hfront⟩ := segments_join directory path
  have hbelow : (segments directory).filter (!isIdle ·) = front.filter (!isIdle ·) := by
    rcases hfront with hfront | hfront <;> simp [hfront, isIdle]
  have hhead : (front ++ segments path).head? = (segments directory).head? := by
    obtain ⟨first, more, rfl⟩ : ∃ first more, front = first :: more := by
      apply List.exists_cons_of_ne_nil
      rintro rfl
      rcases hfront with hnil | hempty
      · simp [segments, Text.splitWhere_ne_nil] at hnil
      · exact h (eq_empty_of_segments hempty)
    rcases hfront with hfront | hfront <;> simp [hfront]
  simp only [steps, isAbsolute_join h, hsegments, hhead, hbelow, List.filter_append, List.map_append]
  split_ifs <;> rfl

end Path

namespace FileTree

open Pictogram.Path

variable {t : FileTree} {directory : String}

/-- No two paths that files are found by have the same steps. -/
theorem WellFormed.nodup_steps_filesBelow (hw : t.WellFormed) (directory : String) :
    ((t.filesBelow directory).map steps).Nodup := by
  refine (hw.nodup_filesBelow directory).map_on ?_
  intro path hpath path' hpath' hsame
  obtain ⟨place, content, hmem, names, more, hnames, rfl, hne, -, rfl⟩ := mem_filesBelow_iff.1 hpath
  obtain ⟨place', content', hmem', names', more', hnames', rfl, hne', -, rfl⟩ :=
    mem_filesBelow_iff.1 hpath'
  have hdirectory : directory ≠ "" :=
    (checkPath_eq_ok_iff.1 (locate_eq_ok_iff.1 hnames).1).2.1
  -- A name of the tree is a step as it stands: it is not idle and does not lead up.
  have hsteps : ∀ {names more : List String} {content : ByteArray},
      (names ++ more, Node.file content) ∈ t.entries → more ≠ [] →
      ((segments (ofSegments more)).filter (!isIdle ·)).map Step.ofSegment = more.map .down := by
    intro names more content hmem hne
    have hnamed : ∀ name ∈ more, IsName name := fun name hname =>
      hw.named _ hmem name (List.mem_append_right names hname)
    have hkept : more.filter (!isIdle ·) = more := by
      refine List.filter_eq_self.2 fun name hname => ?_
      simp [isIdle, (hnamed name hname).ne_empty, (hnamed name hname).ne_here]
    rw [hw.segments_below hmem hne, hkept]
    refine List.map_congr_left fun name hname => ?_
    rw [Step.ofSegment, if_neg (hnamed name hname).ne_up]
  rw [steps_join hdirectory, steps_join hdirectory, hsteps hmem hne, hsteps hmem' hne'] at hsame
  have hmore : more = more' :=
    List.map_injective_iff.2 (fun _ _ h => Step.down.inj h) (List.append_cancel_left hsame)
  rw [hmore]

end FileTree

end Pictogram
