import Mathlib.Data.List.Perm.Subperm
import Mathlib.Data.List.Nodup
import Pictogram.Command.Plan

/-!
The names in a plan. Of the numbers that are tried for a name more lead to different names than
names are taken, so that the search ends at one that is free.
-/

namespace Pictogram.Job

variable {taken paths : List String} {base : String} {k tries : Nat}

theorem numbered_injective (base : String) : Function.Injective (numbered base) := by
  intro i j h
  have hdigits : Nat.toDigits 10 i = Nat.toDigits 10 j := by
    have hchars := congrArg String.toList h
    rw [numbered, numbered, String.toList_append, String.toList_append] at hchars
    simpa [Nat.toString_eq_ofList_toDigits] using List.append_cancel_left hchars
  rw [← Nat.ofDigitChars_ten_toDigits (n := i), hdigits, Nat.ofDigitChars_ten_toDigits]

/-- Where the search ends at a name that is taken, all names that were tried are. -/
theorem numbered_mem_of_freeNumbered_mem (h : freeNumbered taken base k tries ∈ taken) :
    ∀ i ≤ tries, numbered base (k + i) ∈ taken := by
  induction tries generalizing k with
  | zero =>
    intro i hi
    rw [Nat.le_zero.1 hi]
    exact h
  | succ tries ih =>
    rw [freeNumbered] at h
    split at h
    next hfirst =>
      intro i hi
      cases i with
      | zero => exact hfirst
      | succ i =>
        have hlater := ih h i (Nat.le_of_succ_le_succ hi)
        rwa [Nat.add_right_comm, Nat.add_assoc] at hlater
    next hfree => exact absurd h hfree

theorem freeNumbered_not_mem (taken : List String) (base : String) (k : Nat) :
    freeNumbered taken base k taken.length ∉ taken := by
  intro hmem
  have htaken := numbered_mem_of_freeNumbered_mem hmem
  have hnodup : ((List.range (taken.length + 1)).map fun i => numbered base (k + i)).Nodup :=
    List.nodup_range.map fun i j hsame => Nat.add_left_cancel (numbered_injective base hsame)
  have hsubset : ((List.range (taken.length + 1)).map fun i => numbered base (k + i)) ⊆ taken := by
    intro name hname
    obtain ⟨i, hi, rfl⟩ := List.mem_map.1 hname
    exact htaken i (Nat.le_of_lt_succ (List.mem_range.1 hi))
  have hlength := (List.subperm_of_subset hnodup hsubset).length_le
  rw [List.length_map, List.length_range] at hlength
  exact Nat.not_succ_le_self _ hlength

theorem freeName_not_mem (taken : List String) (base : String) : freeName taken base ∉ taken := by
  rw [freeName]
  split
  · exact freeNumbered_not_mem taken base 2
  next hfree => exact hfree

theorem map_path_planAfter (taken paths : List String) :
    (planAfter taken paths).map (·.path) = paths := by
  induction paths generalizing taken with
  | nil => rfl
  | cons path paths ih => rw [planAfter, List.map_cons, ih]

/-- No job has a name that was taken before or that another job has. -/
theorem nodup_taken_planAfter (htaken : taken.Nodup) (paths : List String) :
    (taken ++ (planAfter taken paths).map (·.name)).Nodup := by
  induction paths generalizing taken with
  | nil => simpa [planAfter] using htaken
  | cons path paths ih =>
    have hname : (taken ++ [freeName taken (baseName path)]).Nodup := by
      refine List.nodup_append.2 ⟨htaken, by simp, ?_⟩
      rintro name hmem other hother rfl
      rw [List.mem_singleton.1 hother] at hmem
      exact freeName_not_mem taken (baseName path) hmem
    have hmore := ih hname
    rwa [List.append_assoc] at hmore

theorem map_path_plan (paths : List String) : (plan paths).map (·.path) = paths :=
  map_path_planAfter [] paths

theorem nodup_name_plan (paths : List String) : ((plan paths).map (·.name)).Nodup :=
  nodup_taken_planAfter List.nodup_nil paths

end Pictogram.Job
