import Pictogram.Proofs.Command.Planning
import Pictogram.Proofs.Files.Ordering

/-!
Which name each file of a plan gets: the one that its own name suggests, or else that name with the
least number that no earlier job has. The plan of a directory's drawings does not depend on the order
in which they are found.
-/

namespace Pictogram.Job

/-- Whether a name is what a base comes to when the given names are taken: the base itself, or else
the base with the least number from two on that makes it free. -/
inductive FirstFree (taken : List String) (base : String) : String → Prop where
  | base (hfree : base ∉ taken) : FirstFree taken base base
  | numbered (k : Nat) (htaken : base ∈ taken) (hk : 2 ≤ k) (hfree : numbered base k ∉ taken)
      (hleast : ∀ i, 2 ≤ i → i < k → numbered base i ∈ taken) :
      FirstFree taken base (numbered base k)

variable {taken paths : List String} {before after : List Job} {base : String} {job : Job}

/-- The search passes over names that are taken, and over no others. -/
theorem exists_freeNumbered_eq (taken : List String) (base : String) (k tries : Nat) :
    ∃ i, freeNumbered taken base k tries = numbered base (k + i) ∧
      ∀ j < i, numbered base (k + j) ∈ taken := by
  -- Every try that is used up moves the number on, so the number stays general.
  induction tries generalizing k with
  | zero => exact ⟨0, rfl, by simp⟩
  | succ tries ih =>
    rw [freeNumbered]
    split
    next hfirst =>
      obtain ⟨i, hname, hpassed⟩ := ih (k + 1)
      refine ⟨i + 1, by rw [hname, Nat.add_right_comm, Nat.add_assoc], ?_⟩
      intro j hj
      cases j with
      | zero => exact hfirst
      | succ j =>
        have hlater := hpassed j (Nat.lt_of_succ_lt_succ hj)
        rwa [Nat.add_right_comm, Nat.add_assoc] at hlater
    next => exact ⟨0, rfl, by simp⟩

theorem firstFree_freeName (taken : List String) (base : String) :
    FirstFree taken base (freeName taken base) := by
  rw [freeName]
  split
  next htaken =>
    have hfree := freeNumbered_not_mem taken base 2
    obtain ⟨i, hname, hpassed⟩ := exists_freeNumbered_eq taken base 2 taken.length
    rw [hname] at hfree ⊢
    refine .numbered (2 + i) htaken (Nat.le_add_right 2 i) hfree fun k hk hlt => ?_
    obtain ⟨j, rfl⟩ := Nat.exists_eq_add_of_le hk
    exact hpassed j (Nat.lt_of_add_lt_add_left hlt)
  next hfree => exact .base hfree

/-- Every job is named after its file, as the names before it leave it. -/
theorem firstFree_of_planAfter (h : planAfter taken paths = before ++ job :: after) :
    FirstFree (taken ++ before.map (·.name)) (baseName job.path) job.name := by
  -- What is taken grows by the name of each job before, and stays general for that.
  induction before generalizing taken paths with
  | nil =>
    cases paths with
    | nil => cases h
    | cons path paths =>
      obtain ⟨rfl, -⟩ := List.cons.inj h
      rw [List.map_nil, List.append_nil]
      exact firstFree_freeName taken (baseName path)
  | cons first before ih =>
    cases paths with
    | nil => cases h
    | cons path paths =>
      obtain ⟨rfl, hmore⟩ := List.cons.inj h
      have hnamed := ih hmore
      rwa [List.append_assoc] at hnamed

/-- Every path has a job in its place, no two jobs have one name, and each has the first name that is
free for its file. The plan is the same in whatever order different paths are found, and so are
those of the files of a tree. -/
theorem plan_names_files :
    (∀ paths : List String,
      (plan paths).map (·.path) = paths ∧ ((plan paths).map (·.name)).Nodup ∧
        ∀ before job after, plan paths = before ++ job :: after →
          FirstFree (before.map (·.name)) (baseName job.path) job.name) ∧
      (∀ found found' : List String, (found.map Path.steps).Nodup →
        (found'.map Path.steps).Nodup → (∀ path, path ∈ found ↔ path ∈ found') →
        plan (Path.drawings found) = plan (Path.drawings found')) ∧
      ∀ (t : FileTree) (directory : String) (found : List String), t.WellFormed →
        found.Perm (t.filesBelow directory) →
        plan (Path.drawings found) = plan (Path.drawings (t.filesBelow directory)) := by
  refine ⟨fun paths => ⟨map_path_plan paths, nodup_name_plan paths, fun before job after h => ?_⟩,
    fun found found' hdistinct hdistinct' hsame => ?_, fun t directory found hw hperm => ?_⟩
  · have hnamed := firstFree_of_planAfter h
    rwa [List.nil_append] at hnamed
  · have hperm : found.Perm found' :=
      (List.perm_ext_iff_of_nodup (.of_map _ hdistinct) (.of_map _ hdistinct')).2 hsame
    rw [Path.drawings_eq_of_perm hperm hdistinct]
  · have hdistinct : (found.map Path.steps).Nodup :=
      (hperm.map _).nodup_iff.2 (hw.nodup_steps_filesBelow directory)
    rw [Path.drawings_eq_of_perm hperm hdistinct]

/-- Two files that suggest one name, and one that suggests the name that the second of them gets. -/
def homes : FileTree where
  entries := [(["home2.svg"], .file "<svg/>".toUTF8), (["b"], .directory),
    (["b", "home.svg"], .file "<svg/>".toUTF8), (["a"], .directory),
    (["a", "home.svg"], .file "<svg/>".toUTF8)]

theorem plan_names_homes :
    (plan ["./a/home.svg", "./b/home.svg", "./home2.svg"] =
        [⟨"./a/home.svg", "Home"⟩, ⟨"./b/home.svg", "Home2"⟩] ++ ⟨"./home2.svg", "Home22"⟩ :: [] ∧
      FirstFree ["Home", "Home2"] "Home2" "Home22") ∧
      ((["./a/home.svg", "./home2.svg", "./b/home.svg"].map Path.steps).Nodup ∧
        ((homes.filesBelow ".").map Path.steps).Nodup ∧
        (∀ path, path ∈ ["./a/home.svg", "./home2.svg", "./b/home.svg"] ↔
          path ∈ homes.filesBelow ".") ∧
        plan (Path.drawings ["./a/home.svg", "./home2.svg", "./b/home.svg"]) =
          plan (Path.drawings (homes.filesBelow "."))) ∧
      homes.WellFormed ∧
      ["./a/home.svg", "./b/home.svg", "./home2.svg"].Perm (homes.filesBelow ".") ∧
      plan (Path.drawings ["./a/home.svg", "./b/home.svg", "./home2.svg"]) =
        plan (Path.drawings (homes.filesBelow ".")) := by
  have hplan : plan ["./a/home.svg", "./b/home.svg", "./home2.svg"] =
      [⟨"./a/home.svg", "Home"⟩, ⟨"./b/home.svg", "Home2"⟩] ++ ⟨"./home2.svg", "Home22"⟩ :: [] := by
    decide +kernel
  have hfound : homes.filesBelow "." = ["./home2.svg", "./b/home.svg", "./a/home.svg"] := by
    decide +kernel
  have hw : homes.WellFormed := by decide +kernel
  have hdistinct : (["./a/home.svg", "./home2.svg", "./b/home.svg"].map Path.steps).Nodup := by
    decide +kernel
  have hdistinct' := hw.nodup_steps_filesBelow "."
  have hsame : ∀ path, path ∈ ["./a/home.svg", "./home2.svg", "./b/home.svg"] ↔
      path ∈ homes.filesBelow "." := by
    intro path
    rw [hfound]
    simp only [List.mem_cons, List.not_mem_nil, or_false]
    tauto
  have hperm : ["./a/home.svg", "./b/home.svg", "./home2.svg"].Perm (homes.filesBelow ".") := by
    rw [hfound]
    decide +kernel
  exact ⟨⟨hplan, (plan_names_files.1 _).2.2 _ _ _ hplan⟩,
    ⟨hdistinct, hdistinct', hsame, plan_names_files.2.1 _ _ hdistinct hdistinct' hsame⟩,
    hw, hperm, plan_names_files.2.2 homes "." _ hw hperm⟩

end Pictogram.Job
