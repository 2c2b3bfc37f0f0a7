import Mathlib.Algebra.Group.Nat.Defs
import Mathlib.Data.Finset.Card
import Pictogram.Proofs.Command.Naming

/-!
The search for a free name, one turn after the other. No two turns try the same name, so that there
are no more turns than names are taken, and the number that goes behind a name stays small.
-/

namespace Pictogram.Job

/-- How far a search can come: the turns it has taken, the name that it has come to and the number
that its next turn would use. A turn is taken only while the name is taken. -/
inductive Search (taken : List String) (base : String) : Nat → String → Nat → Prop where
  | start : Search taken base 0 base 2
  | turn {turns number : Nat} {name : String} (h : Search taken base turns name number)
      (htaken : name ∈ taken) : Search taken base (turns + 1) (numbered base number) (number + 1)

/-- The name that a search comes to by the given number of turns. -/
def tried (base : String) : Nat → String
  | 0 => base
  | turns + 1 => numbered base (turns + 2)

variable {taken : List String} {base name : String} {turns turns' number : Nat}

theorem numbered_ne_base (base : String) (k : Nat) : numbered base k ≠ base := by
  intro h
  have hdigits : (toString k).toList = [] := by
    have hchars := congrArg String.toList h
    rwa [numbered, String.toList_append, List.append_right_eq_self] at hchars
  rw [Nat.toString_eq_ofList_toDigits, String.toList_ofList] at hdigits
  exact Nat.toDigits_ne_nil hdigits

theorem tried_injective (base : String) : Function.Injective (tried base) := by
  intro i j h
  cases i with
  | zero =>
    cases j with
    | zero => rfl
    | succ j => exact absurd h.symm (numbered_ne_base base (j + 2))
  | succ i =>
    cases j with
    | zero => exact absurd h (numbered_ne_base base (i + 2))
    | succ j => exact congrArg (· - 1) (numbered_injective base h)

/-- A search comes as far as all names before are taken. -/
theorem search_iff :
    Search taken base turns name number ↔
      name = tried base turns ∧ number = turns + 2 ∧ ∀ i < turns, tried base i ∈ taken := by
  constructor
  · intro h
    induction h with
    | start => exact ⟨rfl, rfl, by simp⟩
    | turn _ htaken ih =>
      obtain ⟨rfl, rfl, hbefore⟩ := ih
      exact ⟨rfl, rfl, Nat.forall_lt_succ_right.2 ⟨hbefore, htaken⟩⟩
  · rintro ⟨rfl, rfl, hbefore⟩
    induction turns with
    | zero => exact .start
    | succ turns ih =>
      obtain ⟨hearlier, hlast⟩ := Nat.forall_lt_succ_right.1 hbefore
      exact .turn (ih hearlier) hlast

/-- A search takes no more turns than names are taken, as each turn has passed over another one. -/
theorem Search.turns_le (h : Search taken base turns name number) :
    turns ≤ taken.toFinset.card := by
  obtain ⟨-, -, hbefore⟩ := search_iff.1 h
  have hmaps : ∀ i ∈ Finset.range turns, tried base i ∈ taken.toFinset := by
    intro i hi
    exact List.mem_toFinset.2 (hbefore i (Finset.mem_range.1 hi))
  have hcard := Finset.card_le_card_of_injOn (tried base) hmaps (tried_injective base).injOn
  rwa [Finset.card_range] at hcard

/-- A search can come to the name that is first free. -/
theorem exists_search_of_firstFree (h : FirstFree taken base name) :
    ∃ turns number, Search taken base turns name number := by
  cases h with
  | base hfree => exact ⟨0, 2, .start⟩
  | numbered k htaken hk hfree hleast =>
    obtain ⟨turns, rfl⟩ := Nat.exists_eq_add_of_le' hk
    refine ⟨turns + 1, turns + 3, search_iff.2 ⟨rfl, rfl, fun i hi => ?_⟩⟩
    cases i with
    | zero => exact htaken
    | succ i =>
      have hi' : i < turns := Nat.lt_of_succ_lt_succ hi
      exact hleast (i + 2) (Nat.le_add_left 2 i) (Nat.add_lt_add_right hi' 2)

/-- Searches that cannot go on have come to the same name. -/
theorem Search.name_unique {name' : String} {number' : Nat}
    (h : Search taken base turns name number) (h' : Search taken base turns' name' number')
    (hfree : name ∉ taken) (hfree' : name' ∉ taken) : name = name' := by
  obtain ⟨rfl, -, hbefore⟩ := search_iff.1 h
  obtain ⟨rfl, -, hbefore'⟩ := search_iff.1 h'
  rcases Nat.lt_trichotomy turns turns' with hlt | rfl | hlt
  · exact absurd (hbefore' turns hlt) hfree
  · rfl
  · exact absurd (hbefore turns' hlt) hfree'

/-- Every search for a free name ends, after no more turns than names are taken, and at the name that
the job gets. In the plan of fewer than two to the power of 31 less two paths no number that a search
comes to is too large for a signed integer of 32 bits. -/
theorem search_ends :
    (∀ (taken : List String) (base : String),
      (∀ turns name number, Search taken base turns name number →
        turns ≤ taken.toFinset.card ∧ number = turns + 2 ∧
          (name ∉ taken → name = freeName taken base)) ∧
      ∃ turns number, Search taken base turns (freeName taken base) number ∧
        freeName taken base ∉ taken) ∧
    ∀ paths : List String, paths.length < 2 ^ 31 - 2 →
      ∀ before job after, plan paths = before ++ job :: after →
        (∃ turns number,
          Search (before.map (·.name)) (baseName job.path) turns job.name number) ∧
        ∀ turns name number, Search (before.map (·.name)) (baseName job.path) turns name number →
          (number : Int) ≤ Int32.maxValue.toInt := by
  refine ⟨fun taken base => ?_, fun paths hpaths before job after hplan => ⟨?_, ?_⟩⟩
  · have hfree := freeName_not_mem taken base
    obtain ⟨turns, number, hends⟩ := exists_search_of_firstFree (firstFree_freeName taken base)
    refine ⟨fun turns name number h => ⟨h.turns_le, (search_iff.1 h).2.1, fun hname => ?_⟩,
      turns, number, hends, hfree⟩
    exact h.name_unique hends hname hfree
  · have hnamed := firstFree_of_planAfter hplan
    rw [List.nil_append] at hnamed
    exact exists_search_of_firstFree hnamed
  · intro turns name number h
    have hturns := h.turns_le
    have hnames := List.toFinset_card_le (before.map (·.name))
    have hjobs : before.length < paths.length := by
      have hlength := congrArg List.length (map_path_plan paths)
      rw [hplan] at hlength
      simp only [List.length_map, List.length_append, List.length_cons] at hlength
      omega
    obtain ⟨-, rfl, -⟩ := search_iff.1 h
    rw [List.length_map] at hnames
    have hmax : Int32.maxValue.toInt = 2147483647 := by decide
    omega

/-- The third of three files of one name: its search passes over the names of the others. -/
theorem search_ends_thrice :
    (Search ["Home", "Home2"] "Home" 2 "Home3" 4 ∧
      (2 ≤ ["Home", "Home2"].toFinset.card ∧ "Home3" ∉ ["Home", "Home2"] ∧
        "Home3" = freeName ["Home", "Home2"] "Home")) ∧
      ["a/home.svg", "b/home.svg", "c/home.svg"].length < 2 ^ 31 - 2 ∧
      plan ["a/home.svg", "b/home.svg", "c/home.svg"] =
        [⟨"a/home.svg", "Home"⟩, ⟨"b/home.svg", "Home2"⟩] ++ ⟨"c/home.svg", "Home3"⟩ :: [] ∧
      ((4 : Nat) : Int) ≤ Int32.maxValue.toInt := by
  have hplan : plan ["a/home.svg", "b/home.svg", "c/home.svg"] =
      [⟨"a/home.svg", "Home"⟩, ⟨"b/home.svg", "Home2"⟩] ++ ⟨"c/home.svg", "Home3"⟩ :: [] := by
    decide +kernel
  have hbase : baseName "c/home.svg" = "Home" := by decide +kernel
  have hsearch : Search ["Home", "Home2"] "Home" 2 "Home3" 4 :=
    .turn (.turn .start (by decide)) (by decide +kernel)
  have hshort : ["a/home.svg", "b/home.svg", "c/home.svg"].length < 2 ^ 31 - 2 := by decide
  have hfree : "Home3" ∉ ["Home", "Home2"] := by decide
  obtain ⟨hturns, -, hname⟩ := (search_ends.1 _ _).1 _ _ _ hsearch
  refine ⟨⟨hsearch, hturns, hfree, hname hfree⟩, hshort, hplan, ?_⟩
  refine (search_ends.2 _ hshort _ _ _ hplan).2 2 "Home3" 4 ?_
  rw [hbase]
  exact hsearch

end Pictogram.Job
