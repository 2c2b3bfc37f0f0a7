import Pictogram.Proofs.Text.Span
import Pictogram.Text.Lowercase

/-!
What lower-casing keeps: a property of characters that every letter has which a rule makes of
another. So it makes neither blanks nor quotes, nor a line break where there is none.
-/

namespace Pictogram.Text

/-- Whether lower-casing makes only characters with a property of those that have it. -/
structure Lowers (p : Char → Bool) : Prop where
  ascii : ∀ n < 128, p (Char.ofNat n) → p (Char.ofNat n).toLower
  runs : ∀ r ∈ caseRuns, ∀ i < r.last + 1 - r.first,
    p (Char.ofNat (((r.first + i : Nat) : Int) + r.shift).toNat)
  sigma : p 'σ' ∧ p 'ς'
  dotted : p 'i' ∧ p '\u0307'

variable {p : Char → Bool} {c : Char}

namespace Lowers

theorem lowerSimple (h : Lowers p) (hc : p c) : p (lowerSimple c) := by
  rw [Text.lowerSimple]
  split
  next hascii =>
    have hlower := h.ascii c.toNat hascii
    rw [Char.ofNat_toNat] at hlower
    exact hlower hc
  next =>
    split
    next r hr =>
      have hmem := List.mem_of_find?_eq_some hr
      have hrange := List.find?_some hr
      simp only [Bool.and_eq_true, decide_eq_true_eq] at hrange
      obtain ⟨⟨hfirst, hlast⟩, -⟩ := hrange
      have hrun := h.runs r hmem (c.toNat - r.first) (by omega)
      rwa [Nat.add_sub_cancel' hfirst] at hrun
    next => exact hc

theorem lowerAfter (h : Lowers p) {before cs : List Char} (hcs : ∀ c ∈ cs, p c) :
    ∀ c ∈ lowerAfter before cs, p c := by
  induction cs generalizing before with
  | nil => exact hcs
  | cons c cs ih =>
    obtain ⟨hc, hrest⟩ := List.forall_mem_cons.1 hcs
    have hlower : ∀ d ∈ Text.lowerAfter (c :: before) cs, p d := ih hrest
    rw [Text.lowerAfter]
    split
    · refine List.forall_mem_cons.2 ⟨?_, hlower⟩
      split
      · exact h.sigma.2
      · exact h.sigma.1
    · split
      · exact List.forall_mem_cons.2 ⟨h.dotted.1, List.forall_mem_cons.2 ⟨h.dotted.2, hlower⟩⟩
      · exact List.forall_mem_cons.2 ⟨h.lowerSimple hc, hlower⟩

theorem lowercase (h : Lowers p) {text : String} (htext : ∀ c ∈ text.toList, p c) :
    ∀ c ∈ (lowercase text).toList, p c := by
  rw [Text.lowercase, String.toList_ofList]
  exact h.lowerAfter htext

end Lowers

/-- Whether a character is a blank or a double quote. -/
def isUnfit (c : Char) : Bool :=
  isBlank c || c == '"'

/-- Whether a text has neither blanks nor double quotes. -/
def Neat (text : String) : Prop :=
  ∀ c ∈ text.toList, isUnfit c = false

instance (text : String) : Decidable (Neat text) :=
  inferInstanceAs (Decidable (∀ c ∈ text.toList, isUnfit c = false))

theorem lowers_fit : Lowers (!isUnfit ·) :=
  ⟨by decide +kernel, by decide +kernel, by decide, by decide⟩

theorem Neat.lowercase {text : String} (h : Neat text) : Neat (lowercase text) := by
  intro c hc
  have hfit : ∀ c ∈ text.toList, (!isUnfit c) = true := by simpa [Neat] using h
  simpa using lowers_fit.lowercase hfit c hc

theorem lowers_line : Lowers (· != '\n') :=
  ⟨by decide +kernel, by decide +kernel, by decide, by decide⟩

theorem break_not_mem_lowercase {text : String} (h : '\n' ∉ text.toList) :
    '\n' ∉ (lowercase text).toList := by
  intro hbreak
  simpa using lowers_line.lowercase (run_of_not_mem h) '\n' hbreak

end Pictogram.Text
