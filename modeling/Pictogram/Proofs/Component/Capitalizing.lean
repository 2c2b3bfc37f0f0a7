import Pictogram.Component.Options
import Pictogram.Proofs.Component.PlainNames

/-!
Component names that are derived from texts. Whatever the text, its name begins with a capital and
goes on with letters and digits, so that it is an identifier and the name of itself.
-/

namespace Pictogram.ComponentName

/-- Whether a name begins with an ASCII capital and has ASCII letters and digits alone. -/
structure Capitalized (name : String) : Prop where
  capital : ∃ c cs, name.toList = c :: cs ∧ c.isUpper
  alphanum : ∀ c ∈ name.toList, c.isAlphanum

variable {name : String} {c : Char} {cs rest : List Char}

/-- What holds of all letters and digits of ASCII is decided by going through ASCII. -/
theorem of_isAlphanum {p : Char → Bool}
    (hp : ∀ n < 128, (Char.ofNat n).isAlphanum → p (Char.ofNat n)) (h : c.isAlphanum) : p c := by
  have hname : isNameChar c := by simp [isNameChar, h]
  have hc := hp c.toNat (toNat_of_isNameChar hname)
  rw [Char.ofNat_toNat] at hc
  exact hc h

theorem isAlphanum_toUpper (h : c.isAlphanum) : c.toUpper.isAlphanum :=
  of_isAlphanum (p := (·.toUpper.isAlphanum)) (by decide +kernel) h

theorem isUpper_or_isDigit_toUpper (h : c.isAlphanum) :
    c.toUpper.isUpper ∨ c.toUpper.isDigit := by
  have hall := of_isAlphanum (p := fun c => c.toUpper.isUpper || c.toUpper.isDigit)
    (by decide +kernel) h
  exact Bool.or_eq_true_iff.1 hall

theorem isAlpha_of_isUpper (h : c.isUpper) : c.isAlpha :=
  Bool.or_eq_true_iff.2 (.inl h)

theorem isAlphanum_of_isUpper (h : c.isUpper) : c.isAlphanum :=
  Bool.or_eq_true_iff.2 (.inl (isAlpha_of_isUpper h))

/-- A capital is its own capital, and no digit. -/
theorem of_isUpper (h : c.isUpper) : c.toUpper = c ∧ c.isDigit = false := by
  have hall := of_isAlphanum (p := fun c => !c.isUpper || (c.toUpper == c && !c.isDigit))
    (by decide +kernel) (isAlphanum_of_isUpper h)
  simpa [h] using hall

section Runs

theorem isAlphanum_of_mem_capitalizeRuns (atStart : Bool) (cs : List Char) :
    ∀ c ∈ capitalizeRuns atStart cs, c.isAlphanum := by
  induction cs generalizing atStart with
  | nil => simp [capitalizeRuns]
  | cons c cs ih =>
    rw [capitalizeRuns]
    split
    next hc =>
      refine List.forall_mem_cons.2 ⟨?_, ih false⟩
      split
      · exact isAlphanum_toUpper hc
      · exact hc
    next => exact ih true

/-- The first character that is kept begins a run. -/
theorem capital_or_digit_of_capitalizeRuns (h : capitalizeRuns true cs = c :: rest) :
    c.isUpper ∨ c.isDigit := by
  induction cs with
  | nil => cases h
  | cons d cs ih =>
    rw [capitalizeRuns] at h
    split at h
    next hd =>
      obtain ⟨rfl, -⟩ := List.cons.inj h
      exact isUpper_or_isDigit_toUpper hd
    next => exact ih h

theorem capitalizeRuns_of_alphanum (h : ∀ c ∈ cs, c.isAlphanum) : capitalizeRuns false cs = cs := by
  induction cs with
  | nil => rfl
  | cons c cs ih =>
    obtain ⟨hc, hcs⟩ := List.forall_mem_cons.1 h
    rw [capitalizeRuns, if_pos hc, ih hcs]
    rfl

end Runs

theorem capitalized_derive (text : String) : Capitalized (derive text) := by
  have halphanum := isAlphanum_of_mem_capitalizeRuns true text.toList
  rw [derive]
  split
  next => exact ⟨⟨'S', "vgComponent".toList, rfl, rfl⟩, by decide⟩
  next c cs heq =>
    rw [heq] at halphanum
    split
    next hdigit =>
      refine ⟨⟨'S', 'v' :: 'g' :: c :: cs, String.toList_ofList, rfl⟩, ?_⟩
      rw [String.toList_ofList]
      simpa using halphanum
    next hdigit =>
      have hcapital := (capital_or_digit_of_capitalizeRuns heq).resolve_right hdigit
      refine ⟨⟨c, cs, String.toList_ofList, hcapital⟩, ?_⟩
      rw [String.toList_ofList]
      exact halphanum

namespace Capitalized

/-- A capitalized name is the name of itself. -/
theorem derive_eq (h : Capitalized name) : derive name = name := by
  obtain ⟨c, cs, heq, hcapital⟩ := h.capital
  have halphanum := h.alphanum
  rw [heq, List.forall_mem_cons] at halphanum
  have hruns : capitalizeRuns true name.toList = c :: cs := by
    rw [heq, capitalizeRuns, if_pos halphanum.1, if_pos rfl, (of_isUpper hcapital).1,
      capitalizeRuns_of_alphanum halphanum.2]
  rw [derive, hruns]
  simp only [(of_isUpper hcapital).2, Bool.false_eq_true, if_false]
  rw [← heq, String.ofList_toList]

theorem isValid (h : Capitalized name) : isValid name := by
  obtain ⟨c, cs, heq, hcapital⟩ := h.capital
  have halphanum := h.alphanum
  rw [heq, List.forall_mem_cons] at halphanum
  have hparts : ∀ d ∈ cs, isPart d := by
    intro d hd
    simp [isPart, halphanum.2 d hd]
  have hstart : isStart c := by simp [isStart, isAlpha_of_isUpper hcapital]
  rw [ComponentName.isValid, heq]
  simp only [hstart, Bool.true_and, List.all_eq_true]
  exact hparts

/-- No choice of options with a capitalized name is refused. -/
theorem validate (h : Capitalized name) (dialect : Dialect) (props : PropFlags) :
    Options.validate { name, dialect, props } = .ok () := by
  rw [Options.validate, if_pos h.isValid]

theorem append (h : Capitalized name) {more : String} (hmore : ∀ c ∈ more.toList, c.isAlphanum) :
    Capitalized (name ++ more) := by
  obtain ⟨c, cs, heq, hcapital⟩ := h.capital
  refine ⟨⟨c, cs ++ more.toList, by rw [String.toList_append, heq, List.cons_append], hcapital⟩, ?_⟩
  rw [String.toList_append]
  exact List.forall_mem_append.2 ⟨h.alphanum, hmore⟩

end Capitalized

end Pictogram.ComponentName
