import Pictogram.Component.AttributeName
import Pictogram.Markup.Element
import Pictogram.Text.Blank
import Pictogram.Text.Literal
import Pictogram.Text.Lowercase

/-!
Plain names: ASCII letters, digits and four signs. Neither the lower case of a plain name nor the
spelling that a component has for it is anything but plain.
-/

namespace Pictogram

/-- The characters of plain names. -/
def isNameChar (c : Char) : Bool :=
  c.isAlphanum || c == '-' || c == '_' || c == '.' || c == ':'

/-- Whether a name is plain. -/
def IsPlain (name : String) : Prop :=
  name.toList ≠ [] ∧ ∀ c ∈ name.toList, isNameChar c

instance (name : String) : Decidable (IsPlain name) :=
  inferInstanceAs (Decidable (_ ∧ _))

/-- Whether the names of an element are plain. -/
structure Element.Plain (e : Element) : Prop where
  tag : IsPlain e.tag
  attributes : ∀ a ∈ e.attributes, IsPlain a.name

variable {c d : Char}

theorem ne_of_isNameChar (hc : isNameChar c) (hd : isNameChar d = false) : c ≠ d := by
  rintro rfl
  rw [hc] at hd
  cases hd

theorem toNat_of_isNameChar (h : isNameChar c) : c.toNat < 128 := by
  have hbound : ∀ {last : Char}, c.val ≤ last.val → last.toNat < 128 → c.toNat < 128 :=
    fun hle hlast => Nat.lt_of_le_of_lt (UInt32.le_iff_toNat_le.1 hle) hlast
  simp only [isNameChar, Char.isAlphanum, Bool.or_eq_true, beq_iff_eq] at h
  obtain ((((halpha | hdigit) | rfl) | rfl) | rfl) | rfl := h
  · cases Bool.or_eq_true_iff.1 (show (c.isUpper || c.isLower) = true from halpha) with
    | inl hupper => exact hbound (of_decide_eq_true hupper).2 (by decide)
    | inr hlower =>
      exact hbound (of_decide_eq_true (Bool.and_eq_true_iff.1 hlower).2) (by decide)
  · exact Nat.lt_of_le_of_lt (Char.isDigit_iff_toNat.1 hdigit).2 (by decide)
  all_goals decide

/-- What holds of all characters of ASCII that plain names have holds of all that plain names
have. -/
theorem of_isNameChar {p : Char → Bool} (hp : ∀ n < 128, isNameChar (.ofNat n) → p (.ofNat n))
    (h : isNameChar c) : p c := by
  have hc := hp c.toNat (toNat_of_isNameChar h)
  rw [Char.ofNat_toNat] at hc
  exact hc h

theorem isBlank_of_isNameChar (h : isNameChar c) : Text.isBlank c = false := by
  simpa using of_isNameChar (p := (!Text.isBlank ·)) (by decide +kernel) h

theorem isSpace_of_isNameChar (h : isNameChar c) : Text.isSpace c = false := by
  simpa using of_isNameChar (p := (!Text.isSpace ·)) (by decide +kernel) h

theorem isNameChar_toLower (h : isNameChar c) : isNameChar c.toLower :=
  of_isNameChar (p := (isNameChar ·.toLower)) (by decide +kernel) h

theorem toLower_toLower (h : isNameChar c) : c.toLower.toLower = c.toLower :=
  beq_iff_eq.1 (of_isNameChar (p := fun c => c.toLower.toLower == c.toLower) (by decide +kernel) h)

theorem lowerAfter_of_ascii {before cs : List Char} (h : ∀ c ∈ cs, c.toNat < 128) :
    Text.lowerAfter before cs = cs.map Char.toLower := by
  induction cs generalizing before with
  | nil => rfl
  | cons c cs ih =>
    obtain ⟨hc, hcs⟩ := List.forall_mem_cons.1 h
    have hsigma : c ≠ 'Σ' := by
      rintro rfl
      exact absurd hc (by decide)
    have hdotted : c ≠ 'İ' := by
      rintro rfl
      exact absurd hc (by decide)
    rw [Text.lowerAfter, if_neg hsigma, if_neg hdotted, ih hcs, Text.lowerSimple, if_pos hc,
      List.map_cons]

/-- A plain name is lower-cased letter by letter. -/
theorem IsPlain.lowercase_eq {name : String} (h : IsPlain name) :
    Text.lowercase name = .ofList (name.toList.map Char.toLower) := by
  rw [Text.lowercase, lowerAfter_of_ascii fun c hc => toNat_of_isNameChar (h.2 c hc)]

theorem IsPlain.lowercase {name : String} (h : IsPlain name) : IsPlain (Text.lowercase name) := by
  rw [h.lowercase_eq, IsPlain, String.toList_ofList]
  refine ⟨by simpa using h.1, ?_⟩
  rintro c hc
  obtain ⟨d, hd, rfl⟩ := List.mem_map.1 hc
  exact isNameChar_toLower (h.2 d hd)

/-- A plain name in lower case is the same but for the case of its letters. -/
theorem IsPlain.equalsIgnoringCase_lowercase {name : String} (h : IsPlain name) (other : String) :
    Text.equalsIgnoringCase (Text.lowercase name) other = Text.equalsIgnoringCase name other := by
  have hmap : (name.toList.map Char.toLower).map Char.toLower = name.toList.map Char.toLower := by
    rw [List.map_map]
    exact List.map_congr_left fun c hc => toLower_toLower (h.2 c hc)
  rw [Text.equalsIgnoringCase, Text.equalsIgnoringCase, h.lowercase_eq, String.toList_ofList, hmap]

theorem plain_spellings : ∀ p ∈ AttributeName.spellings, IsPlain p.2 := by
  decide +kernel

/-- A component keeps a name or has a plain spelling for it. -/
theorem translate_or_plain (name : String) :
    AttributeName.translate name = name ∨ IsPlain (AttributeName.translate name) := by
  rw [AttributeName.translate]
  cases hlookup : AttributeName.spellings.lookup name with
  | none => exact .inl rfl
  | some spelling =>
    obtain ⟨before, after, heq, -⟩ := List.lookup_eq_some_iff.1 hlookup
    exact .inr (plain_spellings (name, spelling) (by simp [heq]))

/-- A component spells plain names by plain names. -/
theorem IsPlain.translate {name : String} (h : IsPlain name) :
    IsPlain (AttributeName.translate name) := by
  rcases translate_or_plain name with hkept | hplain
  · rwa [hkept]
  · exact hplain

end Pictogram
