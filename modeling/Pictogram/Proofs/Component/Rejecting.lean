import Pictogram.Proofs.Component.Grammar

/-!
Two kinds of texts that are no markup, tidied or not: an element without content that something
follows, and an element whose text holds a brace.
-/

namespace Pictogram

open Text

variable {props : List String} {names names' : List String} {tag tag' : String}
  {attributes attributes' before between element front back rest : List Char}

/-- Layout ends where a tag begins. -/
theorem layout_unique {layout layout' rest rest' : List Char} (h : IsLayout layout)
    (h' : IsLayout layout') (heq : layout ++ '<' :: rest = layout' ++ '<' :: rest') :
    layout = layout' ∧ rest = rest' := by
  obtain ⟨hlayout, -, hrest⟩ := run_unique h rfl h' rfl heq
  exact ⟨hlayout, hrest⟩

/-- What has no tag in it, in front of a tag, covers a brace that stands before every tag. -/
theorem brace_mem {cs : List Char} (hcs : '<' ∉ cs) (hfront : '<' ∉ front)
    (heq : cs ++ '<' :: rest = front ++ '\x7b' :: back) : '\x7b' ∈ cs := by
  rcases append_eq_append_cons heq with ⟨more, rfl, -⟩ | ⟨between, rfl, hbetween⟩
  · simp
  · cases between with
    | nil => simp at hbetween
    | cons d between =>
      obtain ⟨rfl, -⟩ := List.cons.inj hbetween
      simp at hfront

theorem IsLayout.not_mem {layout : List Char} (h : IsLayout layout) {c : Char}
    (hc : isBlank c = false) : c ∉ layout := by
  intro hmem
  rw [h c hmem] at hc
  cases hc

/-- An element begins with a name and attributes, and either ends right behind them or goes on behind
a bracket with a text or with elements. -/
theorem Derives.opening (hprops : ∀ p ∈ props, IsPlain p) (h : Derives props .element element)
    (htag : IsPlain tag) (hattributes : DerivesAttributes props names attributes)
    (hrest : EndsTag rest) {after : List Char}
    (heq : element ++ after = '<' :: tag.toList ++ attributes ++ rest) :
    rest = [' ', '/', '>'] ++ after ∨
      ∃ content tail, rest = '>' :: content ++ '<' :: '/' :: tail ∧
        (IsInert content ∨ Derives props .elements content) := by
  cases h with
  | @empty tag' names' attributes' htag' hattributes' =>
    have htail : '<' :: tag'.toList ++ attributes' ++ ([' ', '/', '>'] ++ after) =
        '<' :: tag.toList ++ attributes ++ rest := by
      simpa using heq
    obtain ⟨-, -, hsame⟩ := opening_unique hprops htag' htag hattributes' hattributes
      (.inr ⟨_, rfl⟩) hrest htail
    exact .inl hsame.symm
  | @text tag' names' attributes' text htag' hattributes' htext =>
    have htail : '<' :: tag'.toList ++ attributes' ++
        ('>' :: text ++ '<' :: '/' :: (tag'.toList ++ ['>'] ++ after)) =
        '<' :: tag.toList ++ attributes ++ rest := by
      simpa using heq
    obtain ⟨-, -, hsame⟩ := opening_unique hprops htag' htag hattributes' hattributes
      (.inl ⟨_, rfl⟩) hrest htail
    exact .inr ⟨text, _, hsame.symm, .inl htext⟩
  | @nested tag' names' attributes' content htag' hattributes' hcontent =>
    have htail : '<' :: tag'.toList ++ attributes' ++
        ('>' :: content ++ '<' :: '/' :: (tag'.toList ++ ['>'] ++ after)) =
        '<' :: tag.toList ++ attributes ++ rest := by
      simpa using heq
    obtain ⟨-, -, hsame⟩ := opening_unique hprops htag' htag hattributes' hattributes
      (.inl ⟨_, rfl⟩) hrest htail
    exact .inr ⟨content, _, hsame.symm, .inr hcontent⟩

/-- Elements begin with layout and an element. -/
theorem Derives.exists_element {content : List Char} (h : Derives props .elements content) :
    ∃ before element rest, content = before ++ element ++ rest ∧ IsLayout before ∧
      Derives props .element element := by
  cases h with
  | last hbefore helement hafter => exact ⟨_, _, _, rfl, hbefore, helement⟩
  | more hbefore helement hrest => exact ⟨_, _, _, rfl, hbefore, helement⟩

/-- Markup that begins with a name and attributes is the element that they open. -/
theorem IsMarkup.opening (hprops : ∀ p ∈ props, IsPlain p) (hbefore : IsLayout before)
    (htag : IsPlain tag) (hattributes : DerivesAttributes props names attributes)
    (hrest : EndsTag rest)
    (h : IsMarkup props (before ++ ('<' :: tag.toList ++ attributes ++ rest))) :
    (∃ after, rest = [' ', '/', '>'] ++ after ∧ IsLayout after) ∨
      ∃ content tail, rest = '>' :: content ++ '<' :: '/' :: tail ∧
        (IsInert content ∨ Derives props .elements content) := by
  obtain ⟨before', element, after, heq, hbefore', helement, hafter⟩ := h
  obtain ⟨more, hmore⟩ := helement.exists_cons
  have hfront : before ++ '<' :: (tag.toList ++ attributes ++ rest) =
      before' ++ '<' :: (more ++ after) := by
    simpa [hmore] using heq
  obtain ⟨-, hbehind⟩ := layout_unique hbefore hbefore' hfront
  have hbody : element ++ after = '<' :: tag.toList ++ attributes ++ rest := by
    rw [hmore, List.cons_append, ← hbehind]
    simp
  rcases helement.opening hprops htag hattributes hrest hbody with hempty | hcontent
  · exact .inl ⟨after, hempty, hafter⟩
  · exact .inr hcontent

/-- No more than layout may follow an element without content. -/
theorem not_isMarkup_of_behind (hprops : ∀ p ∈ props, IsPlain p) (hbefore : IsLayout before)
    (htag : IsPlain tag) (hattributes : DerivesAttributes props names attributes)
    (hrest : '<' ∈ rest) :
    ¬ IsMarkup props (before ++ ('<' :: tag.toList ++ attributes ++ ([' ', '/', '>'] ++ rest))) := by
  intro h
  rcases h.opening hprops hbefore htag hattributes (.inr ⟨_, rfl⟩) with
    ⟨after, hsame, hafter⟩ | ⟨content, tail, hsame, -⟩
  · obtain rfl : rest = after := by simpa using hsame
    exact hafter.not_mem rfl hrest
  · exact absurd (List.cons.inj hsame).1 (by decide)

/-- An element has no brace in its text. -/
theorem not_derives_of_brace (hprops : ∀ p ∈ props, IsPlain p) (h : Derives props .element element)
    (htag : IsPlain tag) (hattributes : DerivesAttributes props names attributes)
    (hfront : '<' ∉ front) {after : List Char} :
    element ++ after ≠ '<' :: tag.toList ++ attributes ++ '>' :: (front ++ '\x7b' :: back) := by
  intro heq
  rcases h.opening hprops htag hattributes (.inl ⟨_, rfl⟩) heq with hsame | ⟨content, tail, hsame, h⟩
  · exact absurd (List.cons.inj hsame).1 (by decide)
  · have hcontent := (List.cons.inj hsame).2.symm
    rcases h with hinert | helements
    · exact hinert '\x7b' (by simp) (brace_mem (hinert '<' (by simp)) hfront hcontent)
    · obtain ⟨before, element, rest, rfl, hbefore, helement⟩ := helements.exists_element
      obtain ⟨more, rfl⟩ := helement.exists_cons
      have hlayout : before ++ '<' :: (more ++ rest ++ '<' :: '/' :: tail) =
          front ++ '\x7b' :: back := by
        simpa using hcontent
      exact hbefore.not_mem rfl (brace_mem (hbefore.not_mem rfl) hfront hlayout)

/-- An element inside another has no brace in its text. -/
theorem not_isMarkup_of_brace (hprops : ∀ p ∈ props, IsPlain p) (hbefore : IsLayout before)
    (htag : IsPlain tag) (hattributes : DerivesAttributes props names attributes)
    (hbetween : IsLayout between) (htag' : IsPlain tag')
    (hattributes' : DerivesAttributes props names' attributes') (hfront : '<' ∉ front) :
    ¬ IsMarkup props (before ++ ('<' :: tag.toList ++ attributes ++ '>' :: (between ++
      ('<' :: tag'.toList ++ attributes' ++ '>' :: (front ++ '\x7b' :: back))))) := by
  intro h
  rcases h.opening hprops hbefore htag hattributes (.inl ⟨_, rfl⟩) with
    ⟨after, hsame, -⟩ | ⟨content, tail, hsame, h⟩
  · exact absurd (List.cons.inj hsame).1 (by decide)
  · have hcontent := (List.cons.inj hsame).2
    rcases h with hinert | helements
    · -- A text ends in a closing tag, and what follows the layout is none.
      obtain ⟨-, -, hslash⟩ := run_unique (run_of_not_mem (hbetween.not_mem rfl)) rfl
        (run_of_not_mem (hinert '<' (by simp))) rfl (by simpa using hcontent)
      cases hcs : tag'.toList with
      | nil => exact htag'.1 hcs
      | cons c cs =>
        rw [hcs] at hslash
        obtain ⟨rfl, -⟩ := List.cons.inj hslash
        cases htag'.2 '/' (by simp [hcs])
    · obtain ⟨inner, element, rest, rfl, hinner, helement⟩ := helements.exists_element
      obtain ⟨more, hmore⟩ := helement.exists_cons
      have hlayout : between ++ '<' :: (tag'.toList ++ attributes' ++ '>' ::
          (front ++ '\x7b' :: back)) = inner ++ '<' :: (more ++ rest ++ '<' :: '/' :: tail) := by
        simpa [hmore] using hcontent
      obtain ⟨-, hnext⟩ := layout_unique hbetween hinner hlayout
      have hbrace : element ++ (rest ++ '<' :: '/' :: tail) =
          '<' :: tag'.toList ++ attributes' ++ '>' :: (front ++ '\x7b' :: back) := by
        rw [hmore, List.cons_append, ← List.append_assoc, ← hnext]
        simp
      exact not_derives_of_brace hprops helement htag' hattributes' hfront hbrace

end Pictogram
