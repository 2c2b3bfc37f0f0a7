import Pictogram.Proofs.Component.PlainNames
import Pictogram.Proofs.Component.Rows
import Pictogram.Proofs.Text.Span
import Pictogram.Proofs.Text.Tidying

/-!
The grammar of the markup in a component: nested tags with layout between them, texts alone in their
elements, attributes that stand for themselves, have quoted values or refer to a prop. What a tag
holds can be taken apart in one way only, and tidying stays within the grammar.
-/

namespace Pictogram

/-- Whether a text is layout. -/
def IsLayout (cs : List Char) : Prop :=
  ∀ c ∈ cs, Text.isBlank c

instance (cs : List Char) : Decidable (IsLayout cs) :=
  inferInstanceAs (Decidable (∀ c ∈ cs, Text.isBlank c))

/-- Whether a text is no markup and no expression. -/
def IsInert (cs : List Char) : Prop :=
  ∀ special ∈ ['<', '>', '\x7b', '\x7d'], special ∉ cs

/-- What stands behind the name of an attribute. -/
inductive DerivesValue (props : List String) : List Char → Prop
  | bare : DerivesValue props []
  | quoted {value : List Char} (hvalue : '"' ∉ value) :
    DerivesValue props ('=' :: '"' :: value ++ ['"'])
  | reference {prop : String} (hprop : prop ∈ props) :
    DerivesValue props ('=' :: '\x7b' :: prop.toList ++ ['\x7d'])

/-- The attributes of a tag, with their names. -/
inductive DerivesAttributes (props : List String) : List String → List Char → Prop
  | nil : DerivesAttributes props [] []
  | cons {name : String} {names : List String} {value rest : List Char} (hname : IsPlain name)
    (hvalue : DerivesValue props value) (hnew : name ∉ names)
    (hrest : DerivesAttributes props names rest) :
    DerivesAttributes props (name :: names) (' ' :: name.toList ++ value ++ rest)

/-- The two kinds of phrases. -/
inductive Phrase where
  | element
  | elements

/-- The phrases of the grammar: an element, and elements with layout around them. -/
inductive Derives (props : List String) : Phrase → List Char → Prop
  | empty {tag : String} {names : List String} {attributes : List Char} (htag : IsPlain tag)
    (hattributes : DerivesAttributes props names attributes) :
    Derives props .element ('<' :: tag.toList ++ attributes ++ [' ', '/', '>'])
  | text {tag : String} {names : List String} {attributes text : List Char} (htag : IsPlain tag)
    (hattributes : DerivesAttributes props names attributes) (htext : IsInert text) :
    Derives props .element
      ('<' :: tag.toList ++ attributes ++ '>' :: text ++ '<' :: '/' :: tag.toList ++ ['>'])
  | nested {tag : String} {names : List String} {attributes content : List Char}
    (htag : IsPlain tag) (hattributes : DerivesAttributes props names attributes)
    (hcontent : Derives props .elements content) :
    Derives props .element
      ('<' :: tag.toList ++ attributes ++ '>' :: content ++ '<' :: '/' :: tag.toList ++ ['>'])
  | last {before element after : List Char} (hbefore : IsLayout before)
    (helement : Derives props .element element) (hafter : IsLayout after) :
    Derives props .elements (before ++ element ++ after)
  | more {before element rest : List Char} (hbefore : IsLayout before)
    (helement : Derives props .element element) (hrest : Derives props .elements rest) :
    Derives props .elements (before ++ element ++ rest)

/-- Whether a text is a single element with layout around it. -/
def IsMarkup (props : List String) (cs : List Char) : Prop :=
  ∃ before element after, cs = before ++ element ++ after ∧ IsLayout before ∧
    Derives props .element element ∧ IsLayout after

variable {props : List String} {names names' : List String} {tag tag' : String}
  {cs cs' value value' attributes attributes' rest rest' : List Char}

theorem IsLayout.sublist (h : IsLayout cs) (hsub : cs'.Sublist cs) : IsLayout cs' :=
  fun c hc => h c (hsub.subset hc)

theorem IsInert.sublist (h : IsInert cs) (hsub : cs'.Sublist cs) : IsInert cs' :=
  fun special hspecial hmem => h special hspecial (hsub.subset hmem)

/-- Every element begins with a tag. -/
theorem Derives.exists_cons (h : Derives props .element cs) : ∃ tail, cs = '<' :: tail := by
  cases h with
  | empty => exact ⟨_, rfl⟩
  | text => exact ⟨_, rfl⟩
  | nested => exact ⟨_, rfl⟩

section Tidying

open Text

theorem DerivesValue.tidied (hprops : ∀ p ∈ props, IsPlain p) (h : DerivesValue props value)
    (rest : List Char) :
    ∃ kept, tidyBefore value rest = kept ++ rest ∧ DerivesValue props kept := by
  cases h with
  | bare => exact ⟨[], rfl, .bare⟩
  | @quoted value hvalue =>
    obtain ⟨kept, hkept, hsub⟩ := exists_tidyBefore value ('"' :: rest)
    refine ⟨'=' :: '"' :: kept ++ ['"'], ?_, .quoted fun hmem => hvalue (hsub.subset hmem)⟩
    have hclose : tidyBefore ['"'] rest = '"' :: rest := tidyCons_of_not_blank (by decide) rest
    rw [tidyBefore_append, hclose, tidyBefore_cons,
      tidyBefore_cons, hkept, tidyCons_of_not_blank (by decide), tidyCons_of_not_blank (by decide)]
    simp
  | @reference prop hprop =>
    refine ⟨_, tidyBefore_of_not_blank ?_ rest, .reference hprop⟩
    refine List.forall_mem_append.2 ⟨?_, by decide⟩
    refine List.forall_mem_cons.2 ⟨by decide, List.forall_mem_cons.2 ⟨by decide, ?_⟩⟩
    exact fun c hc => isBlank_of_isNameChar ((hprops prop hprop).2 c hc)

theorem tidyBefore_name {name : String} (h : IsPlain name) (rest : List Char) :
    tidyBefore name.toList rest = name.toList ++ rest :=
  tidyBefore_of_not_blank (fun c hc => isBlank_of_isNameChar (h.2 c hc)) rest

/-- The space in front of a name is not at the end of a line. -/
theorem tidyBefore_key {name : String} (h : IsPlain name) (rest : List Char) :
    tidyBefore (' ' :: name.toList) rest = ' ' :: name.toList ++ rest := by
  obtain ⟨c, cs, hcs⟩ := List.exists_cons_of_ne_nil h.1
  have hc := h.2 c (by simp [hcs])
  rw [tidyBefore_cons, tidyBefore_name h, hcs]
  exact tidyCons_of_ne (ne_of_isNameChar hc (by decide)) ' ' _

theorem DerivesAttributes.tidied (hprops : ∀ p ∈ props, IsPlain p)
    (h : DerivesAttributes props names attributes) (rest : List Char) :
    ∃ kept, tidyBefore attributes rest = kept ++ rest ∧ DerivesAttributes props names kept := by
  induction h with
  | nil => exact ⟨[], rfl, .nil⟩
  | @cons name names value more hname hvalue hnew hmore ih =>
    obtain ⟨more', hmore', hderives⟩ := ih
    obtain ⟨value', hvalue', hderivesValue⟩ := hvalue.tidied hprops (more' ++ rest)
    refine ⟨' ' :: name.toList ++ value' ++ more', ?_, .cons hname hderivesValue hnew hderives⟩
    rw [tidyBefore_append, tidyBefore_append, hmore', hvalue', tidyBefore_key hname]
    simp

theorem tidyBefore_closing (htag : IsPlain tag) (rest : List Char) :
    tidyBefore ('<' :: '/' :: tag.toList ++ ['>']) rest =
      '<' :: '/' :: tag.toList ++ ['>'] ++ rest := by
  apply tidyBefore_of_not_blank
  refine List.forall_mem_append.2 ⟨?_, by decide⟩
  refine List.forall_mem_cons.2 ⟨by decide, List.forall_mem_cons.2 ⟨by decide, ?_⟩⟩
  exact fun c hc => isBlank_of_isNameChar (htag.2 c hc)

theorem tidyBefore_empty (rest : List Char) :
    tidyBefore [' ', '/', '>'] rest = [' ', '/', '>'] ++ rest := by
  rw [tidyBefore_cons, tidyBefore_of_not_blank (by decide)]
  exact tidyCons_of_ne (by decide) ' ' _

/-- Tidying leaves the tag that opens an element a tag. -/
theorem tidyBefore_opening (hprops : ∀ p ∈ props, IsPlain p) (htag : IsPlain tag)
    (h : DerivesAttributes props names attributes) (rest : List Char) :
    ∃ kept, tidyBefore ('<' :: tag.toList ++ attributes) rest = '<' :: tag.toList ++ kept ++ rest ∧
      DerivesAttributes props names kept := by
  obtain ⟨kept, hkept, hderives⟩ := h.tidied hprops rest
  refine ⟨kept, ?_, hderives⟩
  rw [tidyBefore_append, hkept, tidyBefore_cons, tidyBefore_name htag,
    tidyCons_of_not_blank (by decide), List.append_assoc, List.cons_append]

/-- What has been derived can still be derived when it has been tidied. -/
theorem Derives.tidied (hprops : ∀ p ∈ props, IsPlain p) {phrase : Phrase}
    (h : Derives props phrase cs) (rest : List Char) :
    ∃ kept, Text.tidyBefore cs rest = kept ++ rest ∧ Derives props phrase kept := by
  induction h generalizing rest with
  | @empty tag names attributes htag hattributes =>
    obtain ⟨kept, hkept, hderives⟩ :=
      tidyBefore_opening hprops htag hattributes ([' ', '/', '>'] ++ rest)
    refine ⟨_, ?_, .empty htag hderives⟩
    rw [tidyBefore_append, tidyBefore_empty, hkept]
    simp
  | @text tag names attributes text htag hattributes htext =>
    obtain ⟨text', htext', hsub⟩ :=
      exists_tidyBefore text ('<' :: '/' :: tag.toList ++ ['>'] ++ rest)
    obtain ⟨kept, hkept, hderives⟩ := tidyBefore_opening hprops htag hattributes
      ('>' :: (text' ++ ('<' :: '/' :: tag.toList ++ ['>'] ++ rest)))
    refine ⟨_, ?_, .text htag hderives (htext.sublist hsub)⟩
    rw [List.append_assoc, tidyBefore_append, tidyBefore_closing htag, tidyBefore_append,
      tidyBefore_cons, htext', tidyCons_of_not_blank (by decide), hkept]
    simp
  | @nested tag names attributes content htag hattributes hcontent ih =>
    obtain ⟨content', hcontent', hderives'⟩ := ih ('<' :: '/' :: tag.toList ++ ['>'] ++ rest)
    obtain ⟨kept, hkept, hderives⟩ := tidyBefore_opening hprops htag hattributes
      ('>' :: (content' ++ ('<' :: '/' :: tag.toList ++ ['>'] ++ rest)))
    refine ⟨_, ?_, .nested htag hderives hderives'⟩
    rw [List.append_assoc, tidyBefore_append, tidyBefore_closing htag, tidyBefore_append,
      tidyBefore_cons, hcontent', tidyCons_of_not_blank (by decide), hkept]
    simp
  | @last before element after hbefore helement hafter ih =>
    obtain ⟨after', hafter', hsub⟩ := exists_tidyBefore after rest
    obtain ⟨element', helement', hderives⟩ := ih (after' ++ rest)
    obtain ⟨before', hbefore', hsub'⟩ := exists_tidyBefore before (element' ++ (after' ++ rest))
    refine ⟨_, ?_, .last (hbefore.sublist hsub') hderives (hafter.sublist hsub)⟩
    rw [tidyBefore_append, tidyBefore_append, hafter', helement', hbefore']
    simp
  | @more before element rest' hbefore helement hrest ihElement ihRest =>
    obtain ⟨more', hmore', hderives'⟩ := ihRest rest
    obtain ⟨element', helement', hderives⟩ := ihElement (more' ++ rest)
    obtain ⟨before', hbefore', hsub⟩ := exists_tidyBefore before (element' ++ (more' ++ rest))
    refine ⟨_, ?_, .more (hbefore.sublist hsub) hderives hderives'⟩
    rw [tidyBefore_append, tidyBefore_append, hmore', helement', hbefore']
    simp

theorem IsMarkup.tidied (hprops : ∀ p ∈ props, IsPlain p) (h : IsMarkup props cs)
    (rest : List Char) :
    ∃ kept, tidyBefore cs rest = kept ++ rest ∧ IsMarkup props kept := by
  obtain ⟨before, element, after, rfl, hbefore, helement, hafter⟩ := h
  obtain ⟨after', hafter', hsub⟩ := exists_tidyBefore after rest
  obtain ⟨element', helement', hderives⟩ := helement.tidied hprops (after' ++ rest)
  obtain ⟨before', hbefore', hsub'⟩ := exists_tidyBefore before (element' ++ (after' ++ rest))
  refine ⟨before' ++ element' ++ after', ?_, before', element', after', rfl,
    hbefore.sublist hsub', hderives, hafter.sublist hsub⟩
  rw [tidyBefore_append, tidyBefore_append, hafter', helement', hbefore']
  simp

end Tidying

section Unique

/-- What may follow the attributes of a tag. -/
def EndsTag (rest : List Char) : Prop :=
  (∃ more, rest = '>' :: more) ∨ ∃ more, rest = ' ' :: '/' :: more

theorem EndsTag.followsAttribute (h : EndsTag rest) : FollowsAttribute rest := by
  rcases h with ⟨more, rfl⟩ | ⟨more, rfl⟩
  · exact .inr rfl
  · exact .inl rfl

theorem DerivesAttributes.followsAttribute (h : DerivesAttributes props names attributes)
    (hrest : EndsTag rest) : FollowsAttribute (attributes ++ rest) := by
  cases h with
  | nil => exact hrest.followsAttribute
  | cons => exact .inl rfl

theorem exists_of_followsAttribute (h : FollowsAttribute rest) :
    ∃ stop more, rest = stop :: more ∧ stop ≠ '=' ∧ isNameChar stop = false := by
  rcases h with h | h
  · obtain ⟨more, rfl⟩ := List.head?_eq_some_iff.1 h
    exact ⟨' ', more, rfl, by decide, rfl⟩
  · obtain ⟨more, rfl⟩ := List.head?_eq_some_iff.1 h
    exact ⟨'>', more, rfl, by decide, rfl⟩

/-- A value and what follows it begin with no character of a name. -/
theorem DerivesValue.exists_stop (h : DerivesValue props value) (hrest : FollowsAttribute rest) :
    ∃ stop more, value ++ rest = stop :: more ∧ isNameChar stop = false := by
  cases h with
  | bare =>
    obtain ⟨stop, more, rfl, -, hstop⟩ := exists_of_followsAttribute hrest
    exact ⟨stop, more, rfl, hstop⟩
  | quoted => exact ⟨'=', _, rfl, rfl⟩
  | reference => exact ⟨'=', _, rfl, rfl⟩

theorem DerivesValue.unique (hprops : ∀ p ∈ props, IsPlain p) (h : DerivesValue props value)
    (h' : DerivesValue props value') (hrest : FollowsAttribute rest)
    (hrest' : FollowsAttribute rest') (heq : value ++ rest = value' ++ rest') : value = value' := by
  obtain ⟨stop, more, rfl, hequals, -⟩ := exists_of_followsAttribute hrest
  obtain ⟨stop', more', rfl, hequals', -⟩ := exists_of_followsAttribute hrest'
  cases h with
  | bare =>
    cases h' with
    | bare => rfl
    | quoted => exact absurd (List.cons.inj heq).1 hequals
    | reference => exact absurd (List.cons.inj heq).1 hequals
  | @quoted value hvalue =>
    cases h' with
    | bare => exact absurd (List.cons.inj heq).1.symm hequals'
    | @quoted value' hvalue' =>
      have htail : value ++ '"' :: stop :: more = value' ++ '"' :: stop' :: more' := by
        simpa using heq
      obtain ⟨rfl, -⟩ := Text.run_unique (Text.run_of_not_mem hvalue) (by simp)
        (Text.run_of_not_mem hvalue') (by simp) htail
      rfl
    | reference => exact absurd (List.cons.inj (List.cons.inj heq).2).1 (by decide)
  | @reference prop hprop =>
    cases h' with
    | bare => exact absurd (List.cons.inj heq).1.symm hequals'
    | quoted => exact absurd (List.cons.inj (List.cons.inj heq).2).1 (by decide)
    | @reference prop' hprop' =>
      have htail : prop.toList ++ '\x7d' :: stop :: more =
          prop'.toList ++ '\x7d' :: stop' :: more' := by
        simpa using heq
      obtain ⟨hsame, -⟩ :=
        Text.run_unique (hprops prop hprop).2 rfl (hprops prop' hprop').2 rfl htail
      rw [hsame]

/-- A name ends where something other than its characters stands. -/
theorem name_unique {name name' : String} (h : IsPlain name) (h' : IsPlain name')
    (hrest : ∃ stop more, rest = stop :: more ∧ isNameChar stop = false)
    (hrest' : ∃ stop more, rest' = stop :: more ∧ isNameChar stop = false)
    (heq : name.toList ++ rest = name'.toList ++ rest') : name = name' ∧ rest = rest' := by
  obtain ⟨stop, more, rfl, hstop⟩ := hrest
  obtain ⟨stop', more', rfl, hstop'⟩ := hrest'
  obtain ⟨hsame, rfl, rfl⟩ := Text.run_unique h.2 hstop h'.2 hstop' heq
  exact ⟨String.toList_inj.1 hsame, rfl⟩

/-- No name begins where a tag ends. -/
theorem not_name_of_endsTag {name : String} (hname : IsPlain name) (hrest : EndsTag rest) :
    rest ≠ ' ' :: name.toList ++ cs := by
  rintro heq
  rcases hrest with ⟨more, rfl⟩ | ⟨more, rfl⟩
  · exact absurd (List.cons.inj heq).1 (by decide)
  · have htail := (List.cons.inj heq).2
    cases hcs : name.toList with
    | nil => exact hname.1 hcs
    | cons c tail =>
      rw [hcs] at htail
      have hc := hname.2 c (by simp [hcs])
      exact ne_of_isNameChar hc (by decide) (List.cons.inj htail).1.symm

/-- The attributes of a tag can be told from what follows them. -/
theorem DerivesAttributes.unique (hprops : ∀ p ∈ props, IsPlain p)
    (h : DerivesAttributes props names attributes) (h' : DerivesAttributes props names' attributes')
    (hrest : EndsTag rest) (hrest' : EndsTag rest')
    (heq : attributes ++ rest = attributes' ++ rest') :
    attributes = attributes' ∧ rest = rest' := by
  induction h generalizing names' attributes' with
  | nil =>
    cases h' with
    | nil => exact ⟨rfl, heq⟩
    | cons hname =>
      refine absurd heq ?_
      simpa using not_name_of_endsTag hname hrest
  | @cons name names value more hname hvalue hnew hmore ih =>
    cases h' with
    | nil =>
      refine absurd heq.symm ?_
      simpa using not_name_of_endsTag hname hrest'
    | @cons name' names' value' more' hname' hvalue' hnew' hmore' =>
      have hfollows := hmore.followsAttribute hrest
      have hfollows' := hmore'.followsAttribute hrest'
      have htail : name.toList ++ (value ++ (more ++ rest)) =
          name'.toList ++ (value' ++ (more' ++ rest')) := by simpa using heq
      obtain ⟨rfl, hvalues⟩ := name_unique hname hname' (hvalue.exists_stop hfollows)
        (hvalue'.exists_stop hfollows') htail
      obtain rfl := hvalue.unique hprops hvalue' hfollows hfollows' hvalues
      obtain ⟨rfl, hsame⟩ := ih hmore' (List.append_cancel_left hvalues)
      exact ⟨rfl, hsame⟩

/-- The name and the attributes of a tag can be told from what follows them. -/
theorem opening_unique (hprops : ∀ p ∈ props, IsPlain p) (htag : IsPlain tag) (htag' : IsPlain tag')
    (h : DerivesAttributes props names attributes) (h' : DerivesAttributes props names' attributes')
    (hrest : EndsTag rest) (hrest' : EndsTag rest')
    (heq : '<' :: tag.toList ++ attributes ++ rest = '<' :: tag'.toList ++ attributes' ++ rest') :
    tag = tag' ∧ attributes = attributes' ∧ rest = rest' := by
  have hstop : ∀ {cs : List Char}, FollowsAttribute cs →
      ∃ stop more, cs = stop :: more ∧ isNameChar stop = false := by
    intro cs hcs
    obtain ⟨stop, more, hcons, -, hstop⟩ := exists_of_followsAttribute hcs
    exact ⟨stop, more, hcons, hstop⟩
  have htail : tag.toList ++ (attributes ++ rest) = tag'.toList ++ (attributes' ++ rest') := by
    simpa using heq
  obtain ⟨rfl, hattributes⟩ := name_unique htag htag' (hstop (h.followsAttribute hrest))
    (hstop (h'.followsAttribute hrest')) htail
  exact ⟨rfl, h.unique hprops h' hrest hrest' hattributes⟩

end Unique

end Pictogram
