import Pictogram.Component.Source
import Pictogram.Proofs.Component.Escaping
import Pictogram.Proofs.Component.PlainNames
import Pictogram.Proofs.Component.Replacing
import Pictogram.Proofs.Component.Rows
import Pictogram.Proofs.Text.Lowercase

/-!
What a pass of templating goes over in a printed body: leads, tags, other attributes, and values and
texts that do not look like its attribute. Templating a body is a run of such passes.
-/

namespace Pictogram

open Templating

/-- What usages must be like: their attributes have plain names, and nothing ends a reference. -/
structure Usage.Plain (u : Usage) : Prop where
  target : IsPlain u.target
  reference : Text.Neat u.reference

instance (u : Usage) : Decidable u.Plain :=
  decidable_of_iff (IsPlain u.target ∧ Text.Neat u.reference)
    ⟨fun ⟨htarget, hreference⟩ => ⟨htarget, hreference⟩, fun h => ⟨h.target, h.reference⟩⟩

/-- The usages of every schema that flags ask for are plain. -/
theorem plain_usages (flags : PropFlags) : ∀ u ∈ (PropSchema.ofFlags flags).usages, u.Plain := by
  obtain ⟨width, height, className, color⟩ := flags
  revert width height className color
  decide +kernel

/-- Whether a value ends in a blank, a name and an equals sign. -/
def EndsIn (name value : String) : Prop :=
  ∃ before c, Text.isBlank c ∧ value.toList = before ++ c :: (name.toList ++ ['='])

theorem not_endsIn_of_not_mem {name value : String} (h : '=' ∉ value.toList) :
    ¬ EndsIn name value := by
  rintro ⟨before, c, -, heq⟩
  exact h (by simp [heq])

/-- Whether a text has, behind a blank, a name with an equals sign and a double quote. -/
def Mentions (name text : String) : Prop :=
  ∃ before c after, Text.isBlank c ∧
    text.toList = before ++ c :: (name.toList ++ '=' :: '"' :: after)

theorem not_mentions_of_not_mem {name text : String} (h : '=' ∉ text.toList) :
    ¬ Mentions name text := by
  rintro ⟨before, c, after, -, heq⟩
  exact h (by simp [heq])

theorem Text.Neat.not_blank {text : String} (h : Text.Neat text) :
    ∀ c ∈ text.toList, Text.isBlank c = false := by
  intro c hc
  have hfit := h c hc
  rw [Text.isUnfit, Bool.or_eq_false_iff] at hfit
  exact hfit.1

theorem Text.Neat.quote_not_mem {text : String} (h : Text.Neat text) : '"' ∉ text.toList := by
  intro hmem
  cases h '"' hmem

theorem IsPlain.neat {name : String} (h : IsPlain name) : Text.Neat name := by
  intro c hc
  rw [Text.isUnfit, isBlank_of_isNameChar (h.2 c hc), Bool.false_or, beq_eq_false_iff_ne]
  exact ne_of_isNameChar (h.2 c hc) (by decide)

theorem Text.Neat.translate {name : String} (h : Text.Neat name) :
    Text.Neat (AttributeName.translate name) := by
  rcases translate_or_plain name with hkept | hplain
  · rwa [hkept]
  · exact hplain.neat

section Pass

variable {name : String} (hname : IsPlain name)
include hname

theorem not_mem_pattern {stop : Char} (hstop : isNameChar stop = false) (hequals : stop ≠ '=')
    (hquote : stop ≠ '"') : stop ∉ pattern name.toList := by
  intro hmem
  simp only [pattern, List.mem_append, List.mem_cons, List.not_mem_nil, or_false] at hmem
  rcases hmem with hmem | hmem | hmem
  · rw [hname.2 stop hmem] at hstop
    cases hstop
  · exact hequals hmem
  · exact hquote hmem

/-- Behind the lead of a row its tag begins, and no attribute. -/
theorem passed_lead (depth : Nat) (rest : List Char) :
    Passed name.toList (lead depth) ('<' :: rest) := by
  intro before c after heq hc
  have hafter : ∀ d ∈ after, d = ' ' := by
    intro d hd
    cases before with
    | nil =>
      obtain ⟨-, rfl⟩ := List.cons.inj heq
      exact (List.mem_replicate.1 hd).2
    | cons b before =>
      obtain ⟨-, hspaces⟩ := List.cons.inj heq
      have hmem : d ∈ indentation depth := by rw [show indentation depth = _ from hspaces]; simp [hd]
      exact (List.mem_replicate.1 hmem).2
  refine not_prefix_of_stop ?_ (not_mem_pattern hname (by decide) (by decide) (by decide)) rest
  intro hmem
  cases hafter '"' hmem

/-- The name of another attribute and the quote in front of its value are no match. -/
theorem passed_key {key : String} (hkey : Text.Neat key) (hne : name ≠ key) (rest : List Char) :
    Passed name.toList (' ' :: key.toList ++ ['=', '"']) rest := by
  have hspace : Passed name.toList [' '] (key.toList ++ ['=', '"'] ++ rest) := by
    intro before c after heq hc hprefix
    have hafter : after = [] := by
      cases before with
      | nil => exact (List.cons.inj heq).2.symm
      | cons b before => simp at heq
    rw [hafter, List.nil_append, show key.toList ++ ['=', '"'] ++ rest =
      (key.toList ++ ['=']) ++ '"' :: rest by simp] at hprefix
    have hquote : '"' ∉ key.toList ++ ['='] := by simp [hkey.quote_not_mem]
    have hsame := (prefix_quote_iff hname.neat.quote_not_mem hquote).1 hprefix
    exact hne (String.toList_inj.1 (List.append_cancel_right hsame)).symm
  refine hspace.append (passed_of_not_blank ?_ rest)
  exact List.forall_mem_append.2 ⟨hkey.not_blank, by decide⟩

/-- Between double quotes a pass finds nothing, unless the value ends in the beginning of an
attribute. -/
theorem passed_value {value : String} (hvalue : ¬ EndsIn name value) (rest : List Char) :
    Passed name.toList (value.toList.flatMap PrintedAttribute.escapeChar) ('"' :: rest) := by
  intro before c after heq hc hprefix
  have hquote : '"' ∉ after := by
    intro hmem
    apply not_mem_escape quote_not_mem_escapeChar value.toList
    rw [heq]
    simp [hmem]
  have hafter := (prefix_quote_iff hname.neat.quote_not_mem hquote).1 hprefix
  obtain ⟨before', after', hsplit, hescaped⟩ := escapes_escapeChar.blank hc heq
  have hand : '&' ∉ name.toList ++ ['='] := by
    intro hmem
    rcases List.mem_append.1 hmem with hmem | hmem
    · cases hname.2 '&' hmem
    · simp at hmem
  rw [hafter, ← List.append_nil (name.toList ++ ['='])] at hescaped
  obtain ⟨last, rfl, hlast⟩ := escapes_escapeChar.literal hand hescaped
  obtain rfl := escapes_escapeChar.eq_nil hlast
  exact hvalue ⟨before', c, hc, by simpa using hsplit⟩

/-- In another attribute a pass finds nothing, unless its value ends in the beginning of one. -/
theorem passed_other {key value : String} (hkey : Text.Neat key) (hne : name ≠ key)
    (hvalue : ¬ EndsIn name value) (rest : List Char) :
    Passed name.toList (' ' :: key.toList ++ '=' :: '"' ::
      value.toList.flatMap PrintedAttribute.escapeChar ++ ['"']) rest := by
  have hfront := passed_key hname hkey hne
    (value.toList.flatMap PrintedAttribute.escapeChar ++ '"' :: rest)
  have hclose : Passed name.toList ['"'] rest := passed_of_not_blank (by decide) rest
  have hquoted : Passed name.toList (' ' :: key.toList ++ ['=', '"'] ++
      value.toList.flatMap PrintedAttribute.escapeChar) (['"'] ++ rest) :=
    hfront.append (passed_value hname hvalue rest)
  have hall := hquoted.append hclose
  simpa only [List.append_assoc, List.cons_append, List.nil_append] using hall

/-- The space before a closing slash is no match. -/
theorem passed_close (rest : List Char) : Passed name.toList [' ', '/', '>'] rest := by
  have hslash : '/' ∉ pattern name.toList :=
    not_mem_pattern hname (by decide) (by decide) (by decide)
  have hspace : Passed name.toList [' '] ('/' :: '>' :: rest) := by
    intro before c after heq hc
    cases before with
    | nil =>
      obtain ⟨rfl, rfl⟩ := List.cons.inj heq
      exact not_prefix_of_stop (show '"' ∉ [] by simp) hslash _
    | cons b before => simp at heq
  have hbracket : ∀ c ∈ ['/', '>'], Text.isBlank c = false := by decide
  exact hspace.append (passed_of_not_blank hbracket rest)

/-- In an escaped text a pass finds nothing, unless the text has something like an attribute. -/
theorem passed_text {text : String} (htext : ¬ Mentions name text) (rest : List Char) :
    Passed name.toList (text.toList.flatMap escapeTextChar) ('<' :: rest) := by
  intro before c after heq hc hprefix
  have hless : '<' ∉ pattern name.toList :=
    not_mem_pattern hname (by decide) (by decide) (by decide)
  obtain ⟨extra, rfl⟩ := prefix_of_stop hless hprefix
  obtain ⟨before', after', hsplit, hescaped⟩ := escapes_escapeTextChar.blank hc heq
  have hand : '&' ∉ pattern name.toList :=
    not_mem_pattern hname (by decide) (by decide) (by decide)
  obtain ⟨last, rfl, -⟩ := escapes_escapeTextChar.literal hand hescaped
  exact htext ⟨before', c, last, hc, by simpa [pattern] using hsplit⟩

/-- A text that begins with a space begins with no attribute. -/
theorem not_prefix_space (tail : List Char) : ¬ pattern name.toList <+: ' ' :: tail :=
  not_prefix_of_stop (show '"' ∉ [] by simp)
    (not_mem_pattern hname (by decide) (by decide) (by decide)) tail

end Pass

/-- There is no attribute where a body starts, so that a pass over it is a pass over its rows. -/
theorem led_replaceValues {u : Usage} (hu : u.Plain) (tail : List Char) :
    '\n' :: replaceValues u.target.toList u.reference.toList (' ' :: tail) =
      replaceBehindBlanks u.target.toList u.reference.toList ('\n' :: ' ' :: tail) := by
  have hnone := not_prefix_space hu.target tail
  rw [replaceBehindBlanks_cons fun _ => hnone, replaceValues, afterAttribute_of_not_prefix hnone]

theorem exists_replaceValues {u : Usage} (hu : u.Plain) (tail : List Char) :
    ∃ more, replaceValues u.target.toList u.reference.toList (' ' :: tail) = ' ' :: more := by
  have hled := led_replaceValues hu tail
  rw [replaceBehindBlanks_cons fun _ => not_prefix_space hu.target tail] at hled
  obtain ⟨more, hmore⟩ := exists_replaceBehindBlanks u.target.toList u.reference.toList ' ' tail
  exact ⟨more, (List.cons.inj hled).2.trans hmore⟩

/-- Templating a body with a line break in front is a run of passes. -/
theorem led_applyChars {usages : List Usage} (husages : ∀ u ∈ usages, u.Plain) (tail : List Char) :
    '\n' :: applyChars usages (' ' :: tail) = passes usages ('\n' :: ' ' :: tail) := by
  induction usages generalizing tail with
  | nil => rfl
  | cons u usages ih =>
    obtain ⟨hu, hmore⟩ := List.forall_mem_cons.1 husages
    have hpass := led_replaceValues hu tail
    obtain ⟨more, hmore'⟩ := exists_replaceValues hu tail
    rw [passes_cons, ← hpass, hmore', ← ih hmore more, ← hmore']
    rfl

theorem led_apply {usages : List Usage} (husages : ∀ u ∈ usages, u.Plain) (depth : Nat)
    (e : Element) :
    '\n' :: (Templating.apply usages (e.render depth)).toList =
      passes usages ('\n' :: (e.render depth).toList) := by
  obtain ⟨tail, htail⟩ := renderChars_eq depth e
  have hspace : ∃ more, (e.render depth).toList = ' ' :: more := by
    rw [Element.render, String.toList_ofList, htail]
    exact ⟨_, rfl⟩
  obtain ⟨more, hmore⟩ := hspace
  rw [Templating.apply, String.toList_ofList, hmore, led_applyChars husages]

end Pictogram
