import Mathlib.Data.List.Basic
import Pictogram.Component.Source
import Pictogram.Proofs.Component.Grammar
import Pictogram.Proofs.Text.Span
import Pictogram.Proofs.Text.Tidying

/-!
What a source returns. The interface and the signature in front of it hold a single bracket that
opens, right behind the name of the component, so that the first `return (` of a source is the one
that the body follows.
-/

namespace Pictogram

open Text

/-- Whether a source returns markup, from its first `return (` to the end of its function. -/
def ReturnsMarkup (props : List String) (source : String) : Prop :=
  ∃ before body, splitAround? "return (".toList source.toList =
    some (before, body ++ ");\n\x7d\n".toList) ∧ IsMarkup props body

namespace Component

/-- What a source says in front of the name of its function. -/
def heading (dialect : Dialect) (name : String) (schema : PropSchema) : String :=
  let interface := schema.interfaceText dialect name
  (if interface = "" then "" else interface ++ "\n\n") ++ "export function "

/-- What a source says between the bracket behind its name and its `return (`. -/
def signature (dialect : Dialect) (name : String) (schema : PropSchema) : String :=
  schema.paramsText dialect name ++ ") \x7b\n  "

/-- The body with the line breaks and the spaces around it. -/
def returned (root : Element) (schema : PropSchema) : List Char :=
  '\n' :: (body root schema).toList ++ ['\n', ' ', ' ']

theorem assemble_eq (dialect : Dialect) (name : String) (root : Element) (schema : PropSchema) :
    (assemble dialect name schema (body root schema)).toList =
      (heading dialect name schema).toList ++ (name.toList ++ ['(']) ++
        (signature dialect name schema).toList ++ "return (".toList ++ returned root schema ++
        ");\n".toList ++ ['\x7d', '\n'] := by
  simp [assemble, heading, signature, returned, String.toList_append]

theorem onlyIf_subset (asked : Bool) (s : PropSchema) : (s.onlyIf asked).props ⊆ s.props := by
  cases asked
  · exact List.nil_subset _
  · exact List.Subset.refl _

/-- No choice of flags brings a prop that all of them together do not. -/
theorem props_ofFlags_subset (flags : PropFlags) :
    (PropSchema.ofFlags flags).props ⊆ (PropSchema.ofFlags .all).props := by
  have happend : ∀ {s s' t t' : PropSchema}, s.props ⊆ s'.props → t.props ⊆ t'.props →
      (s ++ t).props ⊆ (s' ++ t').props := fun hs ht =>
    List.append_subset.2 ⟨fun _ hp => List.mem_append_left _ (hs hp),
      fun _ hp => List.mem_append_right _ (ht hp)⟩
  exact happend (happend (happend (onlyIf_subset _ _) (onlyIf_subset _ _)) (onlyIf_subset _ _))
    (onlyIf_subset _ _)

theorem not_mem_props : ∀ p ∈ (PropSchema.ofFlags .all).props,
    '(' ∉ p.name.toList ∧ '(' ∉ p.kind.annotation.toList ∧ '(' ∉ p.binding.toList := by
  decide +kernel

theorem not_mem_fields (flags : PropFlags) :
    '(' ∉ (String.join ((PropSchema.ofFlags flags).props.map fun p =>
      "  " ++ p.name ++ "?: " ++ p.kind.annotation ++ ";\n")).toList := by
  rw [String.toList_join, List.flatMap_map]
  intro hmem
  obtain ⟨p, hp, hfield⟩ := List.mem_flatMap.1 hmem
  obtain ⟨hname, hannotation, -⟩ := not_mem_props p (props_ofFlags_subset flags hp)
  simp [String.toList_append, hname, hannotation] at hfield

theorem not_mem_bindings (flags : PropFlags) :
    '(' ∉ (", ".intercalate ((PropSchema.ofFlags flags).props.map (·.binding))).toList := by
  refine not_mem_intercalate (by decide) ?_
  intro binding hbinding
  obtain ⟨p, hp, rfl⟩ := List.mem_map.1 hbinding
  exact (not_mem_props p (props_ofFlags_subset flags hp)).2.2

section Name

variable {name : String} (hname : '(' ∉ name.toList)
include hname

theorem not_mem_heading (dialect : Dialect) (flags : PropFlags) :
    '(' ∉ (heading dialect name (.ofFlags flags)).toList := by
  have hinterface : '(' ∉ ((PropSchema.ofFlags flags).interfaceText dialect name).toList := by
    rw [PropSchema.interfaceText]
    split
    · simp
    · simp only [String.toList_append, PropSchema.interfaceName, List.mem_append, not_or]
      exact ⟨⟨⟨⟨by decide, hname, by decide⟩, by decide⟩, not_mem_fields flags⟩, by decide⟩
  rw [heading, String.toList_append, List.mem_append, not_or]
  refine ⟨?_, by decide⟩
  split
  · simp
  · simp [String.toList_append, hinterface]

theorem not_mem_signature (dialect : Dialect) (flags : PropFlags) :
    '(' ∉ (signature dialect name (.ofFlags flags)).toList := by
  have hparams : '(' ∉ ((PropSchema.ofFlags flags).paramsText dialect name).toList := by
    rw [PropSchema.paramsText]
    split
    · simp
    · have hpattern := not_mem_bindings flags
      cases dialect <;>
        simp only [String.toList_append, PropSchema.interfaceName, List.mem_append, not_or]
      · exact ⟨⟨⟨⟨by decide, hpattern⟩, by decide⟩, by decide⟩, hname, by decide⟩
      · exact ⟨⟨by decide, hpattern⟩, by decide⟩
  rw [signature, String.toList_append, List.mem_append, not_or]
  exact ⟨hparams, by decide⟩

end Name

end Component

/-- A name that is accepted has neither blanks nor brackets, and there is something of it. -/
theorem Options.isPart_of_validate {options : Options} (h : options.validate = .ok ()) :
    options.name.toList ≠ [] ∧ ∀ c ∈ options.name.toList, ComponentName.isPart c := by
  have hvalid : ComponentName.isValid options.name := by
    rw [validate] at h
    split at h
    next hvalid => exact hvalid
    next => cases h
  rw [ComponentName.isValid] at hvalid
  split at hvalid
  next => cases hvalid
  next c cs heq =>
    rw [Bool.and_eq_true, List.all_eq_true] at hvalid
    obtain ⟨hstart, hparts⟩ := hvalid
    refine ⟨by simp [heq], ?_⟩
    rw [heq, List.forall_mem_cons]
    refine ⟨?_, hparts⟩
    simp only [ComponentName.isStart, ComponentName.isPart, Char.isAlphanum, Bool.or_eq_true]
      at hstart ⊢
    tauto

theorem ComponentName.isBlank_of_isPart {c : Char} (h : isPart c) : Text.isBlank c = false := by
  rw [isPart, Bool.or_eq_true, Bool.or_eq_true] at h
  rcases h with (halnum | hunder) | hdollar
  · exact isBlank_of_isNameChar (by simp [isNameChar, halnum])
  · rw [beq_iff_eq] at hunder
    subst hunder
    rfl
  · rw [beq_iff_eq] at hdollar
    subst hdollar
    rfl

/-- A piece that ends in a blank and a bracket is not found in front of a text whose only bracket
stands behind something else. -/
theorem splitAround?_signed {word front name back : List Char} (rest : List Char) (hword : '(' ∉ word)
    (hfront : '(' ∉ front) (hname : '(' ∉ name) (hback : '(' ∉ back)
    (hlast : (front ++ name).getLast? ≠ some ' ') :
    splitAround? (word ++ [' ', '(']) (front ++ (name ++ ['(']) ++ back ++
      ((word ++ [' ', '(']) ++ rest)) = some (front ++ (name ++ ['(']) ++ back, rest) := by
  apply splitAround?_of_first
  rintro before after hsplit hafter ⟨more, hfound⟩
  have hword' : '(' ∉ word ++ [' '] := by simp [hword]
  rcases run_or_stop (· != '(') after with hall | ⟨spaced, stop, tail, rfl, hspaced, hstop⟩
  · have hnone : '(' ∉ after ++ word ++ [' '] := by
      have hafter' : '(' ∉ after := fun hmem => by simpa using hall '(' hmem
      simp [hafter', hword]
    have htail : word ++ [' '] ++ '(' :: more = after ++ word ++ [' '] ++ '(' :: rest := by
      simpa using hfound
    obtain ⟨hsame, -⟩ := run_unique (run_of_not_mem hword') (by simp) (run_of_not_mem hnone)
      (by simp) htail
    have hlength := congrArg List.length hsame
    simp at hlength
    exact hafter hlength
  · -- The bracket that was found is the one behind the name.
    obtain rfl : stop = '(' := by simpa using hstop
    have htail : word ++ [' '] ++ '(' :: more =
        spaced ++ '(' :: (tail ++ (word ++ [' ', '('] ++ rest)) := by
      simpa using hfound
    obtain ⟨rfl, -⟩ := run_unique (run_of_not_mem hword') (by simp) hspaced (by simp) htail
    have hsides : front ++ name ++ '(' :: back = before ++ word ++ [' '] ++ '(' :: tail := by
      simpa using hsplit
    obtain ⟨hsame, -⟩ := (List.append_cons_inj_of_notMem (by simp [hfront, hname]) hback).1 hsides
    rw [hsame, List.getLast?_append] at hlast
    exact hlast rfl

namespace Component

/-- What a body is followed by, up to the last line break. -/
def footing : List Char :=
  ");\n\x7d".toList

/-- A source is tidied from its end, and stays as it is around its `return (`. -/
theorem toList_source (root : Element) {options : Options} (h : options.validate = .ok ()) :
    ∃ front back, '(' ∉ front ∧ '(' ∉ back ∧ (source root options).toList =
      front ++ (options.name.toList ++ ['(']) ++ back ++ ("return".toList ++ [' ', '('] ++
        (tidyBefore (returned root (.ofFlags options.props)) footing ++ ['\n'])) := by
  obtain ⟨-, hparts⟩ := Options.isPart_of_validate h
  have hname : '(' ∉ options.name.toList := fun hmem => by cases hparts '(' hmem
  have hsigned : ∀ c ∈ options.name.toList ++ ['('], isBlank c = false :=
    List.forall_mem_append.2
      ⟨fun c hc => ComponentName.isBlank_of_isPart (hparts c hc), by decide⟩
  have hreturn : ∀ rest, tidyBefore "return (".toList rest =
      "return".toList ++ [' ', '('] ++ rest := by
    intro rest
    have hspace : tidyCons ' ' ('(' :: rest) = ' ' :: '(' :: rest := tidyCons_of_ne (by decide) _ _
    have hbracket : tidyBefore ['('] rest = '(' :: rest := tidyCons_of_not_blank (by decide) rest
    rw [show "return (".toList = "return".toList ++ [' ', '('] from rfl, tidyBefore_append,
      tidyBefore_cons, hbracket, hspace, tidyBefore_of_not_blank (by decide)]
    simp
  obtain ⟨back, hback, hsubBack⟩ := exists_tidyBefore
    (signature options.dialect options.name (.ofFlags options.props)).toList
    ("return".toList ++ [' ', '('] ++ tidyBefore (returned root (.ofFlags options.props)) footing)
  obtain ⟨front, hfront, hsubFront⟩ := exists_tidyBefore
    (heading options.dialect options.name (.ofFlags options.props)).toList
    (options.name.toList ++ ['('] ++ (back ++ ("return".toList ++ [' ', '('] ++
      tidyBefore (returned root (.ofFlags options.props)) footing)))
  refine ⟨front, back, fun hmem => not_mem_heading hname _ _ (hsubFront.subset hmem),
    fun hmem => not_mem_signature hname _ _ (hsubBack.subset hmem), ?_⟩
  have hend : tidyBefore ");\n".toList ['\x7d'] = footing := by decide
  rw [source, tidy, String.toList_ofList, assemble_eq, tidyChars_concat (by decide)]
  rw [tidyBefore_append, hend, tidyBefore_append, tidyBefore_append, hreturn, tidyBefore_append,
    hback, tidyBefore_append, tidyBefore_of_not_blank hsigned, hfront]
  simp only [List.append_assoc]

/-- What stands behind the first `return (` of a source. -/
theorem splitAround?_source (root : Element) {options : Options} (h : options.validate = .ok ()) :
    ∃ before, splitAround? "return (".toList (source root options).toList = some (before,
      tidyBefore (returned root (.ofFlags options.props)) footing ++ ['\n']) := by
  obtain ⟨front, back, hfront, hback, hsource⟩ := toList_source root h
  obtain ⟨hne, hparts⟩ := Options.isPart_of_validate h
  have hlast : (front ++ options.name.toList).getLast? ≠ some ' ' := by
    rw [List.getLast?_append_of_ne_nil _ hne]
    intro hspace
    cases hparts ' ' (List.mem_of_getLast? hspace)
  have hword : '(' ∉ "return".toList := by decide
  have hpiece : "return (".toList = "return".toList ++ [' ', '('] := rfl
  have hsplit := splitAround?_signed
    (tidyBefore (returned root (.ofFlags options.props)) footing ++ ['\n']) hword hfront
    (fun hmem => by cases hparts '(' hmem) hback hlast
  rw [← hsource, ← hpiece] at hsplit
  exact ⟨_, hsplit⟩

/-- A source returns markup exactly if what it returns is markup when it has been tidied. -/
theorem returnsMarkup_source_iff (root : Element) {options : Options}
    (h : options.validate = .ok ()) {props : List String} :
    ReturnsMarkup props (source root options) ↔
      ∃ body, tidyBefore (returned root (.ofFlags options.props)) footing = body ++ footing ∧
        IsMarkup props body := by
  obtain ⟨before, hsplit⟩ := splitAround?_source root h
  have hend : ");\n\x7d\n".toList = footing ++ ['\n'] := rfl
  constructor
  · rintro ⟨before', body, hbody, hmarkup⟩
    rw [hsplit, hend] at hbody
    obtain ⟨-, hrest⟩ := Prod.mk.inj (Option.some.inj hbody)
    rw [← List.append_assoc] at hrest
    exact ⟨body, List.append_cancel_right hrest, hmarkup⟩
  · rintro ⟨body, hbody, hmarkup⟩
    rw [hbody, List.append_assoc body, ← hend] at hsplit
    exact ⟨before, body, hsplit, hmarkup⟩

end Component

end Pictogram
