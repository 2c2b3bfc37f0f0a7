import Mathlib.Data.List.Basic
import Mathlib.Data.List.Induction
import Pictogram.Component.Body

/-!
The attributes that a component shows: of those it spells alike the last, in the place of the first.
The list that is printed is built one attribute at a time; here it is given all at once.
-/

namespace Pictogram

open AttributeName

namespace Attribute

/-- The attributes that are no namespace declarations. -/
def shown (attributes : List Attribute) : List Attribute :=
  attributes.filter (!isNamespaceDeclaration ·.name)

/-- The last of several attributes that a component spells by the given name. -/
def lastSpelled? (attributes : List Attribute) (name : String) : Option Attribute :=
  attributes.reverse.find? (AttributeName.translate ·.name = name)

/-- The attributes that are printed, in order. -/
def survivors (attributes : List Attribute) : List Attribute :=
  ((shown attributes).map (AttributeName.translate ·.name)).eraseDups.filterMap
    (lastSpelled? (shown attributes))

end Attribute

theorem ofAttribute_of_valued {a : Attribute} (h : a.value ≠ "" ∧ a.value ≠ a.name) :
    PrintedAttribute.ofAttribute a = ⟨AttributeName.translate a.name, .quoted a.value⟩ := by
  simp [PrintedAttribute.ofAttribute, h.1, h.2]

theorem eraseDups_concat (names : List String) (name : String) :
    (names ++ [name]).eraseDups =
      if name ∈ names then names.eraseDups else names.eraseDups ++ [name] := by
  rw [List.eraseDups_append]
  by_cases h : name ∈ names
  · simp [h, List.removeAll]
  · simp [h, List.removeAll, List.eraseDups_cons]

theorem nodup_eraseDups (names : List String) : names.eraseDups.Nodup := by
  induction names using List.reverseRecOn with
  | nil => exact List.nodup_nil
  | append_singleton names name ih =>
    rw [eraseDups_concat]
    split
    · exact ih
    next hnew =>
      refine List.nodup_append.2 ⟨ih, by simp, ?_⟩
      intro a ha b hb heq
      rw [List.mem_singleton.1 hb] at heq
      exact hnew (heq ▸ List.mem_eraseDups.1 ha)

namespace Attribute

theorem lastSpelled?_concat (attributes : List Attribute) (a : Attribute) (name : String) :
    lastSpelled? (attributes ++ [a]) name =
      if AttributeName.translate a.name = name then some a else lastSpelled? attributes name := by
  rw [lastSpelled?, List.reverse_append, List.reverse_singleton, List.singleton_append,
    List.find?_cons]
  by_cases h : AttributeName.translate a.name = name <;> simp [h, lastSpelled?]

theorem of_lastSpelled? {attributes : List Attribute} {name : String} {a : Attribute}
    (h : lastSpelled? attributes name = some a) :
    a ∈ attributes ∧ AttributeName.translate a.name = name := by
  refine ⟨List.mem_reverse.1 (List.mem_of_find?_eq_some h), ?_⟩
  simpa using List.find?_some h

theorem exists_lastSpelled? {attributes : List Attribute} {name : String}
    (h : name ∈ attributes.map (AttributeName.translate ·.name)) :
    ∃ a, lastSpelled? attributes name = some a := by
  obtain ⟨a, ha, rfl⟩ := List.mem_map.1 h
  apply Option.isSome_iff_exists.1
  rw [lastSpelled?, List.find?_isSome]
  exact ⟨a, List.mem_reverse.2 ha, by simp⟩

end Attribute

namespace PrintedAttribute

open Attribute

/-- Putting an attribute into a list changes what is printed under its name, or adds it. -/
theorem put_filterMap {names : List String} {f : String → Option Attribute} {a : Attribute}
    (hnodup : names.Nodup)
    (hf : ∀ name ∈ names, ∃ b, f name = some b ∧ AttributeName.translate b.name = name) :
    put ((names.filterMap f).map ofAttribute) (ofAttribute a) =
      ((if AttributeName.translate a.name ∈ names then names
          else names ++ [AttributeName.translate a.name]).filterMap
        fun name => if AttributeName.translate a.name = name then some a else f name).map
          ofAttribute := by
  induction names with
  | nil => simp [put]
  | cons name names ih =>
    obtain ⟨⟨b, hb, rfl⟩, hrest⟩ := List.forall_mem_cons.1 hf
    obtain ⟨hnew, hnodup⟩ := List.nodup_cons.1 hnodup
    rw [List.filterMap_cons, hb]
    by_cases hsame : AttributeName.translate a.name = AttributeName.translate b.name
    · have hname : (ofAttribute b).name = (ofAttribute a).name := hsame.symm
      have hother : ∀ name ∈ names,
          (if AttributeName.translate a.name = name then some a else f name) = f name := by
        intro name hname
        rw [if_neg]
        rintro rfl
        exact hnew (hsame ▸ hname)
      rw [if_pos (by rw [hsame]; exact List.mem_cons_self), List.filterMap_cons, if_pos hsame,
        List.filterMap_congr hother, List.map_cons, List.map_cons, put, if_pos hname]
    · have hname : ¬ (ofAttribute b).name = (ofAttribute a).name := fun h => hsame h.symm
      have hmem : AttributeName.translate a.name ∈ AttributeName.translate b.name :: names ↔
          AttributeName.translate a.name ∈ names := by
        simp [hsame]
      rw [List.map_cons, put, if_neg hname, ih hnodup hrest]
      by_cases hin : AttributeName.translate a.name ∈ names
      · rw [if_pos hin, if_pos (hmem.2 hin), List.filterMap_cons, if_neg hsame, hb, List.map_cons]
      · rw [if_neg hin, if_neg (mt hmem.1 hin), List.cons_append, List.filterMap_cons,
          if_neg hsame, hb, List.map_cons]

theorem foldl_put (attributes : List Attribute) :
    (attributes.map ofAttribute).foldl put [] =
      ((attributes.map (AttributeName.translate ·.name)).eraseDups.filterMap
        (lastSpelled? attributes)).map ofAttribute := by
  induction attributes using List.reverseRecOn with
  | nil => rfl
  | append_singleton attributes a ih =>
    have hf : ∀ name ∈ (attributes.map (AttributeName.translate ·.name)).eraseDups,
        ∃ b, lastSpelled? attributes name = some b ∧ AttributeName.translate b.name = name := by
      intro name hname
      obtain ⟨b, hb⟩ := exists_lastSpelled? (List.mem_eraseDups.1 hname)
      exact ⟨b, hb, (of_lastSpelled? hb).2⟩
    rw [List.map_append, List.map_singleton, List.foldl_append, ih, List.foldl_cons, List.foldl_nil,
      put_filterMap (nodup_eraseDups _) hf, List.map_append, List.map_singleton, eraseDups_concat]
    simp only [List.mem_eraseDups]
    rw [show lastSpelled? (attributes ++ [a]) = _ from funext (lastSpelled?_concat attributes a)]

/-- What is printed of an attribute list are the survivors in it. -/
theorem ofAttributes_eq (attributes : List Attribute) :
    ofAttributes attributes = (survivors attributes).map ofAttribute :=
  foldl_put (shown attributes)

end PrintedAttribute

namespace Attribute

theorem mem_survivors {attributes : List Attribute} {a : Attribute} (h : a ∈ survivors attributes) :
    a ∈ attributes ∧ isNamespaceDeclaration a.name = false := by
  obtain ⟨name, -, hname⟩ := List.mem_filterMap.1 h
  obtain ⟨hmem, -⟩ := of_lastSpelled? hname
  simpa [shown] using hmem

/-- No two attributes that are printed are spelled alike. -/
theorem names_survivors (attributes : List Attribute) :
    (survivors attributes).map (AttributeName.translate ·.name) =
      ((shown attributes).map (AttributeName.translate ·.name)).eraseDups := by
  rw [survivors, List.map_filterMap]
  apply (List.filterMap_congr (g := some) ?_).trans List.filterMap_some
  intro name hname
  obtain ⟨a, ha⟩ := exists_lastSpelled? (List.mem_eraseDups.1 hname)
  rw [ha, Option.map_some, (of_lastSpelled? ha).2]

theorem nodup_survivors (attributes : List Attribute) :
    ((survivors attributes).map (AttributeName.translate ·.name)).Nodup := by
  rw [names_survivors]
  exact nodup_eraseDups _

end Attribute

end Pictogram
