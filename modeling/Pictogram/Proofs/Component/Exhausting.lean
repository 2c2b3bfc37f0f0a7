import Pictogram.Proofs.Component.Passing

/-!
What templating leaves of the attributes in use, in whatever text. A pass leaves none of them with a
quoted value, and no later pass brings one back: a replaced value loses its quotes, and what it is
replaced by has neither a blank nor a quote to begin another with. So templating a text twice is
templating it once.
-/

namespace Pictogram

namespace Templating

/-- Whether a text begins with an attribute and its quoted value. -/
def Begins (name cs : List Char) : Prop :=
  ∃ value after, cs = name ++ '=' :: '"' :: (value ++ '"' :: after)

/-- Whether an attribute with a quoted value stands behind a blank. -/
def StandsBehindBlank (name cs : List Char) : Prop :=
  ∃ before c after, cs = before ++ c :: after ∧ Text.isBlank c ∧ Begins name after

/-- Whether an attribute with a quoted value stands in a text, at its start or behind a blank. -/
def Stands (name cs : List Char) : Prop :=
  ∃ before value after, cs = before ++ (name ++ '=' :: '"' :: (value ++ '"' :: after)) ∧
    ∀ c, before.getLast? = some c → Text.isBlank c

variable {name reference cs rest : List Char} {c : Char}

theorem stands_iff : Stands name cs ↔ Begins name cs ∨ StandsBehindBlank name cs := by
  constructor
  · rintro ⟨before, value, after, rfl, hblank⟩
    rcases List.eq_nil_or_concat before with rfl | ⟨front, c, rfl⟩
    · exact .inl ⟨value, after, rfl⟩
    · refine .inr ⟨front, c, _, ?_, hblank c (by simp), value, after, rfl⟩
      simp
  · rintro (⟨value, after, rfl⟩ | ⟨front, c, _, rfl, hc, value, after, rfl⟩)
    · exact ⟨[], value, after, rfl, by simp⟩
    · refine ⟨front ++ [c], value, after, by simp, ?_⟩
      intro d hd
      obtain rfl : c = d := by simpa using hd
      exact hc

theorem begins_of_afterAttribute (h : afterAttribute name cs = some rest) :
    ∃ value, cs = name ++ '=' :: '"' :: (value ++ '"' :: rest) := by
  obtain ⟨behind, hbehind, hquote⟩ := Option.bind_eq_some_iff.1 h
  obtain ⟨value, rfl⟩ := eq_of_afterQuote hquote
  exact ⟨value, by simpa using Text.dropLiteral?_eq_some_iff.1 hbehind⟩

theorem exists_afterAttribute (h : Begins name cs) : ∃ rest, afterAttribute name cs = some rest := by
  obtain ⟨value, after, rfl⟩ := h
  rw [afterAttribute_append]
  exact exists_afterQuote (by simp)

theorem not_standsBehindBlank_nil : ¬ StandsBehindBlank name [] := by
  rintro ⟨before, c, after, h, -⟩
  simp at h

theorem standsBehindBlank_cons_iff :
    StandsBehindBlank name (c :: cs) ↔
      Text.isBlank c ∧ Begins name cs ∨ StandsBehindBlank name cs := by
  constructor
  · rintro ⟨_ | ⟨d, before⟩, b, after, heq, hb, hbegins⟩
    · obtain ⟨rfl, rfl⟩ := List.cons.inj heq
      exact .inl ⟨hb, hbegins⟩
    · obtain ⟨rfl, rfl⟩ := List.cons.inj heq
      exact .inr ⟨before, b, after, rfl, hb, hbegins⟩
  · rintro (⟨hc, hbegins⟩ | ⟨before, b, after, rfl, hb, hbegins⟩)
    · exact ⟨[], c, cs, rfl, hc, hbegins⟩
    · exact ⟨c :: before, b, after, rfl, hb, hbegins⟩

theorem StandsBehindBlank.append (h : StandsBehindBlank name rest) (cs : List Char) :
    StandsBehindBlank name (cs ++ rest) := by
  obtain ⟨before, c, after, rfl, hc, hbegins⟩ := h
  exact ⟨cs ++ before, c, after, by simp, hc, hbegins⟩

/-- What has no blanks begins no attribute behind one. -/
theorem standsBehindBlank_append (hcs : ∀ c ∈ cs, Text.isBlank c = false)
    (h : StandsBehindBlank name (cs ++ rest)) : StandsBehindBlank name rest := by
  induction cs with
  | nil => exact h
  | cons c cs ih =>
    obtain ⟨hc, hmore⟩ := List.forall_mem_cons.1 hcs
    rcases standsBehindBlank_cons_iff.1 h with ⟨hblank, -⟩ | hlater
    · rw [hc] at hblank
      cases hblank
    · exact ih hmore hlater

/-- A pass brings no quote. -/
theorem quote_mem_of_replace (h : '"' ∈ replaceBehindBlanks name reference cs) : '"' ∈ cs := by
  fun_induction replaceBehindBlanks name reference cs with
  | case1 => exact h
  | case2 c cs hc rest hrest ih =>
    obtain ⟨value, hcs⟩ := begins_of_afterAttribute hrest
    simp [hcs]
  | case3 c cs hc hrest ih =>
    exact List.mem_cons.2 ((List.mem_cons.1 h).imp_right ih)
  | case4 c cs hc ih =>
    exact List.mem_cons.2 ((List.mem_cons.1 h).imp_right ih)

end Templating

/-- What templating asks of a usage to leave nothing of its attribute: the name has neither blanks
nor quotes nor equals signs in it, and there is a reference, with neither blanks nor quotes. -/
structure Usage.Tame (u : Usage) : Prop where
  target : ∀ c ∈ u.target.toList, Text.isBlank c = false ∧ c ≠ '"' ∧ c ≠ '='
  referring : u.reference ≠ ""
  reference : ∀ c ∈ u.reference.toList, Text.isBlank c = false ∧ c ≠ '"'

instance (u : Usage) : Decidable u.Tame :=
  decidable_of_iff
    ((∀ c ∈ u.target.toList, Text.isBlank c = false ∧ c ≠ '"' ∧ c ≠ '=') ∧ u.reference ≠ "" ∧
      ∀ c ∈ u.reference.toList, Text.isBlank c = false ∧ c ≠ '"')
    ⟨fun ⟨htarget, hreferring, hreference⟩ => ⟨htarget, hreferring, hreference⟩,
      fun h => ⟨h.target, h.referring, h.reference⟩⟩

/-- The usages of every schema that flags ask for are tame. -/
theorem tame_usages (flags : PropFlags) : ∀ u ∈ (PropSchema.ofFlags flags).usages, u.Tame := by
  obtain ⟨width, height, className, color⟩ := flags
  revert width height className color
  decide +kernel

namespace Templating

section Pass

variable {u v : Usage} {cs rest : List Char}

/-- A pass changes nothing before the first blank, so that what it begins with stood there, and the
quote that ends the value stood somewhere behind. -/
theorem begins_of_replace (hv : v.Tame)
    (h : Begins v.target.toList (replaceBehindBlanks u.target.toList u.reference.toList cs)) :
    Begins v.target.toList cs := by
  rcases Text.run_or_stop (!Text.isBlank ·) cs with hall | ⟨front, blank, rest, rfl, hfront, hblank⟩
  · have hpass : Passed u.target.toList cs [] :=
      passed_of_not_blank (fun c hc => by simpa using hall c hc) []
    have hpassed := replaceBehindBlanks_of_passed u.reference.toList hpass
    rw [List.append_nil, replaceBehindBlanks_nil, List.append_nil] at hpassed
    rwa [hpassed] at h
  · obtain ⟨more, hmore⟩ :=
      exists_replaceBehindBlanks u.target.toList u.reference.toList blank rest
    have hpass : Passed u.target.toList front (blank :: rest) :=
      passed_of_not_blank (fun c hc => by simpa using hfront c hc) _
    have hpassed := replaceBehindBlanks_of_passed u.reference.toList hpass
    obtain ⟨value, after, heq⟩ := h
    have hstop : blank ∉ pattern v.target.toList := by
      have hnone : ∀ c ∈ pattern v.target.toList, Text.isBlank c = false :=
        List.forall_mem_append.2 ⟨fun c hc => (hv.target c hc).1, by decide⟩
      intro hmem
      rw [hnone blank hmem] at hblank
      cases hblank
    have hshape : front ++ blank :: more =
        pattern v.target.toList ++ (value ++ '"' :: after) := by
      rw [← hmore, ← hpassed, heq]
      simp [pattern]
    obtain ⟨kept, rfl⟩ := prefix_of_stop hstop ⟨_, hshape.symm⟩
    have hquote : '"' ∈ kept ++ blank :: rest := by
      rw [List.append_assoc] at hshape
      have hmem : '"' ∈ kept ++ blank :: more := by
        rw [List.append_cancel_left hshape]
        simp
      rw [List.mem_append] at hmem ⊢
      rw [← hmore] at hmem
      exact hmem.imp_right quote_mem_of_replace
    obtain ⟨value', after', hsplit⟩ := List.append_of_mem hquote
    exact ⟨value', after', by rw [List.append_assoc, hsplit]; simp [pattern]⟩

variable (hu : u.Tame)
include hu

/-- What a value gives way to has no blanks. -/
theorem replaced_not_blank :
    ∀ c ∈ u.target.toList ++ '=' :: u.reference.toList, Text.isBlank c = false := by
  refine List.forall_mem_append.2 ⟨fun c hc => (hu.target c hc).1, List.forall_mem_cons.2 ⟨rfl, ?_⟩⟩
  exact fun c hc => (hu.reference c hc).1

/-- The reference stands where a quoted value would begin. -/
theorem not_begins_replaced (hv : v.Tame) (rest : List Char) :
    ¬ Begins v.target.toList (u.target.toList ++ '=' :: u.reference.toList ++ rest) := by
  rintro ⟨value, after, heq⟩
  have hequals : ∀ {w : Usage}, w.Tame → '=' ∉ w.target.toList := fun hw hmem =>
    (hw.target _ hmem).2.2 rfl
  rw [List.append_assoc, List.cons_append] at heq
  obtain ⟨-, -, hbehind⟩ := Text.run_unique (Text.run_of_not_mem (hequals hu)) (by simp)
    (Text.run_of_not_mem (hequals hv)) (by simp) heq
  cases hreference : u.reference.toList with
  | nil => exact hu.referring (String.toList_eq_nil_iff.1 hreference)
  | cons c more =>
    rw [hreference, List.cons_append] at hbehind
    exact (hu.reference c (by simp [hreference])).2 (List.cons.inj hbehind).1

/-- A pass brings no attribute with a quoted value behind a blank. -/
theorem standsBehindBlank_of_replace (hv : v.Tame)
    (h : StandsBehindBlank v.target.toList
      (replaceBehindBlanks u.target.toList u.reference.toList cs)) :
    StandsBehindBlank v.target.toList cs := by
  fun_induction replaceBehindBlanks u.target.toList u.reference.toList cs with
  | case1 => exact h
  | case2 c cs hc rest hrest ih =>
    obtain ⟨value, rfl⟩ := begins_of_afterAttribute hrest
    rw [List.cons_append, List.cons_append, standsBehindBlank_cons_iff] at h
    rcases h with ⟨-, hbegins⟩ | hlater
    · exact absurd hbegins (not_begins_replaced hu hv _)
    · have hrest' := ih (standsBehindBlank_append (replaced_not_blank hu) hlater)
      simpa using hrest'.append (c :: (u.target.toList ++ '=' :: '"' :: (value ++ ['"'])))
  | case3 c cs hc hrest ih =>
    rw [standsBehindBlank_cons_iff] at h ⊢
    exact h.imp (And.imp_right (begins_of_replace hv)) ih
  | case4 c cs hc ih =>
    rw [standsBehindBlank_cons_iff] at h ⊢
    exact h.imp (And.imp_right (begins_of_replace hv)) ih

/-- A pass leaves its own attribute behind no blank with a quoted value. -/
theorem not_standsBehindBlank_replace :
    ¬ StandsBehindBlank u.target.toList
      (replaceBehindBlanks u.target.toList u.reference.toList cs) := by
  fun_induction replaceBehindBlanks u.target.toList u.reference.toList cs with
  | case1 => exact not_standsBehindBlank_nil
  | case2 c cs hc rest hrest ih =>
    rw [List.cons_append, List.cons_append, standsBehindBlank_cons_iff]
    rintro (⟨-, hbegins⟩ | hlater)
    · exact not_begins_replaced hu hu _ hbegins
    · exact ih (standsBehindBlank_append (replaced_not_blank hu) hlater)
  | case3 c cs hc hrest ih =>
    rw [standsBehindBlank_cons_iff]
    rintro (⟨-, hbegins⟩ | hlater)
    · obtain ⟨rest, hrest'⟩ := exists_afterAttribute (begins_of_replace hu hbegins)
      rw [hrest] at hrest'
      cases hrest'
    · exact ih hlater
  | case4 c cs hc ih =>
    rw [standsBehindBlank_cons_iff]
    rintro (⟨hblank, -⟩ | hlater)
    · exact hc hblank
    · exact ih hlater

/-- No pass brings back what an earlier one has replaced. -/
theorem Stands.of_replaceValues (hv : v.Tame)
    (h : Stands v.target.toList (replaceValues u.target.toList u.reference.toList cs)) :
    Stands v.target.toList cs := by
  rw [stands_iff] at h ⊢
  rw [replaceValues] at h
  split at h
  next rest hrest =>
    obtain ⟨value, rfl⟩ := begins_of_afterAttribute hrest
    rcases h with hbegins | hlater
    · exact absurd hbegins (not_begins_replaced hu hv _)
    · have hrest' := standsBehindBlank_of_replace hu hv
        (standsBehindBlank_append (replaced_not_blank hu) hlater)
      right
      simpa using hrest'.append (u.target.toList ++ '=' :: '"' :: (value ++ ['"']))
  next => exact h.imp (begins_of_replace hv) (standsBehindBlank_of_replace hu hv)

/-- A pass leaves nothing of its own attribute. -/
theorem not_stands_replaceValues (cs : List Char) :
    ¬ Stands u.target.toList (replaceValues u.target.toList u.reference.toList cs) := by
  rw [stands_iff, replaceValues]
  split
  next rest hrest =>
    rintro (hbegins | hlater)
    · exact not_begins_replaced hu hu _ hbegins
    · exact not_standsBehindBlank_replace hu
        (standsBehindBlank_append (replaced_not_blank hu) hlater)
  next hrest =>
    rintro (hbegins | hlater)
    · obtain ⟨rest, hrest'⟩ := exists_afterAttribute (begins_of_replace hu hbegins)
      rw [hrest] at hrest'
      cases hrest'
    · exact not_standsBehindBlank_replace hu hlater

end Pass

variable {name reference cs : List Char} {usages : List Usage}

theorem replaceBehindBlanks_of_not_stands (h : ¬ StandsBehindBlank name cs) :
    replaceBehindBlanks name reference cs = cs := by
  induction cs with
  | nil => exact replaceBehindBlanks_nil name reference
  | cons c cs ih =>
    rw [standsBehindBlank_cons_iff, not_or, not_and] at h
    obtain ⟨hbegins, hlater⟩ := h
    rw [replaceBehindBlanks_cons_of_none, ih hlater]
    intro hc
    cases hafter : afterAttribute name cs with
    | none => rfl
    | some rest =>
      obtain ⟨value, heq⟩ := begins_of_afterAttribute hafter
      exact absurd ⟨value, rest, heq⟩ (hbegins hc)

/-- A pass changes nothing in a text without its attribute. -/
theorem replaceValues_of_not_stands (h : ¬ Stands name cs) :
    replaceValues name reference cs = cs := by
  rw [stands_iff, not_or] at h
  obtain ⟨hbegins, hlater⟩ := h
  rw [replaceValues]
  split
  next rest hrest =>
    obtain ⟨value, heq⟩ := begins_of_afterAttribute hrest
    exact absurd ⟨value, rest, heq⟩ hbegins
  next => exact replaceBehindBlanks_of_not_stands hlater

/-- What templating brings stood in the text before. -/
theorem Stands.of_applyChars {v : Usage} (hv : v.Tame) (husages : ∀ u ∈ usages, u.Tame)
    (h : Stands v.target.toList (applyChars usages cs)) : Stands v.target.toList cs := by
  induction usages generalizing cs with
  | nil => exact h
  | cons u usages ih =>
    obtain ⟨hu, hmore⟩ := List.forall_mem_cons.1 husages
    exact (ih hmore h).of_replaceValues hu hv

/-- Templating leaves none of the attributes in use. -/
theorem not_stands_applyChars (husages : ∀ u ∈ usages, u.Tame) (cs : List Char) :
    ∀ u ∈ usages, ¬ Stands u.target.toList (applyChars usages cs) := by
  induction usages generalizing cs with
  | nil => simp
  | cons u usages ih =>
    obtain ⟨hu, hmore⟩ := List.forall_mem_cons.1 husages
    refine List.forall_mem_cons.2 ⟨fun h => ?_, ih hmore _⟩
    exact not_stands_replaceValues hu cs (h.of_applyChars hu hmore)

theorem applyChars_of_not_stands (h : ∀ u ∈ usages, ¬ Stands u.target.toList cs) :
    applyChars usages cs = cs := by
  induction usages with
  | nil => rfl
  | cons u usages ih =>
    obtain ⟨hu, hmore⟩ := List.forall_mem_cons.1 h
    change applyChars usages (replaceValues u.target.toList u.reference.toList cs) = cs
    rw [replaceValues_of_not_stands hu, ih hmore]

/-- Templating whatever text leaves none of the attributes in use with a quoted value, so that doing
it again changes nothing. The usages of every choice of props are of the kind that this takes. -/
theorem apply_exhausts (husages : ∀ u ∈ usages, u.Tame) (body : String) :
    (∀ u ∈ usages, ¬ Stands u.target.toList (apply usages body).toList) ∧
      apply usages (apply usages body) = apply usages body ∧
      ∀ flags, ∀ u ∈ (PropSchema.ofFlags flags).usages, u.Tame := by
  have hnone : ∀ u ∈ usages, ¬ Stands u.target.toList (apply usages body).toList := by
    rw [apply, String.toList_ofList]
    exact not_stands_applyChars husages body.toList
  refine ⟨hnone, ?_, tame_usages⟩
  apply String.toList_inj.1
  rw [apply, String.toList_ofList, applyChars_of_not_stands hnone]

/-- A value that runs into an attribute of the same name, and one without its closing quote. -/
theorem apply_exhausts_unbalanced :
    (∀ u ∈ (PropSchema.ofFlags .all).usages, u.Tame) ∧
      apply (PropSchema.ofFlags .all).usages "<svg fill=\"a fill=\"b\" width=\"c" =
        "<svg fill=\x7bcolor\x7db\" width=\"c" ∧
      apply (PropSchema.ofFlags .all).usages "<svg fill=\x7bcolor\x7db\" width=\"c" =
        "<svg fill=\x7bcolor\x7db\" width=\"c" := by
  have happly : apply (PropSchema.ofFlags .all).usages "<svg fill=\"a fill=\"b\" width=\"c" =
      "<svg fill=\x7bcolor\x7db\" width=\"c" := by
    cbv
  have htwice := (apply_exhausts (tame_usages .all) "<svg fill=\"a fill=\"b\" width=\"c").2.1
  rw [happly] at htwice
  exact ⟨tame_usages .all, happly, htwice⟩

end Templating

end Pictogram
