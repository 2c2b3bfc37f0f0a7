import Pictogram.Proofs.Component.Passing
import Pictogram.Proofs.Component.Survivors

/-!
Templating as it is meant. The values of the attributes in use could give way to references while a
body is printed, and unless a value or a text looks like an attribute, templating the printed text
does just this.
-/

namespace Pictogram

open Templating

/-- The text of an attribute whose value gives way to the reference of its first usage. -/
def PrintedAttribute.charsReferring (usages : List Usage) (a : PrintedAttribute) : List Char :=
  match a.value, usages.find? (·.target = a.name) with
  | .quoted _, some u => ' ' :: a.name.toList ++ '=' :: u.reference.toList
  | _, _ => a.chars

/-- Whether the names of an element have neither blanks nor double quotes. -/
structure Element.Neat (e : Element) : Prop where
  tag : Text.Neat e.tag
  attributes : ∀ a ∈ e.attributes, Text.Neat a.name

/-- What keeps a pass from finding its name in the value of a printed attribute: the value does not
end in the name, or it has given way to a reference by the end of the pass. -/
structure PrintedAttribute.Unmistakable (done : List Usage) (u : Usage) (a : PrintedAttribute) :
    Prop where
  neat : Text.Neat a.name
  value : ∀ value, a.value = .quoted value → EndsIn u.target value →
    ∃ v ∈ done ++ [u], v.target = a.name

/-- What keeps a pass from finding its name in a row anywhere but in its attribute. -/
def Row.Unmistakable (done : List Usage) (u : Usage) : Row → Prop
  | opening tag attributes => Text.Neat tag ∧ ∀ a ∈ attributes, a.Unmistakable done u
  | closing tag => Text.Neat tag
  | leaf tag attributes => Text.Neat tag ∧ ∀ a ∈ attributes, a.Unmistakable done u
  | textLeaf tag attributes text =>
    Text.Neat tag ∧ (∀ a ∈ attributes, a.Unmistakable done u) ∧ ¬ Mentions u.target text

/-- What keeps a pass from finding its name in an element anywhere but in its attribute. -/
structure Element.Unmistakable (done : List Usage) (u : Usage) (e : Element) : Prop where
  values : ∀ a ∈ Attribute.survivors e.attributes, EndsIn u.target a.value →
    ∃ v ∈ done ++ [u], v.target = AttributeName.translate a.name
  text : e.children = [] → ∀ text, e.meaningfulText = some text → ¬ Mentions u.target text

section Usage

variable {u : Usage} {done : List Usage} {a : PrintedAttribute} {rest : List Char}

theorem chars_charsReferring (usages : List Usage) (a : PrintedAttribute) :
    ∃ tail, a.charsReferring usages = ' ' :: tail := by
  rw [PrintedAttribute.charsReferring, PrintedAttribute.chars]
  cases a.value <;> cases usages.find? (·.target = a.name) <;> exact ⟨_, rfl⟩

theorem charsReferring_of_find? {v : Usage} {value : String} (hvalue : a.value = .quoted value)
    (hv : done.find? (·.target = a.name) = some v) :
    a.charsReferring done = ' ' :: a.name.toList ++ '=' :: v.reference.toList := by
  rw [PrintedAttribute.charsReferring, hvalue, hv]

theorem charsReferring_of_bare (hvalue : a.value = .bare) : a.charsReferring done = a.chars := by
  rw [PrintedAttribute.charsReferring, hvalue]

theorem charsReferring_of_find?_eq_none (hnone : done.find? (·.target = a.name) = none) :
    a.charsReferring done = a.chars := by
  rw [PrintedAttribute.charsReferring, hnone]
  cases a.value <;> rfl

/-- A pass leaves a name without a quoted value alone. -/
theorem replace_unquoted (hu : u.Plain) {cs : List Char} (hblank : ∀ c ∈ cs, Text.isBlank c = false)
    (hquote : '"' ∉ cs) (hrest : FollowsAttribute rest) :
    replaceBehindBlanks u.target.toList u.reference.toList (' ' :: cs ++ rest) =
      ' ' :: cs ++ replaceBehindBlanks u.target.toList u.reference.toList rest := by
  obtain ⟨stop, more, rfl, hpattern⟩ :
      ∃ stop more, rest = stop :: more ∧ stop ∉ pattern u.target.toList := by
    rcases hrest with h | h
    · obtain ⟨more, rfl⟩ := List.head?_eq_some_iff.1 h
      exact ⟨_, more, rfl, not_mem_pattern hu.target (by decide) (by decide) (by decide)⟩
    · obtain ⟨more, rfl⟩ := List.head?_eq_some_iff.1 h
      exact ⟨_, more, rfl, not_mem_pattern hu.target (by decide) (by decide) (by decide)⟩
  rw [List.cons_append, replaceBehindBlanks_cons fun _ => not_prefix_of_stop hquote hpattern more,
    replaceBehindBlanks_of_passed _ (passed_of_not_blank hblank _), List.cons_append]

/-- A pass leaves the attributes of other names alone. -/
theorem replace_other (hu : u.Plain) (ha : Text.Neat a.name) {value : String}
    (hvalue : ¬ EndsIn u.target value) (hname : u.target ≠ a.name) (rest : List Char) :
    replaceBehindBlanks u.target.toList u.reference.toList
        (' ' :: a.name.toList ++ '=' :: '"' ::
          value.toList.flatMap PrintedAttribute.escapeChar ++ ['"'] ++ rest) =
      ' ' :: a.name.toList ++ '=' :: '"' ::
          value.toList.flatMap PrintedAttribute.escapeChar ++ ['"'] ++
        replaceBehindBlanks u.target.toList u.reference.toList rest :=
  replaceBehindBlanks_of_passed _ (passed_other hu.target ha hname hvalue rest)

/-- A pass replaces the value of its attribute, if this has not been done, and leaves every other
attribute alone. -/
theorem replace_attribute (hu : u.Plain) (hdone : ∀ v ∈ done, v.Plain)
    (ha : a.Unmistakable done u) (hrest : FollowsAttribute rest) :
    replaceBehindBlanks u.target.toList u.reference.toList (a.charsReferring done ++ rest) =
      a.charsReferring (done ++ [u]) ++
        replaceBehindBlanks u.target.toList u.reference.toList rest := by
  cases hvalue : a.value with
  | bare =>
    have hchars : a.chars = ' ' :: a.name.toList := by rw [PrintedAttribute.chars, hvalue]
    rw [charsReferring_of_bare hvalue, charsReferring_of_bare hvalue, hchars]
    exact replace_unquoted hu ha.neat.not_blank ha.neat.quote_not_mem hrest
  | quoted value =>
    have hquote := not_mem_escape quote_not_mem_escapeChar value.toList
    cases hfind : done.find? (·.target = a.name) with
    | some v =>
      have hfind' : (done ++ [u]).find? (·.target = a.name) = some v := by
        rw [List.find?_append, hfind]
        rfl
      obtain ⟨-, hreference⟩ := hdone v (List.mem_of_find?_eq_some hfind)
      rw [charsReferring_of_find? hvalue hfind, charsReferring_of_find? hvalue hfind',
        List.cons_append]
      refine replace_unquoted hu ?_ ?_ hrest
      · exact List.forall_mem_append.2
          ⟨ha.neat.not_blank, List.forall_mem_cons.2 ⟨by decide, hreference.not_blank⟩⟩
      · simp [ha.neat.quote_not_mem, hreference.quote_not_mem]
    | none =>
      rw [charsReferring_of_find?_eq_none hfind, PrintedAttribute.chars, hvalue]
      by_cases hname : u.target = a.name
      · have hfind' : (done ++ [u]).find? (·.target = a.name) = some u := by
          rw [List.find?_append, hfind, List.find?_cons]
          simp [hname]
        rw [charsReferring_of_find? hvalue hfind', ← hname]
        have hreplaced := replaceBehindBlanks_value u.target.toList u.reference.toList
          (show Text.isBlank ' ' from rfl) hquote rest
        simpa using hreplaced
      · have hfind' : (done ++ [u]).find? (·.target = a.name) = none := by
          rw [List.find?_append, hfind, List.find?_cons]
          simp [hname]
        rw [charsReferring_of_find?_eq_none hfind', PrintedAttribute.chars, hvalue]
        have hends : ¬ EndsIn u.target value := by
          intro hends
          obtain ⟨v, hv, hvname⟩ := ha.value value hvalue hends
          exact List.find?_eq_none.1 hfind' v hv (by simpa using hvname)
        exact replace_other hu ha.neat hends hname rest

theorem replace_attributes (hu : u.Plain) (hdone : ∀ v ∈ done, v.Plain)
    {attributes : List PrintedAttribute} (h : ∀ a ∈ attributes, a.Unmistakable done u)
    (hrest : FollowsAttribute rest) :
    replaceBehindBlanks u.target.toList u.reference.toList
        (attributes.flatMap (·.charsReferring done) ++ rest) =
      attributes.flatMap (·.charsReferring (done ++ [u])) ++
        replaceBehindBlanks u.target.toList u.reference.toList rest := by
  induction attributes with
  | nil => rfl
  | cons a attributes ih =>
    obtain ⟨ha, hmore⟩ := List.forall_mem_cons.1 h
    have hnext : FollowsAttribute (attributes.flatMap (·.charsReferring done) ++ rest) := by
      cases attributes with
      | nil => exact hrest
      | cons b attributes =>
        obtain ⟨tail, htail⟩ := chars_charsReferring done b
        rw [List.flatMap_cons, htail]
        exact .inl rfl
    rw [List.flatMap_cons, List.append_assoc, replace_attribute hu hdone ha hnext, ih hmore,
      List.flatMap_cons, List.append_assoc]

/-- A pass changes nothing of a tag but the value of its attribute. -/
theorem replace_tag (hu : u.Plain) (hdone : ∀ v ∈ done, v.Plain) {tag : String}
    (htag : Text.Neat tag) {attributes : List PrintedAttribute}
    (h : ∀ a ∈ attributes, a.Unmistakable done u) (hrest : FollowsAttribute rest) :
    replaceBehindBlanks u.target.toList u.reference.toList
        ('<' :: tag.toList ++ attributes.flatMap (·.charsReferring done) ++ rest) =
      '<' :: tag.toList ++ attributes.flatMap (·.charsReferring (done ++ [u])) ++
        replaceBehindBlanks u.target.toList u.reference.toList rest := by
  have hname : ∀ c ∈ '<' :: tag.toList, Text.isBlank c = false :=
    List.forall_mem_cons.2 ⟨by decide, htag.not_blank⟩
  rw [List.append_assoc, replaceBehindBlanks_of_passed _ (passed_of_not_blank hname _),
    replace_attributes hu hdone h hrest, List.append_assoc]

theorem replace_notBlank {cs : List Char} (h : ∀ c ∈ cs, Text.isBlank c = false)
    (rest : List Char) :
    replaceBehindBlanks u.target.toList u.reference.toList (cs ++ rest) =
      cs ++ replaceBehindBlanks u.target.toList u.reference.toList rest :=
  replaceBehindBlanks_of_passed _ (passed_of_not_blank h rest)

theorem replace_bracket (rest : List Char) :
    replaceBehindBlanks u.target.toList u.reference.toList (['>'] ++ rest) =
      ['>'] ++ replaceBehindBlanks u.target.toList u.reference.toList rest :=
  replaceBehindBlanks_of_passed _ (passed_bracket _ rest)

theorem closing_notBlank {tag : String} (h : Text.Neat tag) :
    ∀ c ∈ '<' :: '/' :: tag.toList, Text.isBlank c = false :=
  List.forall_mem_cons.2 ⟨by decide, List.forall_mem_cons.2 ⟨by decide, h.not_blank⟩⟩

theorem replace_row (hu : u.Plain) (hdone : ∀ v ∈ done, v.Plain) {row : Row}
    (h : row.Unmistakable done u) (rest : List Char) :
    replaceBehindBlanks u.target.toList u.reference.toList
        (row.charsWith (·.charsReferring done) ++ rest) =
      row.charsWith (·.charsReferring (done ++ [u])) ++
        replaceBehindBlanks u.target.toList u.reference.toList rest := by
  cases row with
  | opening tag attributes =>
    obtain ⟨htag, hattributes⟩ := h
    rw [Row.charsWith, List.append_assoc, replace_tag hu hdone htag hattributes (.inr rfl),
      replace_bracket, ← List.append_assoc, Row.charsWith]
  | closing tag =>
    rw [Row.charsWith, Row.charsWith, List.append_assoc,
      replace_notBlank (closing_notBlank h), replace_bracket, List.append_assoc]
  | leaf tag attributes =>
    obtain ⟨htag, hattributes⟩ := h
    rw [Row.charsWith, List.append_assoc, replace_tag hu hdone htag hattributes (.inl rfl),
      replaceBehindBlanks_of_passed _ (passed_close hu.target rest), ← List.append_assoc,
      Row.charsWith]
  | textLeaf tag attributes text =>
    obtain ⟨htag, hattributes, htext⟩ := h
    have hclosing : replaceBehindBlanks u.target.toList u.reference.toList
        ('<' :: ('/' :: tag.toList ++ (['>'] ++ rest))) =
        '<' :: ('/' :: tag.toList ++ (['>'] ++
          replaceBehindBlanks u.target.toList u.reference.toList rest)) := by
      rw [← List.cons_append, replace_notBlank (closing_notBlank htag), replace_bracket,
        List.cons_append]
    have hbehind := replaceBehindBlanks_of_passed u.reference.toList
      (passed_text hu.target htext ('/' :: tag.toList ++ (['>'] ++ rest)))
    have hfollows : FollowsAttribute (['>'] ++ (text.toList.flatMap escapeTextChar ++
        '<' :: ('/' :: tag.toList ++ (['>'] ++ rest)))) := .inr rfl
    have hopen := replace_tag hu hdone htag hattributes hfollows
    rw [replace_bracket, hbehind, hclosing] at hopen
    rw [Row.charsWith, Row.charsWith]
    simpa only [List.append_assoc, List.cons_append, List.nil_append] using hopen

/-- What rows become in one pass. -/
theorem replace_rows (hu : u.Plain) (hdone : ∀ v ∈ done, v.Plain) {rows : List (Nat × Row)}
    (h : ∀ row ∈ rows, row.2.Unmistakable done u) :
    replaceBehindBlanks u.target.toList u.reference.toList
        (rows.flatMap (Row.ledWith (·.charsReferring done))) =
      rows.flatMap (Row.ledWith (·.charsReferring (done ++ [u]))) := by
  induction rows with
  | nil => exact replaceBehindBlanks_nil _ _
  | cons row rows ih =>
    obtain ⟨hrow, hmore⟩ := List.forall_mem_cons.1 h
    obtain ⟨tail, htail⟩ := exists_charsWith (·.charsReferring done) row.2
    have hlead := replaceBehindBlanks_of_passed u.reference.toList
      (passed_lead hu.target row.1
        (tail ++ rows.flatMap (Row.ledWith (·.charsReferring done))))
    rw [← List.cons_append, ← htail, replace_row hu hdone hrow, ih hmore] at hlead
    rw [List.flatMap_cons, List.flatMap_cons, Row.ledWith, Row.ledWith, List.append_assoc, hlead,
      List.append_assoc]

end Usage

/-- All passes together print every attribute in use by its reference. -/
theorem passes_rows {rows : List (Nat × Row)} {done todo : List Usage}
    (hdone : ∀ u ∈ done, u.Plain) (htodo : ∀ u ∈ todo, u.Plain)
    (h : ∀ before u after, todo = before ++ u :: after →
      ∀ row ∈ rows, row.2.Unmistakable (done ++ before) u) :
    passes todo (rows.flatMap (Row.ledWith (·.charsReferring done))) =
      rows.flatMap (Row.ledWith (·.charsReferring (done ++ todo))) := by
  induction todo generalizing done with
  | nil => rw [List.append_nil, passes_nil]
  | cons u todo ih =>
    obtain ⟨hu, htodo⟩ := List.forall_mem_cons.1 htodo
    have hrow := h [] u todo rfl
    rw [List.append_nil] at hrow
    have hdone' : ∀ v ∈ done ++ [u], v.Plain :=
      List.forall_mem_append.2 ⟨hdone, List.forall_mem_singleton.2 hu⟩
    have hmore : ∀ before v after, todo = before ++ v :: after →
        ∀ row ∈ rows, row.2.Unmistakable (done ++ [u] ++ before) v := by
      rintro before v after rfl
      rw [List.append_assoc, List.singleton_append]
      exact h (u :: before) v after rfl
    rw [passes_cons, replace_rows hu hdone hrow, ih hdone' htodo hmore, List.append_assoc,
      List.singleton_append]

theorem charsReferring_nil : (fun a : PrintedAttribute => a.charsReferring []) = (·.chars) := by
  funext a
  exact charsReferring_of_find?_eq_none rfl

/-- A row of an unmistakable element is unmistakable. -/
theorem Row.IsFor.unmistakable {row : Row} {e : Element} {done : List Usage} {u : Usage}
    (h : row.IsFor e) (hneat : e.Neat) (he : e.Unmistakable done u) : row.Unmistakable done u := by
  have htag := hneat.tag.lowercase
  have hattributes : ∀ a ∈ PrintedAttribute.ofAttributes e.attributes, a.Unmistakable done u := by
    intro a ha
    rw [PrintedAttribute.ofAttributes_eq] at ha
    obtain ⟨b, hb, rfl⟩ := List.mem_map.1 ha
    obtain ⟨hmem, -⟩ := Attribute.mem_survivors hb
    refine ⟨(hneat.attributes b hmem).translate, ?_⟩
    intro value hvalue
    rw [PrintedAttribute.ofAttribute] at hvalue
    split at hvalue
    · cases hvalue
    · obtain rfl := PrintedValue.quoted.inj hvalue
      exact he.values b hb
  rcases h with rfl | rfl | ⟨hchildren, rfl⟩
  · exact ⟨htag, hattributes⟩
  · exact htag
  · cases htext : e.meaningfulText with
    | none => exact ⟨htag, hattributes⟩
    | some text => exact ⟨htag, hattributes, he.text hchildren text htext⟩

/-- Templating a body prints it with references, where no name of an attribute in use can be
mistaken. -/
theorem apply_render {e : Element} {usages : List Usage} (husages : ∀ u ∈ usages, u.Plain)
    (hneat : ∀ x ∈ e.preorder, x.Neat)
    (h : ∀ done u todo, usages = done ++ u :: todo → ∀ x ∈ e.preorder, x.Unmistakable done u)
    (depth : Nat) :
    Templating.apply usages (e.render depth) = e.renderWith (·.charsReferring usages) depth := by
  have hrows : ∀ done u todo, usages = done ++ u :: todo →
      ∀ row ∈ e.rows depth, row.2.Unmistakable ([] ++ done) u := by
    intro done u todo heq row hrow
    obtain ⟨x, hx, hfor⟩ := of_mem_rows depth e row hrow
    exact hfor.unmistakable (hneat x hx) (h done u todo heq x hx)
  have hnone : ∀ u ∈ ([] : List Usage), u.Plain := by simp
  have hpasses := passes_rows hnone husages hrows
  rw [List.nil_append, charsReferring_nil, ← led_renderWith, ← led_renderWith,
    Element.renderWith_chars, ← led_apply husages] at hpasses
  exact String.toList_inj.1 (List.cons.inj hpasses).2

/-- Templating for any choice of props prints the body with references, at every depth, where no
value ends in the name of an attribute in use and no text has one with a value. -/
theorem apply_render_ofFlags {e : Element} (flags : PropFlags) (hneat : ∀ x ∈ e.preorder, x.Neat)
    (hvalues : ∀ u ∈ (PropSchema.ofFlags flags).usages, ∀ x ∈ e.preorder, ∀ a ∈ x.attributes,
      ¬ EndsIn u.target a.value)
    (htexts : ∀ u ∈ (PropSchema.ofFlags flags).usages, ∀ x ∈ e.preorder, x.children = [] →
      ∀ text, x.meaningfulText = some text → ¬ Mentions u.target text)
    (depth : Nat) :
    Templating.apply (PropSchema.ofFlags flags).usages (e.render depth) =
      e.renderWith (·.charsReferring (PropSchema.ofFlags flags).usages) depth := by
  refine apply_render (plain_usages flags) hneat ?_ depth
  intro done u todo heq x hx
  have hu : u ∈ (PropSchema.ofFlags flags).usages := by simp [heq]
  refine ⟨?_, htexts u hu x hx⟩
  intro a ha hends
  exact absurd hends (hvalues u hu x hx a (Attribute.mem_survivors ha).1)

/-- A drawing with one attribute of each kind: one in use, one whose name ends as that does, and one
that is printed as its name alone. -/
def sized : Element :=
  ⟨"svg", [⟨"width", "8"⟩, ⟨"data-width", "8"⟩, ⟨"hidden", ""⟩], [⟨"text", [], [], some "8 px"⟩], none⟩

theorem forall_sized {p : Element → Prop} (hroot : p sized)
    (htext : p ⟨"text", [], [], some "8 px"⟩) : ∀ x ∈ sized.preorder, p x := by
  intro x hx
  simp only [sized, Element.preorder, Element.preorderAll, List.append_nil, List.mem_cons,
    List.not_mem_nil, or_false] at hx
  rcases hx with rfl | rfl
  · exact hroot
  · exact htext

theorem neat_sized : ∀ x ∈ sized.preorder, x.Neat :=
  forall_sized ⟨by decide +kernel, by simpa [sized] using by decide +kernel⟩
    ⟨by decide +kernel, by simp⟩

theorem values_sized (name : String) :
    ∀ x ∈ sized.preorder, ∀ a ∈ x.attributes, ¬ EndsIn name a.value := by
  refine forall_sized ?_ (by simp)
  intro a ha
  apply not_endsIn_of_not_mem
  simp only [sized, List.mem_cons, List.not_mem_nil, or_false] at ha
  rcases ha with rfl | rfl | rfl <;> decide

theorem texts_sized (name : String) : ∀ x ∈ sized.preorder, x.children = [] →
    ∀ text, x.meaningfulText = some text → ¬ Mentions name text := by
  refine forall_sized (fun h => by cases h) ?_
  intro _ text htext
  apply not_mentions_of_not_mem
  have hshown : Element.meaningfulText ⟨"text", [], [], some "8 px"⟩ = some "8 px" := by
    decide +kernel
  obtain rfl := Option.some.inj (hshown.symm.trans htext)
  decide

theorem apply_render_sized :
    (∀ x ∈ sized.preorder, x.Neat) ∧
      (∀ u ∈ (PropSchema.ofFlags .all).usages, ∀ x ∈ sized.preorder, ∀ a ∈ x.attributes,
        ¬ EndsIn u.target a.value) ∧
      (∀ u ∈ (PropSchema.ofFlags .all).usages, ∀ x ∈ sized.preorder, x.children = [] →
        ∀ text, x.meaningfulText = some text → ¬ Mentions u.target text) ∧
      Templating.apply (PropSchema.ofFlags .all).usages (sized.render 1) =
        sized.renderWith (·.charsReferring (PropSchema.ofFlags .all).usages) 1 :=
  ⟨neat_sized, fun u _ => values_sized u.target, fun u _ => texts_sized u.target,
    apply_render_ofFlags .all neat_sized (fun u _ => values_sized u.target)
      (fun u _ => texts_sized u.target) 1⟩

end Pictogram
