import Pictogram.Proofs.Component.Rows
import Pictogram.Proofs.Component.Survivors

/-!
What a tag shows of an attribute list, told without the list that is built while it is printed: every
spelling once, in the order in which the spellings first occur, each as the last attribute of that
spelling has it. The value of an attribute that is not the last of its spelling shows nowhere.
-/

namespace Pictogram

open AttributeName

/-- The text of an attribute in a tag. The name stands alone if the value is empty or repeats the
name that the attribute has in the drawing. -/
def Attribute.assignment (a : Attribute) : List Char :=
  if a.value = "" ∨ a.value = a.name then (AttributeName.translate a.name).toList
  else (AttributeName.translate a.name).toList ++ '=' :: '"' ::
    a.value.toList.flatMap PrintedAttribute.escapeChar ++ ['"']

/-- Whether some attributes are those that a tag shows of a list. -/
structure Attribute.Collapses (attributes kept : List Attribute) : Prop where
  /-- Every spelling comes once, in the order in which they first occur. -/
  names : kept.map (AttributeName.translate ·.name) =
    ((attributes.filter (!isNamespaceDeclaration ·.name)).map
      (AttributeName.translate ·.name)).eraseDups
  /-- No attribute that is spelled alike follows. -/
  last : ∀ a ∈ kept, ∃ before after, attributes = before ++ a :: after ∧
    ∀ b ∈ after, AttributeName.translate b.name ≠ AttributeName.translate a.name

/-- What follows the attributes in the printed text of an element. -/
def Element.behindAttributes (depth : Nat) (tag : String) (text : Option String) :
    List Element → List Char
  | [] =>
    match Element.meaningfulText ⟨tag, [], [], text⟩ with
    | none => [' ', '/', '>']
    | some shown => '>' :: shown.toList.flatMap escapeTextChar ++ '<' :: '/' ::
        (Text.lowercase tag).toList ++ ['>']
  | child :: children =>
    '>' :: (child :: children).flatMap (fun e => '\n' :: e.renderChars (depth + 1)) ++ lead depth ++
      '<' :: '/' :: (Text.lowercase tag).toList ++ ['>']

/-- Whether two trees differ only in the value of one attribute that a later one of its element is
spelled like. -/
inductive Element.Resets : Element → Element → Prop where
  | here (tag : String) (before after : List Attribute) (name value value' : String)
      (children : List Element) (text : Option String)
      (hlater : ∃ b ∈ after, AttributeName.translate b.name = AttributeName.translate name) :
      Resets ⟨tag, before ++ ⟨name, value⟩ :: after, children, text⟩
        ⟨tag, before ++ ⟨name, value'⟩ :: after, children, text⟩
  | inside (tag : String) (attributes : List Attribute) (before after : List Element)
      (text : Option String) {e e' : Element} (h : Resets e e') :
      Resets ⟨tag, attributes, before ++ e :: after, text⟩
        ⟨tag, attributes, before ++ e' :: after, text⟩

/-- No spelling is that of a namespace declaration, but for the declarations themselves. -/
theorem isNamespaceDeclaration_translate (name : String) :
    isNamespaceDeclaration (AttributeName.translate name) = isNamespaceDeclaration name := by
  have htable : ∀ entry ∈ spellings, isNamespaceDeclaration entry.1 = false ∧
      isNamespaceDeclaration entry.2 = false := by
    decide +kernel
  rw [AttributeName.translate]
  cases hlookup : spellings.lookup name with
  | none => rfl
  | some spelling =>
    obtain ⟨before, after, hentries, -⟩ := List.lookup_eq_some_iff.1 hlookup
    obtain ⟨hname, hspelling⟩ := htable (name, spelling) (by simp [hentries])
    exact hspelling.trans hname.symm

namespace Attribute

variable {attributes before after kept : List Attribute} {a : Attribute} {name : String}

theorem lastSpelled?_append (before after : List Attribute) (name : String) :
    lastSpelled? (before ++ after) name =
      (lastSpelled? after name).or (lastSpelled? before name) := by
  rw [lastSpelled?, List.reverse_append, List.find?_append]
  rfl

theorem lastSpelled?_eq_none_iff :
    lastSpelled? attributes name = none ↔
      ∀ a ∈ attributes, AttributeName.translate a.name ≠ name := by
  simp [lastSpelled?]

/-- The last attribute of its spelling, among those that are no namespace declarations. -/
theorem lastSpelled?_shown_eq_some_iff (hshown : isNamespaceDeclaration name = false) :
    lastSpelled? (shown attributes) name = some a ↔
      ∃ before after, attributes = before ++ a :: after ∧ AttributeName.translate a.name = name ∧
        ∀ b ∈ after, AttributeName.translate b.name ≠ name := by
  -- Whether the declarations are left out makes no difference to any other spelling.
  have hall : lastSpelled? (shown attributes) name = lastSpelled? attributes name := by
    induction attributes using List.reverseRecOn with
    | nil => rfl
    | append_singleton attributes b ih =>
      rw [shown, List.filter_append, ← shown, lastSpelled?_append, lastSpelled?_append, ih]
      by_cases hb : isNamespaceDeclaration b.name
      · have hother : AttributeName.translate b.name ≠ name := by
          rintro rfl
          rw [isNamespaceDeclaration_translate, hb] at hshown
          cases hshown
        simp [lastSpelled?, hb, hother]
      · simp [hb]
  rw [hall, lastSpelled?, List.find?_eq_some_iff_append]
  constructor
  · rintro ⟨hname, later, earlier, hreverse, hlater⟩
    refine ⟨earlier.reverse, later.reverse, ?_, by simpa using hname, ?_⟩
    · rw [← List.reverse_reverse attributes, hreverse]
      simp
    · intro b hb
      simpa using hlater b (List.mem_reverse.1 hb)
  · rintro ⟨before, after, rfl, hname, hlater⟩
    refine ⟨by simpa using hname, after.reverse, before.reverse, by simp, ?_⟩
    intro b hb
    simpa using hlater b (List.mem_reverse.1 hb)

theorem Collapses.not_isNamespaceDeclaration (h : Collapses attributes kept) (ha : a ∈ kept) :
    isNamespaceDeclaration (AttributeName.translate a.name) = false := by
  have hname := List.mem_map_of_mem (f := (AttributeName.translate ·.name)) ha
  rw [h.names, List.mem_eraseDups] at hname
  obtain ⟨b, hb, hsame⟩ := List.mem_map.1 hname
  rw [← hsame, isNamespaceDeclaration_translate]
  simpa using (List.mem_filter.1 hb).2

/-- What is printed of an attribute list collapses it, and nothing else does. -/
theorem collapses_iff : Collapses attributes kept ↔ kept = survivors attributes := by
  constructor
  · intro h
    -- An attribute that is last of its spelling is what the search for that spelling finds.
    have hlast : ∀ a ∈ kept,
        lastSpelled? (shown attributes) (AttributeName.translate a.name) = some a := by
      intro a ha
      obtain ⟨before, after, hsplit, hlater⟩ := h.last a ha
      exact (lastSpelled?_shown_eq_some_iff (h.not_isNamespaceDeclaration ha)).2
        ⟨before, after, hsplit, rfl, hlater⟩
    rw [survivors, shown, ← h.names, List.filterMap_map]
    exact ((List.filterMap_congr hlast).trans List.filterMap_some).symm
  · rintro rfl
    refine ⟨names_survivors attributes, fun a ha => ?_⟩
    obtain ⟨name, hname, hlast⟩ := List.mem_filterMap.1 ha
    obtain ⟨b, hb, rfl⟩ := List.mem_map.1 (List.mem_eraseDups.1 hname)
    have hshown : isNamespaceDeclaration (AttributeName.translate b.name) = false := by
      rw [isNamespaceDeclaration_translate]
      simpa using (List.mem_filter.1 hb).2
    obtain ⟨before, after, hsplit, hsame, hlater⟩ := (lastSpelled?_shown_eq_some_iff hshown).1 hlast
    exact ⟨before, after, hsplit, fun c hc => hsame ▸ hlater c hc⟩

theorem chars_ofAttribute (a : Attribute) :
    (PrintedAttribute.ofAttribute a).chars = ' ' :: a.assignment := by
  by_cases hbare : a.value = "" ∨ a.value = a.name
  · simp [PrintedAttribute.ofAttribute, PrintedAttribute.chars, assignment, hbare]
  · simp [PrintedAttribute.ofAttribute, PrintedAttribute.chars, assignment, hbare]

theorem lastSpelled?_reset {b : Attribute} (hb : b ∈ after)
    (hsame : AttributeName.translate b.name = AttributeName.translate name) (value value' : String)
    (before : List Attribute) :
    lastSpelled? (before ++ ⟨name, value⟩ :: after) =
      lastSpelled? (before ++ ⟨name, value'⟩ :: after) := by
  funext spelling
  have hlater : ∀ value, lastSpelled? (⟨name, value⟩ :: after) spelling =
      lastSpelled? after spelling := by
    intro value
    rw [← List.singleton_append, lastSpelled?_append]
    cases hlast : lastSpelled? after spelling with
    | none =>
      have hother : AttributeName.translate name ≠ spelling := by
        rw [← hsame]
        exact lastSpelled?_eq_none_iff.1 hlast b hb
      simp [lastSpelled?, hother]
    | some c => rfl
  rw [lastSpelled?_append, lastSpelled?_append, hlater, hlater]

/-- A value that a later attribute supersedes does not matter. -/
theorem survivors_reset {b : Attribute} (hb : b ∈ after)
    (hsame : AttributeName.translate b.name = AttributeName.translate name) (value value' : String)
    (before : List Attribute) :
    survivors (before ++ ⟨name, value⟩ :: after) =
      survivors (before ++ ⟨name, value'⟩ :: after) := by
  cases hdeclares : isNamespaceDeclaration name with
  | true => simp [survivors, shown, hdeclares]
  | false =>
    have hshown : ∀ value, shown (before ++ ⟨name, value⟩ :: after) =
        shown before ++ ⟨name, value⟩ :: shown after := by
      simp [shown, hdeclares]
    have hb' : b ∈ shown after := by
      rw [← isNamespaceDeclaration_translate, ← hsame, isNamespaceDeclaration_translate] at hdeclares
      simpa [shown] using ⟨hb, hdeclares⟩
    rw [survivors, survivors, hshown, hshown, lastSpelled?_reset hb' hsame value value',
      List.map_append, List.map_append, List.map_cons, List.map_cons]

end Attribute

section Printing

variable {depth : Nat} {tag : String} {attributes : List Attribute} {children : List Element}
  {text : Option String} {e e' : Element}

theorem rowsAll_append (depth : Nat) (es es' : List Element) :
    Element.rowsAll depth (es ++ es') = Element.rowsAll depth es ++ Element.rowsAll depth es' := by
  induction es with
  | nil => rfl
  | cons e es ih => rw [List.cons_append, Element.rowsAll, Element.rowsAll, ih, List.append_assoc]

theorem rows_of_ne_nil (h : children ≠ []) :
    Element.rows depth ⟨tag, attributes, children, text⟩ =
      (depth, .opening (Text.lowercase tag) (PrintedAttribute.ofAttributes attributes)) ::
        Element.rowsAll (depth + 1) children ++ [(depth, .closing (Text.lowercase tag))] := by
  cases children with
  | nil => exact absurd rfl h
  | cons child children => rfl

/-- The rows of an element do not tell what the values that are superseded have been. -/
theorem rows_of_resets (h : e.Resets e') : ∀ depth, e.rows depth = e'.rows depth := by
  induction h with
  | here tag before after name value value' children text hlater =>
    obtain ⟨b, hb, hsame⟩ := hlater
    intro depth
    have hsurvivors : Attribute.survivors (before ++ ⟨name, value⟩ :: after) =
        Attribute.survivors (before ++ ⟨name, value'⟩ :: after) :=
      Attribute.survivors_reset hb hsame value value' before
    have hshown : PrintedAttribute.ofAttributes (before ++ ⟨name, value⟩ :: after) =
        PrintedAttribute.ofAttributes (before ++ ⟨name, value'⟩ :: after) := by
      rw [PrintedAttribute.ofAttributes_eq, PrintedAttribute.ofAttributes_eq, hsurvivors]
    cases children with
    | nil =>
      rw [Element.rows, Element.rows, hshown]
      rfl
    | cons child children => rw [Element.rows, Element.rows, hshown]
  | inside tag attributes before after text h ih =>
    intro depth
    rw [rows_of_ne_nil (by simp), rows_of_ne_nil (by simp), rowsAll_append, rowsAll_append,
      Element.rowsAll, Element.rowsAll, ih]

/-- What a tag shows of its attributes, one behind the other. -/
theorem chars_ofAttributes_eq (attributes : List Attribute) :
    (PrintedAttribute.ofAttributes attributes).flatMap (·.chars) =
      (Attribute.survivors attributes).flatMap (' ' :: ·.assignment) := by
  rw [PrintedAttribute.ofAttributes_eq, List.flatMap_map]
  exact congrArg (List.flatMap · _) (funext Attribute.chars_ofAttribute)

theorem led_rowsAll (depth : Nat) (es : List Element) :
    (Element.rowsAll depth es).flatMap Row.led = es.flatMap ('\n' :: ·.renderChars depth) := by
  induction es with
  | nil => rfl
  | cons e es ih =>
    rw [Element.rowsAll, List.flatMap_append, ih, ← led_renderChars, List.flatMap_cons]

/-- The printed text of an element is that of its first tag, and behind it those of its children. -/
theorem renderChars_eq_tag (depth : Nat) (tag : String) (attributes : List Attribute)
    (children : List Element) (text : Option String) :
    Element.renderChars depth ⟨tag, attributes, children, text⟩ =
      indentation depth ++ '<' :: (Text.lowercase tag).toList ++
        (Attribute.survivors attributes).flatMap (' ' :: ·.assignment) ++
        Element.behindAttributes depth tag text children := by
  apply List.cons_injective (a := '\n')
  rw [led_renderChars, ← chars_ofAttributes_eq]
  cases children with
  | nil =>
    have htext : Element.meaningfulText ⟨tag, attributes, [], text⟩ =
        Element.meaningfulText ⟨tag, [], [], text⟩ := rfl
    rw [Element.rows, Element.behindAttributes, htext]
    cases Element.meaningfulText ⟨tag, [], [], text⟩ with
    | none => simp [Row.led, lead, Row.ofLeaf, Row.chars]
    | some shown => simp [Row.led, lead, Row.ofLeaf, Row.chars]
  | cons child children =>
    rw [Element.rows, List.flatMap_append, List.flatMap_cons, led_rowsAll,
      Element.behindAttributes]
    simp [Row.led, lead, Row.chars]

end Printing

/-- The attributes that an element is printed with have the spellings of those of the drawing other
than namespace declarations, each once and in the order in which they first occur, and each is
printed from the last attribute of its spelling. Nothing else of the printed text depends on the
attributes, and a value that is superseded does not matter to the text of any tree around it. -/
theorem render_collapses :
    (∀ attributes, ∃ kept, (∀ other, Attribute.Collapses attributes other ↔ other = kept) ∧
      (kept.map (AttributeName.translate ·.name)).Nodup ∧
      ∀ a ∈ kept, AttributeName.translate a.name ≠ "xmlns" ∧
        AttributeName.translate a.name ≠ "xmlns:svg") ∧
      (∀ depth tag attributes children text kept, Attribute.Collapses attributes kept →
        Element.renderChars depth ⟨tag, attributes, children, text⟩ =
          indentation depth ++ '<' :: (Text.lowercase tag).toList ++
            kept.flatMap (' ' :: ·.assignment) ++
            Element.behindAttributes depth tag text children) ∧
      ∀ e e' : Element, e.Resets e' → ∀ depth, e.render depth = e'.render depth := by
  refine ⟨fun attributes => ?_, fun depth tag attributes children text kept hkept => ?_,
    fun e e' h depth => ?_⟩
  · refine ⟨_, fun _ => Attribute.collapses_iff, Attribute.nodup_survivors attributes, ?_⟩
    intro a ha
    have hname := (Attribute.collapses_iff.2 rfl).not_isNamespaceDeclaration ha
    simpa [isNamespaceDeclaration] using hname
  · rw [Attribute.collapses_iff.1 hkept]
    exact renderChars_eq_tag depth tag attributes children text
  · rw [Element.render, Element.render, Element.renderChars, Element.renderChars, rows_of_resets h]

/-- Three attributes that are spelled alike around another one and a namespace declaration; the last
of the three repeats its name. -/
def relabelled : List Attribute :=
  [⟨"class", "a"⟩, ⟨"xmlns", "b"⟩, ⟨"id", "c"⟩, ⟨"className", "d"⟩, ⟨"class", "class"⟩]

theorem render_collapses_relabelled :
    (Attribute.Collapses relabelled [⟨"class", "class"⟩, ⟨"id", "c"⟩] ∧
      Element.renderChars 1 ⟨"path", relabelled, [], none⟩ =
        indentation 1 ++ '<' :: (Text.lowercase "path").toList ++
          [⟨"class", "class"⟩, ⟨"id", "c"⟩].flatMap (' ' :: Attribute.assignment ·) ++
          Element.behindAttributes 1 "path" none []) ∧
      Element.Resets ⟨"g", [], [⟨"path", relabelled, [], none⟩], none⟩
        ⟨"g", [], [⟨"path", ⟨"class", "e"⟩ :: relabelled.tail, [], none⟩], none⟩ ∧
      Element.render 1 ⟨"g", [], [⟨"path", relabelled, [], none⟩], none⟩ =
        Element.render 1 ⟨"g", [], [⟨"path", ⟨"class", "e"⟩ :: relabelled.tail, [], none⟩], none⟩ := by
  have hcollapses : Attribute.Collapses relabelled [⟨"class", "class"⟩, ⟨"id", "c"⟩] := by
    refine ⟨by decide +kernel, ?_⟩
    intro a ha
    simp only [List.mem_cons, List.not_mem_nil, or_false] at ha
    rcases ha with rfl | rfl
    · exact ⟨[⟨"class", "a"⟩, ⟨"xmlns", "b"⟩, ⟨"id", "c"⟩, ⟨"className", "d"⟩], [], rfl, by simp⟩
    · exact ⟨[⟨"class", "a"⟩, ⟨"xmlns", "b"⟩], [⟨"className", "d"⟩, ⟨"class", "class"⟩], rfl,
        by decide +kernel⟩
  have hresets : Element.Resets ⟨"g", [], [⟨"path", relabelled, [], none⟩], none⟩
      ⟨"g", [], [⟨"path", ⟨"class", "e"⟩ :: relabelled.tail, [], none⟩], none⟩ :=
    .inside "g" [] [] [] none (.here "path" [] relabelled.tail "class" "a" "e" [] none
      ⟨⟨"class", "class"⟩, by simp [relabelled], rfl⟩)
  exact ⟨⟨hcollapses, render_collapses.2.1 1 "path" relabelled [] none _ hcollapses⟩,
    hresets, render_collapses.2.2 _ _ hresets 1⟩

end Pictogram
