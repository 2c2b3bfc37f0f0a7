import Pictogram.Proofs.Component.Restoring
import Pictogram.Proofs.Component.Returning
import Pictogram.Proofs.Text.Padding

/-!
What tidying a source does to the drawing in it. The rows of a body are tidied into the rows of a
drawing that is the same but for the padding in its values and texts, and what a source returns is
read as that drawing.
-/

namespace Pictogram

open Text Markup

/-- A text without its padding. -/
def Text.unpadded (text : String) : String :=
  .ofList (dropPadding text.toList)

/-- An attribute with its value changed. -/
def Attribute.mapValue (f : String → String) (a : Attribute) : Attribute :=
  { a with value := f a.value }

mutual

/-- What an element shows, down to its last descendant: tags, attributes and meaningful texts, with
every value and every text changed by a function. -/
def Element.shownWith (f : String → String) : Element → Element
  | ⟨tag, attributes, children, text⟩ =>
    ⟨tag, attributes.map (·.mapValue f), shownAllWith f children,
      (Element.meaningfulText ⟨tag, attributes, children, text⟩).map f⟩

/-- What several elements show. -/
def Element.shownAllWith (f : String → String) : List Element → List Element
  | [] => []
  | e :: es => e.shownWith f :: shownAllWith f es

end

/-- What an element shows. -/
def Element.shown (e : Element) : Element :=
  e.shownWith id

/-- Whether a function returns a text, from its first `return (` to its end. -/
def Returns (source body : String) : Prop :=
  ∃ before, splitAround? "return (".toList source.toList =
    some (before, body.toList ++ ");\n\x7d\n".toList)

theorem unpadded_eq_self_iff {text : String} : unpadded text = text ↔ ¬ Padded text.toList := by
  rw [← dropPadding_eq_self_iff, unpadded, ← String.toList_inj, String.toList_ofList]

section Attributes

variable (f : String → String) (attributes : List Attribute)

theorem lastSpelled?_mapValue (name : String) :
    Attribute.lastSpelled? (attributes.map (·.mapValue f)) name =
      (Attribute.lastSpelled? attributes name).map (·.mapValue f) := by
  rw [Attribute.lastSpelled?, ← List.map_reverse, List.find?_map]
  rfl

theorem survivors_mapValue :
    Attribute.survivors (attributes.map (·.mapValue f)) =
      (Attribute.survivors attributes).map (·.mapValue f) := by
  have hshown : Attribute.shown (attributes.map (·.mapValue f)) =
      (Attribute.shown attributes).map (·.mapValue f) := List.filter_map
  rw [Attribute.survivors, Attribute.survivors, hshown, List.map_map, List.map_filterMap]
  apply List.filterMap_congr
  intro name _
  exact lastSpelled?_mapValue f _ name

theorem restoredAttributes_mapValue :
    restoredAttributes (attributes.map (·.mapValue f)) =
      (restoredAttributes attributes).map (·.mapValue f) := by
  rw [restoredAttributes, survivors_mapValue, restoredAttributes, List.map_map, List.map_map]
  rfl

end Attributes

section Shown

variable {f g : String → String}

mutual

theorem preorder_shownWith : ∀ e : Element,
    (e.shownWith f).preorder = e.preorder.map (Element.shownWith f)
  | ⟨tag, attributes, children, text⟩ => by
    rw [Element.preorder, List.map_cons, ← preorderAll_shownAllWith children, Element.shownWith,
      Element.preorder]

theorem preorderAll_shownAllWith : ∀ es : List Element,
    Element.preorderAll (Element.shownAllWith f es) =
      (Element.preorderAll es).map (Element.shownWith f)
  | [] => rfl
  | e :: es => by
    rw [Element.shownAllWith, Element.preorderAll, Element.preorderAll, List.map_append,
      preorder_shownWith e, preorderAll_shownAllWith es]

end

mutual

/-- Two changes make the same of a tree exactly if they make the same of every value and of every
meaningful text in it. -/
theorem shownWith_eq_iff : ∀ e : Element,
    e.shownWith f = e.shownWith g ↔ ∀ x ∈ e.preorder,
      (∀ a ∈ x.attributes, f a.value = g a.value) ∧
        ∀ text, x.meaningfulText = some text → f text = g text
  | ⟨tag, attributes, children, text⟩ => by
    have hattributes : attributes.map (·.mapValue f) = attributes.map (·.mapValue g) ↔
        ∀ a ∈ attributes, f a.value = g a.value := by
      simp [Attribute.mapValue]
    have htext : (Element.meaningfulText ⟨tag, attributes, children, text⟩).map f =
        (Element.meaningfulText ⟨tag, attributes, children, text⟩).map g ↔
        ∀ shown, Element.meaningfulText ⟨tag, attributes, children, text⟩ = some shown →
          f shown = g shown := by
      cases Element.meaningfulText ⟨tag, attributes, children, text⟩ <;> simp
    rw [forall_preorder_iff, ← shownAllWith_eq_iff children, ← hattributes, ← htext,
      Element.shownWith, Element.shownWith, Element.mk.injEq]
    tauto

theorem shownAllWith_eq_iff : ∀ es : List Element,
    Element.shownAllWith f es = Element.shownAllWith g es ↔ ∀ x ∈ Element.preorderAll es,
      (∀ a ∈ x.attributes, f a.value = g a.value) ∧
        ∀ text, x.meaningfulText = some text → f text = g text
  | [] => by simp [Element.shownAllWith, Element.preorderAll]
  | e :: es => by
    rw [forall_preorderAll_cons_iff, ← shownWith_eq_iff e, ← shownAllWith_eq_iff es,
      Element.shownAllWith, Element.shownAllWith, List.cons.injEq]

end

end Shown

section Meaningful

variable {e : Element} {text : String}

theorem trimmed_of_meaningfulText (h : e.meaningfulText = some text) :
    Trimmed text.toList ∧ text.toList ≠ [] := by
  refine ⟨?_, meaningfulText_ne_nil h⟩
  rw [Element.meaningfulText] at h
  split at h
  · cases h
  next own _ =>
    split at h
    · cases h
    next c cs htrim =>
      obtain rfl := Option.some.inj h
      rw [String.toList_ofList, ← htrim]
      exact trimmed_trim own.toList

variable (tag : String) (attributes : List Attribute) (children : List Element)

theorem meaningfulText_of_trimmed (h : Trimmed text.toList) (hne : text.toList ≠ []) :
    Element.meaningfulText ⟨tag, attributes, children, some text⟩ = some text := by
  obtain ⟨c, cs, hcs⟩ := List.exists_cons_of_ne_nil hne
  have htrim : trim text.toList = c :: cs := by rw [trim_eq_self h, hcs]
  rw [Element.meaningfulText]
  simp only [htrim]
  rw [← hcs, String.ofList_toList]

/-- A meaningful text is one still when it stands in an element alone, and without its padding. -/
theorem meaningfulText_meaningfulText (e : Element) :
    Element.meaningfulText ⟨tag, attributes, children, e.meaningfulText⟩ = e.meaningfulText ∧
      Element.meaningfulText ⟨tag, attributes, children, e.meaningfulText.map unpadded⟩ =
        e.meaningfulText.map unpadded := by
  cases h : e.meaningfulText with
  | none => exact ⟨rfl, rfl⟩
  | some text =>
    obtain ⟨htrimmed, hne⟩ := trimmed_of_meaningfulText h
    refine ⟨meaningfulText_of_trimmed _ _ _ htrimmed hne, meaningfulText_of_trimmed _ _ _ ?_ ?_⟩
    · rw [unpadded, String.toList_ofList]
      exact htrimmed.dropPadding
    · rw [unpadded, String.toList_ofList, ne_eq, dropPadding_eq_nil_iff]
      exact hne

end Meaningful

/-- A drawing that is printed so that nothing of it is lost is so printed without its padding too. -/
theorem Faithful.shownWith_unpadded {e : Element} (h : Faithful e) :
    Faithful (e.shownWith unpadded) := by
  obtain ⟨tag, attributes, children, text⟩ := e
  rw [Element.shownWith]
  refine ⟨⟨h.plain.tag, List.forall_mem_map.2 h.plain.attributes⟩, List.forall_mem_map.2 ?_⟩
  intro a ha hshown
  obtain ⟨hempty, hname⟩ := h.valued a ha hshown
  refine ⟨?_, ?_⟩
  · intro hnone
    apply hempty
    rw [← String.toList_inj] at hnone ⊢
    simpa [Attribute.mapValue, unpadded, dropPadding_eq_nil_iff] using hnone
  · -- What lost its padding has a line break, and a plain name has none.
    intro hsame
    have hvalue : dropPadding a.value.toList = a.name.toList := by
      change unpadded a.value = a.name at hsame
      rw [← hsame, unpadded, String.toList_ofList]
    have hne : dropPadding a.value.toList ≠ a.value.toList := by
      rw [hvalue]
      exact fun heq => hname (String.toList_inj.1 heq).symm
    have hbreak := break_mem_of_dropPadding_ne hne
    rw [hvalue] at hbreak
    cases (h.plain.attributes a ha).2 _ hbreak

section Rows

theorem tidyBefore_indentation {c : Char} (hc : c ≠ '\n') (depth : Nat) (rest : List Char) :
    tidyBefore (indentation depth) (c :: rest) = indentation depth ++ c :: rest := by
  rw [indentation]
  induction 2 * (depth + 1) with
  | zero => rfl
  | succ n ih =>
    rw [List.replicate_succ, tidyBefore_cons, ih]
    cases n with
    | zero => exact tidyCons_of_ne hc _ _
    | succ n => exact tidyCons_of_ne (by decide) _ _

theorem tidyBefore_lead (depth : Nat) (row : Row) (rest : List Char) :
    tidyBefore (lead depth) (row.chars ++ rest) = lead depth ++ row.chars ++ rest := by
  obtain ⟨tail, htail⟩ := chars_row row
  rw [htail, List.cons_append, lead, tidyBefore_cons, tidyBefore_indentation (by decide),
    tidyCons_break]
  simp

theorem Escapes.tidyBefore {escape : Char → List Char} (h : Escapes escape)
    (hblank : ∀ c, isBlank c → escape c = [c]) {d : Char} (hd : d ≠ '\n') (cs rest : List Char) :
    Text.tidyBefore (cs.flatMap escape) (d :: rest) =
      (dropPadding cs).flatMap escape ++ d :: rest := by
  refine tidyBefore_flatMap hd hblank (fun c hc => ?_) cs rest
  rcases h c with hself | ⟨tail, hreference, htail⟩
  · rw [hself]
    exact ⟨by simp, by simpa using hc⟩
  · rw [hreference]
    exact ⟨by simp, List.forall_mem_cons.2 ⟨by decide, htail⟩⟩

theorem tidyBefore_value (value : String) (rest : List Char) :
    tidyBefore (value.toList.flatMap PrintedAttribute.escapeChar) ('"' :: rest) =
      (unpadded value).toList.flatMap PrintedAttribute.escapeChar ++ '"' :: rest := by
  rw [unpadded, String.toList_ofList]
  refine escapes_escapeChar.tidyBefore (fun c hc => escapeChar_self ?_ ?_) (by decide) _ _
  · rintro rfl
    cases hc
  · rintro rfl
    cases hc

theorem tidyBefore_text (text : String) (rest : List Char) :
    tidyBefore (text.toList.flatMap escapeTextChar) ('<' :: rest) =
      (unpadded text).toList.flatMap escapeTextChar ++ '<' :: rest := by
  rw [unpadded, String.toList_ofList]
  refine escapes_escapeTextChar.tidyBefore (fun c hc => escapeTextChar_self ?_) (by decide) _ _
  intro hmem
  have hnone : ∀ d ∈ ['&', '<', '>', '\x7b', '\x7d'], isBlank d = false := by decide
  rw [hnone c hmem] at hc
  cases hc

variable {tag : String} {attributes : List Attribute} {children : List Element}
  {own : Option String}

theorem tidyBefore_attribute {a : Attribute} (hname : IsPlain a.name)
    (hvalued : a.value ≠ "" ∧ a.value ≠ a.name)
    (hunpadded : unpadded a.value ≠ "" ∧ unpadded a.value ≠ a.name) (rest : List Char) :
    tidyBefore (PrintedAttribute.ofAttribute a).chars rest =
      (PrintedAttribute.ofAttribute (a.mapValue unpadded)).chars ++ rest := by
  have hchars : ∀ name value : String, PrintedAttribute.chars ⟨name, .quoted value⟩ =
      (' ' :: name.toList) ++ (['=', '"'] ++
        (value.toList.flatMap PrintedAttribute.escapeChar ++ ['"'])) := by
    simp [PrintedAttribute.chars]
  have hquote : tidyBefore ['"'] rest = '"' :: rest := tidyCons_of_not_blank (by decide) rest
  have hequals : ∀ rest, tidyBefore ['=', '"'] rest = '=' :: '"' :: rest :=
    fun rest => tidyBefore_of_not_blank (by decide) rest
  rw [ofAttribute_of_valued hvalued, ofAttribute_of_valued hunpadded, hchars, hchars,
    tidyBefore_append, tidyBefore_append, tidyBefore_append, hquote, tidyBefore_value, hequals,
    tidyBefore_key hname.translate]
  simp [Attribute.mapValue]

theorem tidyBefore_ofAttributes (h : Faithful ⟨tag, attributes, children, own⟩)
    (rest : List Char) :
    tidyBefore ((PrintedAttribute.ofAttributes attributes).flatMap (·.chars)) rest =
      (PrintedAttribute.ofAttributes (attributes.map (·.mapValue unpadded))).flatMap (·.chars) ++
        rest := by
  have hunpadded : Valued (attributes.map (·.mapValue unpadded)) := by
    have hfaithful := h.shownWith_unpadded.valued
    rwa [Element.shownWith] at hfaithful
  have hsurvivors : ∀ a ∈ Attribute.survivors attributes, ∀ rest,
      tidyBefore (PrintedAttribute.ofAttribute a).chars rest =
        (PrintedAttribute.ofAttribute (a.mapValue unpadded)).chars ++ rest := by
    intro a ha
    obtain ⟨hmem, hshown⟩ := Attribute.mem_survivors ha
    exact tidyBefore_attribute (h.plain.attributes a hmem) (h.valued a hmem hshown)
      (List.forall_mem_map.1 hunpadded a hmem hshown)
  rw [PrintedAttribute.ofAttributes_eq, PrintedAttribute.ofAttributes_eq, survivors_mapValue,
    List.map_map, List.flatMap_map, List.flatMap_map]
  revert hsurvivors
  induction Attribute.survivors attributes with
  | nil => exact fun _ => rfl
  | cons a more ih =>
    intro hsurvivors
    obtain ⟨ha, hmore⟩ := List.forall_mem_cons.1 hsurvivors
    rw [List.flatMap_cons, tidyBefore_append, ih hmore, ha, List.flatMap_cons, List.append_assoc]
    rfl

theorem tidyBefore_tag (h : Faithful ⟨tag, attributes, children, own⟩) (rest : List Char) :
    tidyBefore ('<' :: (lowercase tag).toList ++
        (PrintedAttribute.ofAttributes attributes).flatMap (·.chars)) rest =
      '<' :: (lowercase tag).toList ++
        (PrintedAttribute.ofAttributes (attributes.map (·.mapValue unpadded))).flatMap (·.chars) ++
          rest := by
  rw [tidyBefore_append, tidyBefore_ofAttributes h, tidyBefore_cons,
    tidyBefore_name h.plain.tag.lowercase, tidyCons_of_not_blank (by decide), List.append_assoc,
    List.cons_append]

theorem tidyBefore_openingRow (h : Faithful ⟨tag, attributes, children, own⟩)
    (rest : List Char) :
    tidyBefore (Row.opening (lowercase tag) (PrintedAttribute.ofAttributes attributes)).chars rest =
      (Row.opening (lowercase tag)
        (PrintedAttribute.ofAttributes (attributes.map (·.mapValue unpadded)))).chars ++ rest := by
  have hclose : tidyBefore ['>'] rest = '>' :: rest := tidyCons_of_not_blank (by decide) rest
  rw [Row.chars, tidyBefore_append, hclose, tidyBefore_tag h, Row.chars]
  simp

theorem tidyBefore_leafRow (h : Faithful ⟨tag, attributes, children, own⟩)
    (text : Option String) (rest : List Char) :
    tidyBefore (Row.ofLeaf (lowercase tag) (PrintedAttribute.ofAttributes attributes) text).chars
        rest =
      (Row.ofLeaf (lowercase tag) (PrintedAttribute.ofAttributes
        (attributes.map (·.mapValue unpadded))) (text.map unpadded)).chars ++ rest := by
  cases text with
  | none =>
    rw [Row.ofLeaf, Row.chars, tidyBefore_append, tidyBefore_empty, tidyBefore_tag h,
      Option.map_none, Row.ofLeaf, Row.chars]
    simp only [List.append_assoc]
  | some text =>
    have hchars : ∀ (attributes : List PrintedAttribute) (text : String),
        (Row.textLeaf (lowercase tag) attributes text).chars =
          ('<' :: (lowercase tag).toList ++ attributes.flatMap (·.chars)) ++ (['>'] ++
            (text.toList.flatMap escapeTextChar ++
              ('<' :: '/' :: (lowercase tag).toList ++ ['>']))) := by
      simp [Row.chars]
    have hback : tidyBefore (['>'] ++ (text.toList.flatMap escapeTextChar ++
        ('<' :: '/' :: (lowercase tag).toList ++ ['>']))) rest =
        '>' :: ((unpadded text).toList.flatMap escapeTextChar ++
          ('<' :: '/' :: (lowercase tag).toList ++ ['>'] ++ rest)) := by
      rw [tidyBefore_append, tidyBefore_append, tidyBefore_closing h.plain.tag.lowercase,
        List.cons_append, List.cons_append, tidyBefore_text]
      exact tidyBefore_of_not_blank (by decide) _
    rw [Row.ofLeaf, hchars, tidyBefore_append, hback, tidyBefore_tag h, Option.map_some,
      Row.ofLeaf, hchars]
    simp

mutual

/-- Rows are tidied into the rows of the element without its padding, whatever stands behind
them. -/
theorem tidyBefore_rows (depth : Nat) (rest : List Char) : ∀ e : Element,
    (∀ x ∈ e.preorder, Faithful x) →
      tidyBefore ((e.rows depth).flatMap Row.led) rest =
        ((e.shownWith unpadded).rows depth).flatMap Row.led ++ rest
  | ⟨tag, attributes, [], text⟩, h => by
    obtain ⟨hfaithful, -⟩ := forall_preorder_iff.1 h
    rw [Element.rows, Element.shownWith, Element.shownAllWith, Element.rows,
      (meaningfulText_meaningfulText _ _ _ _).2, List.flatMap_singleton, List.flatMap_singleton,
      Row.led, Row.led, tidyBefore_append, tidyBefore_leafRow hfaithful, tidyBefore_lead]
  | ⟨tag, attributes, child :: children, text⟩, h => by
    obtain ⟨hfaithful, hchildren⟩ := forall_preorder_iff.1 h
    have hclosing : tidyBefore (Row.led (depth, .closing (lowercase tag))) rest =
        Row.led (depth, .closing (lowercase tag)) ++ rest := by
      have hrow := tidyBefore_closing hfaithful.plain.tag.lowercase rest
      change tidyBefore (Row.closing (lowercase tag)).chars rest = _ at hrow
      rw [Row.led, tidyBefore_append, hrow]
      exact tidyBefore_lead depth (.closing (lowercase tag)) rest
    rw [Element.rows, List.flatMap_append, List.flatMap_cons, List.flatMap_singleton,
      tidyBefore_append, hclosing, tidyBefore_append,
      tidyBefore_rowsAll (depth + 1) _ (child :: children) hchildren, Row.led, tidyBefore_append,
      tidyBefore_openingRow hfaithful, tidyBefore_lead, Element.shownWith, Element.shownAllWith,
      Element.rows, List.flatMap_append, List.flatMap_cons, List.flatMap_singleton, Row.led,
      Row.led]
    simp only [List.append_assoc]

theorem tidyBefore_rowsAll (depth : Nat) (rest : List Char) : ∀ es : List Element,
    (∀ x ∈ Element.preorderAll es, Faithful x) →
      tidyBefore ((Element.rowsAll depth es).flatMap Row.led) rest =
        (Element.rowsAll depth (Element.shownAllWith unpadded es)).flatMap Row.led ++ rest
  | [], _ => rfl
  | e :: es, h => by
    obtain ⟨he, hes⟩ := forall_preorderAll_cons_iff.1 h
    rw [Element.rowsAll, List.flatMap_append, tidyBefore_append,
      tidyBefore_rowsAll depth rest es hes, tidyBefore_rows depth _ e he, Element.shownAllWith,
      Element.rowsAll, List.flatMap_append, List.append_assoc]

end

end Rows

theorem mapValue_id (attributes : List Attribute) : attributes.map (·.mapValue id) = attributes :=
  List.map_id attributes

mutual

/-- What is restored of an element without its padding shows what is restored of the element,
without its padding. -/
theorem shown_of_restored : ∀ (e : Element) {t t' : Element}, Restored e t →
    Restored (e.shownWith unpadded) t' → t'.shown = t.shownWith unpadded
  | ⟨tag, attributes, [], text⟩, t, t', h, h' => by
    rw [Element.shownWith, Element.shownAllWith] at h'
    cases h with
    | parent hne => exact absurd rfl hne
    | leaf =>
      cases h' with
      | parent hne => exact absurd rfl hne
      | leaf =>
        rw [(meaningfulText_meaningfulText _ _ _ _).2, Element.shown, Element.shownWith,
          Element.shownWith, restoredAttributes_mapValue, mapValue_id,
          (meaningfulText_meaningfulText _ _ _ _).2, (meaningfulText_meaningfulText _ _ _ _).1,
          Option.map_id]
        rfl
  | ⟨tag, attributes, child :: children, text⟩, t, t', h, h' => by
    rw [Element.shownWith] at h'
    cases h with
    | parent _ hchildren hblank =>
      cases h' with
      | parent _ hchildren' hblank' =>
        rw [Element.shown, Element.shownWith, Element.shownWith, hblank, hblank',
          restoredAttributes_mapValue, mapValue_id,
          shownAll_of_restored (child :: children) hchildren hchildren']
        rfl

theorem shownAll_of_restored : ∀ (es : List Element) {ts ts' : List Element},
    List.Forall₂ Restored es ts → List.Forall₂ Restored (Element.shownAllWith unpadded es) ts' →
      Element.shownAllWith id ts' = Element.shownAllWith unpadded ts
  | [], ts, ts', h, h' => by
    rw [Element.shownAllWith] at h'
    cases h
    cases h'
    rfl
  | e :: es, ts, ts', h, h' => by
    rw [Element.shownAllWith] at h'
    cases h with
    | cons he hes =>
      cases h' with
      | cons he' hes' =>
        have hfirst := shown_of_restored e he he'
        rw [Element.shown] at hfirst
        rw [Element.shownAllWith, Element.shownAllWith, hfirst, shownAll_of_restored es hes hes']

end

namespace Component

/-- Without props a component shows its drawing as it is printed. -/
theorem body_of_none (root : Element) : body root (.ofFlags .none) = root.render 1 :=
  String.ofList_toList

/-- What a component without props returns: the rows of its drawing without the padding. -/
theorem returns_source {root : Element} {options : Options} (hvalid : options.validate = .ok ())
    (hprops : options.props = .none) (h : ∀ x ∈ root.preorder, Faithful x) :
    Returns (source root options)
      (.ofList (((root.shownWith unpadded).rows 1).flatMap Row.led ++ "\n  ".toList)) := by
  obtain ⟨before, hsplit⟩ := splitAround?_source root hvalid
  have hreturned : returned root (.ofFlags options.props) =
      (root.rows 1).flatMap Row.led ++ "\n  ".toList := by
    rw [returned, hprops, body_of_none, Element.render, String.toList_ofList, led_renderChars]
    rfl
  have hend : tidyBefore "\n  ".toList footing = "\n  ".toList ++ footing := by decide
  refine ⟨before, ?_⟩
  rw [hsplit, hreturned, tidyBefore_append, hend, tidyBefore_rows 1 _ root h, String.toList_ofList]
  simp [footing]

/-- The tidying of a source touches layout and padding alone: what a component without props returns
is read, and shows what its body shows before it is tidied, except that the values and the texts have
lost the blanks in front of their line breaks. It shows the same exactly if there are none. -/
theorem returned_unpadded {root : Element} {options : Options} (hvalid : options.validate = .ok ())
    (hprops : options.props = .none) (hroot : isDrawing root)
    (h : ∀ x ∈ root.preorder, Faithful x) :
    ∃ body plain read, Returns (source root options) body ∧
      Element.parse (root.render 1) = .ok plain ∧ Element.parse body = .ok read ∧
      read.shown = plain.shownWith unpadded ∧
      (read.shown = plain.shown ↔ ∀ x ∈ plain.preorder,
        (∀ a ∈ x.attributes, ¬ Padded a.value.toList) ∧
          ∀ text, x.meaningfulText = some text → ¬ Padded text.toList) := by
  have hroot' : isDrawing (root.shownWith unpadded) := by
    obtain ⟨tag, attributes, children, text⟩ := root
    rwa [Element.shownWith]
  have hunpadded : ∀ x ∈ (root.shownWith unpadded).preorder, Faithful x := by
    rw [preorder_shownWith, List.forall_mem_map]
    exact fun x hx => (h x hx).shownWith_unpadded
  obtain ⟨plain, hplain, hrestored⟩ := exists_parse_render hroot h 1
  obtain ⟨read, hread, hrestored'⟩ := exists_parse_rows hroot' hunpadded 1
    (show "\n  ".toList ≠ [] by decide) (by decide)
  have hshown := shown_of_restored root hrestored hrestored'
  refine ⟨_, plain, read, returns_source hvalid hprops h, hplain, hread, hshown, ?_⟩
  rw [hshown, Element.shown, shownWith_eq_iff]
  simp only [id_eq, unpadded_eq_self_iff]

/-- A drawing with a padded value. -/
def wrapped : Element :=
  ⟨"svg", [⟨"d", "a \nb"⟩], [], none⟩

theorem faithful_wrapped : ∀ x ∈ wrapped.preorder, Faithful x := by
  rw [wrapped, Element.preorder, Element.preorderAll, List.forall_mem_singleton]
  refine ⟨⟨by decide +kernel, ?_⟩, ?_⟩
  · exact List.forall_mem_singleton.2 (by decide +kernel)
  · exact List.forall_mem_singleton.2 fun _ => by decide

theorem returned_unpadded_wrapped :
    (⟨"Icon", .typed, .none⟩ : Options).validate = .ok () ∧ isDrawing wrapped ∧
      (∀ x ∈ wrapped.preorder, Faithful x) ∧
      ∃ body plain read, Returns (source wrapped ⟨"Icon", .typed, .none⟩) body ∧
        Element.parse (wrapped.render 1) = .ok plain ∧ Element.parse body = .ok read ∧
        read.shown = plain.shownWith unpadded := by
  obtain ⟨body, plain, read, hreturns, hplain, hread, hshown, -⟩ :=
    @returned_unpadded wrapped ⟨"Icon", .typed, .none⟩ (by decide +kernel) rfl
      (by decide +kernel) faithful_wrapped
  exact ⟨by decide +kernel, by decide +kernel, faithful_wrapped, body, plain, read, hreturns,
    hplain, hread, hshown⟩

/-- What the source of a drawing with a padded value returns is read with another value than its
body before it is tidied. -/
theorem value_of_wrapped_not_returned :
    (⟨"Icon", .typed, .none⟩ : Options).validate = .ok () ∧ isDrawing wrapped ∧
      (∀ x ∈ wrapped.preorder, Faithful x) ∧
      ∃ body, Returns (source wrapped ⟨"Icon", .typed, .none⟩) body ∧
        Element.parse (wrapped.render 1) = .ok ⟨"svg", [⟨"d", "a \nb"⟩], [], none⟩ ∧
        Element.parse body = .ok ⟨"svg", [⟨"d", "a\nb"⟩], [], none⟩ := by
  have hreturns : Returns (source wrapped ⟨"Icon", .typed, .none⟩)
      "\n    <svg d=\"a\nb\" />\n  " :=
    ⟨"export function Icon() \x7b\n  ".toList, by decide +kernel⟩
  have hparse : ∀ text value, (Element.parse text).map (fun x =>
      (x.tag, x.attributes, x.children.isEmpty, x.text)) =
        .ok ("svg", [⟨"d", value⟩], true, none) →
      Element.parse text = .ok ⟨"svg", [⟨"d", value⟩], [], none⟩ := by
    intro text value h
    cases hread : Element.parse text with
    | error e =>
      rw [hread] at h
      cases h
    | ok x =>
      obtain ⟨tag, attributes, children, content⟩ := x
      simp only [hread, Except.map, Except.ok.injEq, Prod.mk.injEq, List.isEmpty_iff] at h
      obtain ⟨rfl, rfl, rfl, rfl⟩ := h
      rfl
  exact ⟨by decide +kernel, by decide +kernel, faithful_wrapped, _, hreturns,
    hparse _ _ (by decide +kernel), hparse _ _ (by decide +kernel)⟩

end Component

end Pictogram
