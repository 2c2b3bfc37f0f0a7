import Pictogram.Proofs.Component.Referring
import Pictogram.Proofs.Component.Returning

/-!
Well-formed components. A body printed with references derives from the grammar whatever values and
texts it shows, and a component returns such a body where nothing it shows is harmful.
-/

namespace Pictogram

/-- Whether a usage refers to one of the given props. -/
def Usage.RefersTo (props : List String) (u : Usage) : Prop :=
  ∃ p ∈ props, u.reference.toList = '\x7b' :: p.toList ++ ['\x7d']

/-- The names of the props that flags ask for. -/
def PropFlags.names (flags : PropFlags) : List String :=
  (PropSchema.ofFlags flags).props.map (·.name)

variable {props : List String} {usages : List Usage}

theorem layout_lead (depth : Nat) : IsLayout (lead depth) := by
  refine List.forall_mem_cons.2 ⟨rfl, ?_⟩
  intro c hc
  obtain rfl := (List.mem_replicate.1 hc).2
  rfl

theorem inert_escape (text : String) : IsInert (text.toList.flatMap escapeTextChar) := by
  intro special hspecial
  exact not_mem_escape (special_not_mem_escapeTextChar hspecial) text.toList

section Rows

variable (husages : ∀ u ∈ usages, u.RefersTo props)
include husages

/-- What a printed attribute shows behind its name is a value. -/
theorem charsReferring_eq (a : PrintedAttribute) :
    ∃ value, a.charsReferring usages = ' ' :: a.name.toList ++ value ∧ DerivesValue props value := by
  cases hvalue : a.value with
  | bare =>
    refine ⟨[], ?_, .bare⟩
    rw [charsReferring_of_bare hvalue, PrintedAttribute.chars, hvalue, List.append_nil]
  | quoted value =>
    cases hfind : usages.find? (·.target = a.name) with
    | none =>
      have hquote := not_mem_escape quote_not_mem_escapeChar value.toList
      refine ⟨_, ?_, .quoted hquote⟩
      rw [charsReferring_of_find?_eq_none hfind, PrintedAttribute.chars, hvalue]
      simp
    | some u =>
      obtain ⟨p, hp, hreference⟩ := husages u (List.mem_of_find?_eq_some hfind)
      refine ⟨_, ?_, .reference hp⟩
      rw [charsReferring_of_find? hvalue hfind, hreference]
      simp

theorem derives_attributes {attributes : List PrintedAttribute}
    (hplain : ∀ a ∈ attributes, IsPlain a.name) (hnodup : (attributes.map (·.name)).Nodup) :
    DerivesAttributes props (attributes.map (·.name))
      (attributes.flatMap (·.charsReferring usages)) := by
  induction attributes with
  | nil => exact .nil
  | cons a attributes ih =>
    obtain ⟨ha, hmore⟩ := List.forall_mem_cons.1 hplain
    obtain ⟨hnew, hrest⟩ := List.nodup_cons.1 hnodup
    obtain ⟨value, hchars, hvalue⟩ := charsReferring_eq husages a
    rw [List.flatMap_cons, hchars, List.map_cons]
    exact .cons ha hvalue hnew (ih hmore hrest)

/-- The printed attributes of an element whose names are plain. -/
theorem derives_ofAttributes {attributes : List Attribute}
    (hplain : ∀ a ∈ attributes, IsPlain a.name) :
    ∃ names, DerivesAttributes props names
      ((PrintedAttribute.ofAttributes attributes).flatMap (·.charsReferring usages)) := by
  refine ⟨_, derives_attributes husages ?_ ?_⟩
  · intro a ha
    rw [PrintedAttribute.ofAttributes_eq] at ha
    obtain ⟨b, hb, rfl⟩ := List.mem_map.1 ha
    exact (hplain b (Attribute.mem_survivors hb).1).translate
  · rw [PrintedAttribute.ofAttributes_eq, List.map_map]
    exact Attribute.nodup_survivors attributes

theorem derives_ofLeaf {tag : String} {attributes : List Attribute} (htag : IsPlain tag)
    (hplain : ∀ a ∈ attributes, IsPlain a.name) (text? : Option String) :
    Derives props .element ((Row.ofLeaf tag (PrintedAttribute.ofAttributes attributes)
      text?).charsWith (·.charsReferring usages)) := by
  obtain ⟨names, hattributes⟩ := derives_ofAttributes husages hplain
  cases text? with
  | none => exact .empty htag hattributes
  | some text => exact .text htag hattributes (inert_escape text)

end Rows

mutual

/-- The rows of an element are an element, behind the lead of the first. -/
theorem derives_rows (husages : ∀ u ∈ usages, u.RefersTo props) (depth : Nat) :
    ∀ (e : Element), (∀ x ∈ e.preorder, x.Plain) →
    ∃ element, (e.rows depth).flatMap (Row.ledWith (·.charsReferring usages)) =
      lead depth ++ element ∧ Derives props .element element
  | ⟨tag, attributes, [], text⟩, h => by
    obtain ⟨⟨htag, hplain⟩, -⟩ := forall_preorder_iff.1 h
    refine ⟨_, ?_, derives_ofLeaf husages htag.lowercase hplain
      (Element.meaningfulText ⟨tag, attributes, [], text⟩)⟩
    rw [Element.rows, List.flatMap_singleton]
    rfl
  | ⟨tag, attributes, child :: children, text⟩, h => by
    obtain ⟨⟨htag, hplain⟩, hchildren⟩ := forall_preorder_iff.1 h
    obtain ⟨names, hattributes⟩ := derives_ofAttributes husages hplain
    have hcontent := derives_rowsAll husages (depth + 1) (layout_lead depth) (child :: children)
      (by simp) hchildren
    refine ⟨_, ?_, .nested htag.lowercase hattributes hcontent⟩
    rw [Element.rows, List.flatMap_append, List.flatMap_cons, List.flatMap_singleton]
    simp [Row.ledWith, Row.charsWith]

theorem derives_rowsAll (husages : ∀ u ∈ usages, u.RefersTo props) (depth : Nat) {after : List Char}
    (hafter : IsLayout after) :
    ∀ (es : List Element), es ≠ [] → (∀ x ∈ Element.preorderAll es, x.Plain) →
      Derives props .elements ((Element.rowsAll depth es).flatMap
        (Row.ledWith (·.charsReferring usages)) ++ after)
  | [], hne, _ => absurd rfl hne
  | [e], _, h => by
    obtain ⟨he, -⟩ := forall_preorderAll_cons_iff.1 h
    obtain ⟨element, helement, hderives⟩ := derives_rows husages depth e he
    rw [Element.rowsAll, Element.rowsAll, List.append_nil, helement]
    exact .last (layout_lead depth) hderives hafter
  | e :: next :: es, _, h => by
    obtain ⟨he, hes⟩ := forall_preorderAll_cons_iff.1 h
    obtain ⟨element, helement, hderives⟩ := derives_rows husages depth e he
    have hrest := derives_rowsAll husages depth hafter (next :: es) (by simp) hes
    rw [Element.rowsAll, List.flatMap_append, helement, List.append_assoc]
    exact .more (layout_lead depth) hderives hrest

end

/-- A body printed with references is markup, with layout around it. -/
theorem isMarkup_renderWith (husages : ∀ u ∈ usages, u.RefersTo props) {e : Element}
    (h : ∀ x ∈ e.preorder, x.Plain) (depth : Nat) {after : List Char} (hafter : IsLayout after) :
    IsMarkup props
      ('\n' :: (e.renderWith (·.charsReferring usages) depth).toList ++ after) := by
  obtain ⟨element, helement, hderives⟩ := derives_rows husages depth e h
  rw [led_renderWith, helement]
  exact ⟨lead depth, element, after, rfl, layout_lead depth, hderives, hafter⟩

/-- Whether no pass mistakes the end of an attribute's value for an attribute in use, unless the
value has given way to a reference by the end of the pass. -/
def Attribute.Harmless (usages : List Usage) (a : Attribute) : Prop :=
  ∀ done u todo, usages = done ++ u :: todo → EndsIn u.target a.value →
    ∃ v ∈ done ++ [u], v.target = AttributeName.translate a.name

/-- Whether no pass finds an attribute in use in a text. -/
def HarmlessText (usages : List Usage) (text : String) : Prop :=
  ∀ u ∈ usages, ¬ Mentions u.target text

/-- Whether an element shows no attributes and no text but those of certain kinds. -/
structure Element.ShowsOnly (attributes : Attribute → Prop) (texts : String → Prop) (e : Element) :
    Prop where
  attributes : ∀ a ∈ Attribute.survivors e.attributes, attributes a
  text : e.children = [] → ∀ text, e.meaningfulText = some text → texts text

theorem plain_names (flags : PropFlags) : ∀ p ∈ flags.names, IsPlain p := by
  have hall : ∀ p ∈ PropFlags.all.names, IsPlain p := by decide +kernel
  intro p hp
  obtain ⟨prop, hprop, rfl⟩ := List.mem_map.1 hp
  exact hall _ (List.mem_map_of_mem (Component.props_ofFlags_subset flags hprop))

theorem usages_refer (flags : PropFlags) :
    ∀ u ∈ (PropSchema.ofFlags flags).usages, u.RefersTo flags.names := by
  obtain ⟨width, height, className, color⟩ := flags
  revert width height className color
  unfold Usage.RefersTo
  decide +kernel

/-- A component returns markup, whatever its name and its props, if it shows nothing harmful. -/
theorem returnsMarkup_source {e : Element} {options : Options} (hvalid : options.validate = .ok ())
    (hplain : ∀ x ∈ e.preorder, x.Plain)
    (hshows : ∀ x ∈ e.preorder,
      x.ShowsOnly (·.Harmless (PropSchema.ofFlags options.props).usages)
        (HarmlessText (PropSchema.ofFlags options.props).usages)) :
    ReturnsMarkup options.props.names (Component.source e options) := by
  have hneat : ∀ x ∈ e.preorder, x.Neat := by
    intro x hx
    exact ⟨(hplain x hx).tag.neat, fun a ha => ((hplain x hx).attributes a ha).neat⟩
  have hbody : Component.body e (.ofFlags options.props) =
      e.renderWith (·.charsReferring (PropSchema.ofFlags options.props).usages) 1 := by
    refine apply_render (plain_usages options.props) hneat ?_ 1
    intro done u todo heq x hx
    obtain ⟨hattributes, htext⟩ := hshows x hx
    refine ⟨fun a ha => hattributes a ha done u todo heq, fun hleaf text hshown => ?_⟩
    exact htext hleaf text hshown u (by simp [heq])
  have hlayout : IsLayout ['\n', ' ', ' '] := by decide
  have hmarkup := isMarkup_renderWith (usages_refer options.props) hplain 1 hlayout
  rw [← hbody] at hmarkup
  exact (Component.returnsMarkup_source_iff e hvalid).2
    (hmarkup.tidied (plain_names options.props) Component.footing)

end Pictogram
