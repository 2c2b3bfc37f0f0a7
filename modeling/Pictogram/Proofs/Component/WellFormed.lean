import Pictogram.Proofs.Component.Mistaking

/-!
Which drawings give well-formed components. Whatever the props, a component is well-formed if every
attribute and every text in it is harmless; and a harmful one breaks a drawing with nothing else in
it.
-/

namespace Pictogram

open Templating

/-- A drawing and a path in it, with the same attribute and no other. -/
def repeated (a : Attribute) : Element :=
  ⟨"svg", [a], [⟨"path", [a], [], none⟩], none⟩

/-- A drawing with the same text in it twice, and nothing else. -/
def quoting (text : Option String) : Element :=
  ⟨"svg", [], [⟨"text", [], [], text⟩, ⟨"text", [], [], text⟩], none⟩

theorem lowercase_tags :
    Text.lowercase "svg" = "svg" ∧ Text.lowercase "path" = "path" ∧
      Text.lowercase "text" = "text" := by
  decide +kernel

theorem ofAttributes_singleton {a : Attribute}
    (h : AttributeName.isNamespaceDeclaration a.name = false) :
    PrintedAttribute.ofAttributes [a] = [PrintedAttribute.ofAttribute a] := by
  simp [PrintedAttribute.ofAttributes, PrintedAttribute.put, h]

/-- A value that ends in an attribute is printed. -/
theorem chars_of_endsIn {name : String} {a : Attribute} (hplain : IsPlain a.name)
    (h : EndsIn name a.value) :
    (PrintedAttribute.ofAttribute a).chars = quotedChars (AttributeName.translate a.name)
      (a.value.toList.flatMap PrintedAttribute.escapeChar) := by
  obtain ⟨before, c, hc, hvalue⟩ := h
  have hne : a.value ≠ "" := by
    intro hempty
    simp [hempty] at hvalue
  have hother : a.value ≠ a.name := by
    intro hsame
    have hequals := hplain.2 '=' (by simp [← hsame, hvalue])
    cases hequals
  rw [ofAttribute_of_valued ⟨hne, hother⟩]
  rfl

theorem led_repeated {name : String} {a : Attribute} (hplain : IsPlain a.name)
    (hshown : AttributeName.isNamespaceDeclaration a.name = false) (h : EndsIn name a.value) :
    '\n' :: ((repeated a).render 1).toList = doubled (AttributeName.translate a.name)
      (a.value.toList.flatMap PrintedAttribute.escapeChar) := by
  obtain ⟨hsvg, hpath, -⟩ := lowercase_tags
  rw [Element.render, String.toList_ofList, led_renderChars, doubled,
    ← chars_of_endsIn hplain h]
  simp [repeated, Element.rows, Element.rowsAll, ofAttributes_singleton hshown, hsvg, hpath,
    Element.meaningfulText, Row.ofLeaf, Row.led, Row.chars, drawingStart, drawingEnd]

theorem led_quoting {x : Element} {text : String} (h : x.meaningfulText = some text) :
    '\n' :: ((quoting x.text).render 1).toList = textTwice (text.toList.flatMap escapeTextChar) := by
  obtain ⟨hsvg, -, htext⟩ := lowercase_tags
  have hshown : Element.meaningfulText ⟨"text", [], [], x.text⟩ = some text := h
  rw [Element.render, String.toList_ofList, led_renderChars, textTwice]
  simp [quoting, Element.rows, Element.rowsAll, hsvg, htext, hshown, Row.ofLeaf, Row.led, Row.chars,
    PrintedAttribute.ofAttributes, textStart, drawingStart, drawingEnd]

/-- Behind a drawing with a body that cannot be markup there is no component. -/
theorem not_returnsMarkup {e : Element} {options : Options} (hvalid : options.validate = .ok ())
    (h : ∀ body, Text.tidyBefore (passes (PropSchema.ofFlags options.props).usages
      ('\n' :: (e.render 1).toList) ++ ['\n', ' ', ' ']) Component.footing =
        body ++ Component.footing → ¬ IsMarkup options.props.names body) :
    ¬ ReturnsMarkup options.props.names (Component.source e options) := by
  intro hreturns
  obtain ⟨body, hbody, hmarkup⟩ := (Component.returnsMarkup_source_iff e hvalid).1 hreturns
  rw [Component.returned, Component.body, led_apply (plain_usages options.props)] at hbody
  exact h body hbody hmarkup

theorem not_returnsMarkup_repeated {a : Attribute} {options : Options}
    (hvalid : options.validate = .ok ()) (hplain : IsPlain a.name)
    (hshown : AttributeName.isNamespaceDeclaration a.name = false)
    (h : ¬ a.Harmless (PropSchema.ofFlags options.props).usages) :
    ¬ ReturnsMarkup options.props.names (Component.source (repeated a) options) := by
  simp only [Attribute.Harmless, not_forall, not_exists, not_and] at h
  obtain ⟨done, u, todo, heq, hends, hfresh⟩ := h
  apply not_returnsMarkup hvalid
  intro body hbody
  rw [led_repeated hplain hshown hends] at hbody
  have hmerged := merged_passes (plain_names options.props) (plain_usages options.props)
    (usages_refer options.props) hplain.translate heq hends hfresh
  exact hmerged.not_isMarkup (plain_names options.props) hplain.translate hbody

theorem not_returnsMarkup_quoting {x : Element} {text : String} {options : Options}
    (hvalid : options.validate = .ok ()) (hshown : x.meaningfulText = some text)
    (h : ¬ HarmlessText (PropSchema.ofFlags options.props).usages text) :
    ¬ ReturnsMarkup options.props.names (Component.source (quoting x.text) options) := by
  simp only [HarmlessText, not_forall, not_not] at h
  obtain ⟨u, hu, hmentions⟩ := h
  apply not_returnsMarkup hvalid
  intro body hbody
  rw [led_quoting hshown] at hbody
  have hbraced := braced_passes (plain_usages options.props) (usages_refer options.props) hu hmentions
  exact hbraced.not_isMarkup (plain_names options.props) hbody

theorem forall_repeated {a : Attribute} {p : Element → Prop} (hroot : p (repeated a))
    (hpath : p ⟨"path", [a], [], none⟩) : ∀ x ∈ (repeated a).preorder, p x := by
  intro x hx
  simp only [repeated, Element.preorder, Element.preorderAll, List.append_nil, List.mem_cons,
    List.not_mem_nil, or_false] at hx
  rcases hx with rfl | rfl
  · exact hroot
  · exact hpath

theorem forall_quoting {text : Option String} {p : Element → Prop} (hroot : p (quoting text))
    (htext : p ⟨"text", [], [], text⟩) : ∀ x ∈ (quoting text).preorder, p x := by
  intro x hx
  simp only [quoting, Element.preorder, Element.preorderAll, List.append_nil, List.nil_append,
    List.cons_append, List.mem_cons, List.not_mem_nil, or_false, or_self] at hx
  rcases hx with rfl | rfl
  · exact hroot
  · exact htext

/-- Whatever is asked for, components of drawings with no attributes and texts but those of certain
kinds are well-formed exactly if each such attribute and each such text is harmless. -/
theorem returnsMarkup_iff_harmless (flags : PropFlags) (attributes : Attribute → Prop)
    (texts : String → Prop) :
    (∀ (e : Element) (options : Options), options.props = flags → options.validate = .ok () →
        (∀ x ∈ e.preorder, x.Plain) → (∀ x ∈ e.preorder, x.ShowsOnly attributes texts) →
        ReturnsMarkup flags.names (Component.source e options)) ↔
      (∀ a, attributes a → IsPlain a.name → AttributeName.isNamespaceDeclaration a.name = false →
        a.Harmless (PropSchema.ofFlags flags).usages) ∧
      ∀ (x : Element) (text : String), x.meaningfulText = some text → texts text →
        HarmlessText (PropSchema.ofFlags flags).usages text := by
  have hvalid : Options.validate ⟨"Icon", .typed, flags⟩ = .ok () :=
    if_pos (show ComponentName.isValid "Icon" by decide)
  constructor
  · intro h
    constructor
    · intro a ha hplain hshown
      by_contra hharm
      refine not_returnsMarkup_repeated hvalid hplain hshown hharm
        (h (repeated a) ⟨"Icon", .typed, flags⟩ rfl hvalid ?_ ?_)
      · have hone : ∀ b ∈ [a], IsPlain b.name := List.forall_mem_singleton.2 hplain
        exact forall_repeated ⟨plain_svg, hone⟩ ⟨plain_path, hone⟩
      · have hone : ∀ b ∈ Attribute.survivors [a], attributes b := by
          intro b hb
          obtain rfl := List.mem_singleton.1 (Attribute.mem_survivors hb).1
          exact ha
        exact forall_repeated ⟨hone, fun hleaf => by cases hleaf⟩
          ⟨hone, fun _ _ hnone => by cases hnone⟩
    · intro x text hshown htext
      by_contra hharm
      refine not_returnsMarkup_quoting hvalid hshown hharm
        (h (quoting x.text) ⟨"Icon", .typed, flags⟩ rfl hvalid ?_ ?_)
      · exact forall_quoting ⟨plain_svg, fun _ hb => by cases hb⟩ ⟨plain_text, fun _ hb => by cases hb⟩
      · have hnone : ∀ b ∈ Attribute.survivors [], attributes b := fun _ hb => by cases hb
        refine forall_quoting ⟨hnone, fun hleaf => by cases hleaf⟩ ⟨hnone, fun _ text' htext' => ?_⟩
        obtain rfl := Option.some.inj (hshown.symm.trans htext')
        exact htext
  · rintro ⟨hattributes, htexts⟩ e options rfl hvalid hplain hshows
    refine returnsMarkup_source hvalid hplain ?_
    intro x hx
    refine ⟨?_, ?_⟩
    · intro a ha
      obtain ⟨hmem, hshown⟩ := Attribute.mem_survivors ha
      exact hattributes a ((hshows x hx).attributes a ha) ((hplain x hx).attributes a hmem) hshown
    · intro hleaf text htext
      exact htexts x text htext ((hshows x hx).text hleaf text htext)

/-- The label of a drawing and of a path in it ends in the name of a prop. The names are plain, but
the tag of the drawing runs into that of the path, and there is no element left for its end. -/
theorem source_of_label_not_markup :
    Options.validate ⟨"Icon", .typed, { width := true }⟩ = .ok () ∧
      (∀ x ∈ (repeated ⟨"aria-label", "line width="⟩).preorder, x.Plain) ∧
      ¬ ReturnsMarkup (PropFlags.names { width := true })
        (Component.source (repeated ⟨"aria-label", "line width="⟩)
          ⟨"Icon", .typed, { width := true }⟩) := by
  have hvalid : Options.validate ⟨"Icon", .typed, { width := true }⟩ = .ok () :=
    if_pos (show ComponentName.isValid "Icon" by decide)
  have hplain : IsPlain "aria-label" := by decide
  have hone : ∀ b ∈ [(⟨"aria-label", "line width="⟩ : Attribute)], IsPlain b.name :=
    List.forall_mem_singleton.2 hplain
  refine ⟨hvalid, forall_repeated ⟨plain_svg, hone⟩ ⟨plain_path, hone⟩, ?_⟩
  refine not_returnsMarkup_repeated hvalid hplain (by decide) ?_
  intro hharmless
  have hends : EndsIn "width" "line width=" := ⟨"line".toList, ' ', rfl, rfl⟩
  obtain ⟨v, hv, hname⟩ := hharmless [] ⟨"width", "\x7bwidth\x7d"⟩ [] rfl hends
  obtain rfl := List.mem_singleton.1 hv
  exact absurd hname (by decide)

end Pictogram
