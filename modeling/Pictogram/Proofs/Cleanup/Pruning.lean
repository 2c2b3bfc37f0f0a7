import Pictogram.Markup.Cleanup
import Pictogram.Markup.Forest

/-!
What a cleanup is meant to do to trees: elements and attributes that it leaves out are pruned, and
texts are compared without their blanks, since texts that are nothing but blanks are left out too.
-/

namespace Pictogram

open Markup

mutual

/-- The element without the attributes, and the elements below it, that a cleanup leaves out. -/
def Element.pruned : Element → Element
  | ⟨tag, attributes, children, text⟩ =>
    ⟨tag, attributes.filter (!Cleanup.isDroppedAttribute ·.name), prunedAll children, text⟩

/-- The elements that a cleanup does not leave out, pruned. -/
def Element.prunedAll : List Element → List Element
  | [] => []
  | e :: es =>
    if Cleanup.isDroppedElement e.tag then prunedAll es else e.pruned :: prunedAll es

end

/-- A text without its blanks. -/
def condense (text : String) : String :=
  .ofList (text.toList.filter (!Text.isAsciiBlank ·))

mutual

/-- The element with all texts in it condensed; having no text is as good as having a blank one. -/
def Element.condensed : Element → Element
  | ⟨tag, attributes, children, text⟩ =>
    ⟨tag, attributes, condensedAll children, some (condense (text.getD ""))⟩

/-- Several elements with all texts in them condensed. -/
def Element.condensedAll : List Element → List Element
  | [] => []
  | e :: es => e.condensed :: condensedAll es

end

theorem condense_append (a b : String) : condense (a ++ b) = condense a ++ condense b := by
  simp [condense]

theorem condense_of_blank {text : String} (h : text.toList.all Text.isAsciiBlank) :
    condense text = "" := by
  have hnone : text.toList.filter (!Text.isAsciiBlank ·) = [] := by
    apply List.filter_eq_nil_iff.2
    intro c hc
    simpa using List.all_eq_true.1 h c hc
  rw [condense, hnone, String.ofList_nil]

namespace Element

theorem prunedAll_append (es fs : List Element) :
    prunedAll (es ++ fs) = prunedAll es ++ prunedAll fs := by
  induction es with
  | nil => rfl
  | cons e es ih =>
    simp only [List.cons_append, prunedAll, ih]
    split <;> rfl

theorem condensedAll_eq_map (es : List Element) : condensedAll es = es.map condensed := by
  induction es with
  | nil => rfl
  | cons e es ih => rw [condensedAll, ih, List.map_cons]

@[simp] theorem tag_condensed (e : Element) : e.condensed.tag = e.tag := by
  cases e
  rfl

theorem pruned_appendText (e : Element) (text : String) :
    (e.appendText text).pruned = e.pruned.appendText text := by
  cases e
  rfl

theorem condensed_appendText (e : Element) (text : String) :
    (e.appendText text).condensed = e.condensed.appendText (condense text) := by
  obtain ⟨tag, attributes, children, own⟩ := e
  simp [appendText, condensed, condense_append]

theorem condensed_addChild (e child : Element) :
    (e.addChild child).condensed = e.condensed.addChild child.condensed := by
  obtain ⟨tag, attributes, children, text⟩ := e
  simp [addChild, condensed, condensedAll_eq_map]

theorem pruned_addChild (e child : Element) :
    (e.addChild child).pruned =
      if Cleanup.isDroppedElement child.tag then e.pruned else e.pruned.addChild child.pruned := by
  obtain ⟨tag, attributes, children, text⟩ := e
  simp only [addChild, pruned, prunedAll_append, prunedAll]
  split <;> simp

/-- A blank text is not seen. -/
theorem condensed_appendText_of_blank {e : Element} {text : String}
    (h : text.toList.all Text.isAsciiBlank) : (e.appendText text).condensed = e.condensed := by
  rw [condensed_appendText, condense_of_blank h]
  cases e
  simp [condensed, appendText]

mutual

theorem preorder_condensed : ∀ e : Element, e.condensed.preorder = e.preorder.map condensed
  | ⟨tag, attributes, children, text⟩ => by
    rw [condensed, preorder, preorder, preorderAll_condensedAll children, List.map_cons, condensed]

theorem preorderAll_condensedAll :
    ∀ es : List Element, preorderAll (condensedAll es) = (preorderAll es).map condensed
  | [] => rfl
  | e :: es => by
    rw [condensedAll, preorderAll, preorderAll, List.map_append, preorder_condensed e,
      preorderAll_condensedAll es]

end

end Element

/-- The drawing of condensed trees is the condensed drawing of the trees. -/
theorem drawing?_condensedAll (forest : List Element) :
    drawing? (Element.condensedAll forest) = (drawing? forest).map Element.condensed := by
  rw [drawing?, drawing?, Element.preorderAll_condensedAll, List.find?_map]
  congr 2
  funext e
  simp [isDrawing]

end Pictogram
