import Mathlib.Data.List.Basic
import Pictogram.Component.Body

/-!
The rows of a body, one for every tag on a line of its own. Every row is printed for an element, and
a body with a line break in front is its rows, each with a line break and spaces in front.
-/

namespace Pictogram

/-- The line break and the spaces in front of a row. -/
def lead (depth : Nat) : List Char :=
  '\n' :: indentation depth

/-- A row with its lead. -/
def Row.led (row : Nat × Row) : List Char :=
  lead row.1 ++ row.2.chars

/-- The text of a row in which every attribute is printed as `print` says. -/
def Row.charsWith (print : PrintedAttribute → List Char) : Row → List Char
  | opening tag attributes => '<' :: tag.toList ++ attributes.flatMap print ++ ['>']
  | closing tag => '<' :: '/' :: tag.toList ++ ['>']
  | leaf tag attributes => '<' :: tag.toList ++ attributes.flatMap print ++ [' ', '/', '>']
  | textLeaf tag attributes text =>
    '<' :: tag.toList ++ attributes.flatMap print ++
      '>' :: text.toList.flatMap escapeTextChar ++ '<' :: '/' :: tag.toList ++ ['>']

/-- What may follow an attribute in a tag. -/
def FollowsAttribute (rest : List Char) : Prop :=
  rest.head? = some ' ' ∨ rest.head? = some '>'

/-- A row in which every attribute is printed as `print` says, with its lead. -/
def Row.ledWith (print : PrintedAttribute → List Char) (row : Nat × Row) : List Char :=
  lead row.1 ++ row.2.charsWith print

/-- The printed text of an element in which every attribute is printed as `print` says. -/
def Element.renderWith (print : PrintedAttribute → List Char) (depth : Nat) (e : Element) : String :=
  .ofList (Text.joinLines ((e.rows depth).map fun row => indentation row.1 ++ row.2.charsWith print))

/-- Whether a row is printed for an element. -/
def Row.IsFor (e : Element) (row : Row) : Prop :=
  row = .opening (Text.lowercase e.tag) (PrintedAttribute.ofAttributes e.attributes) ∨
    row = .closing (Text.lowercase e.tag) ∨
    e.children = [] ∧ row = .ofLeaf (Text.lowercase e.tag)
      (PrintedAttribute.ofAttributes e.attributes) e.meaningfulText

theorem Row.charsWith_chars (row : Row) : row.charsWith PrintedAttribute.chars = row.chars := by
  cases row <;> rfl

theorem Element.renderWith_chars (depth : Nat) (e : Element) :
    e.renderWith PrintedAttribute.chars depth = e.render depth := by
  simp only [renderWith, render, renderChars, Row.charsWith_chars]
  rfl

/-- Every row begins with a tag. -/
theorem exists_charsWith (print : PrintedAttribute → List Char) (row : Row) :
    ∃ tail, row.charsWith print = '<' :: tail := by
  cases row with
  | opening tag attributes => exact ⟨_, rfl⟩
  | closing tag => exact ⟨_, rfl⟩
  | leaf tag attributes => exact ⟨_, rfl⟩
  | textLeaf tag attributes text => exact ⟨_, rfl⟩

theorem chars_row (row : Row) : ∃ tail, row.chars = '<' :: tail := by
  rw [← Row.charsWith_chars]
  exact exists_charsWith _ row

theorem forall_preorder_iff {p : Element → Prop} {tag : String} {attributes : List Attribute}
    {children : List Element} {text : Option String} :
    (∀ x ∈ Element.preorder ⟨tag, attributes, children, text⟩, p x) ↔
      p ⟨tag, attributes, children, text⟩ ∧ ∀ x ∈ Element.preorderAll children, p x := by
  rw [Element.preorder, List.forall_mem_cons]

theorem forall_preorderAll_cons_iff {p : Element → Prop} {e : Element} {es : List Element} :
    (∀ x ∈ Element.preorderAll (e :: es), p x) ↔
      (∀ x ∈ e.preorder, p x) ∧ ∀ x ∈ Element.preorderAll es, p x := by
  rw [Element.preorderAll, List.forall_mem_append]

/-- Lines that are each led by a line break are the joined lines with one in front. -/
theorem led_joinLines : ∀ {lines : List (List Char)}, lines ≠ [] →
    '\n' :: Text.joinLines lines = lines.flatMap ('\n' :: ·)
  | [], h => absurd rfl h
  | [line], _ => by simp [Text.joinLines]
  | line :: next :: rest, _ => by
    rw [Text.joinLines, List.flatMap_cons, ← led_joinLines (show next :: rest ≠ [] by simp)]
    rfl

theorem rows_ne_nil (depth : Nat) (e : Element) : e.rows depth ≠ [] := by
  obtain ⟨tag, attributes, _ | ⟨child, children⟩, text⟩ := e <;> simp [Element.rows]

/-- The printed text with a line break in front. -/
theorem led_renderChars (depth : Nat) (e : Element) :
    '\n' :: e.renderChars depth = (e.rows depth).flatMap Row.led := by
  rw [Element.renderChars, led_joinLines (by simpa using rows_ne_nil depth e), List.flatMap_map]
  rfl

/-- Every body begins with the spaces in front of a tag. -/
theorem renderChars_eq (depth : Nat) (e : Element) :
    ∃ tail, e.renderChars depth = indentation depth ++ '<' :: tail := by
  have hfirst : ∃ row more, e.rows depth = (depth, row) :: more := by
    obtain ⟨tag, attributes, _ | ⟨child, children⟩, text⟩ := e
    · exact ⟨_, _, rfl⟩
    · exact ⟨_, _, rfl⟩
  obtain ⟨row, more, hrows⟩ := hfirst
  obtain ⟨tail, htail⟩ := chars_row row
  have hled := led_renderChars depth e
  rw [hrows, List.flatMap_cons, Row.led, htail] at hled
  exact ⟨_, by simpa [lead] using hled⟩

theorem led_renderWith (print : PrintedAttribute → List Char) (depth : Nat) (e : Element) :
    '\n' :: (e.renderWith print depth).toList = (e.rows depth).flatMap (Row.ledWith print) := by
  rw [Element.renderWith, String.toList_ofList,
    led_joinLines (by simpa using rows_ne_nil depth e), List.flatMap_map]
  rfl

mutual

/-- Every row is printed for an element of the tree. -/
theorem of_mem_rows (depth : Nat) : ∀ (e : Element) (row : Nat × Row), row ∈ e.rows depth →
    ∃ x ∈ e.preorder, row.2.IsFor x
  | ⟨tag, attributes, [], text⟩, row, h => by
    obtain rfl := List.mem_singleton.1 h
    exact ⟨_, .head _, .inr (.inr ⟨rfl, rfl⟩)⟩
  | ⟨tag, attributes, child :: children, text⟩, row, h => by
    rw [Element.rows, List.cons_append, List.mem_cons, List.mem_append, List.mem_singleton] at h
    rcases h with rfl | hbody | rfl
    · exact ⟨_, .head _, .inl rfl⟩
    · obtain ⟨x, hx, hrow⟩ := of_mem_rowsAll (depth + 1) (child :: children) row hbody
      exact ⟨x, .tail _ hx, hrow⟩
    · exact ⟨_, .head _, .inr (.inl rfl)⟩

theorem of_mem_rowsAll (depth : Nat) : ∀ (es : List Element) (row : Nat × Row),
    row ∈ Element.rowsAll depth es → ∃ x ∈ Element.preorderAll es, row.2.IsFor x
  | [], row, h => by cases h
  | e :: es, row, h => by
    rw [Element.rowsAll, List.mem_append] at h
    rcases h with he | hes
    · obtain ⟨x, hx, hrow⟩ := of_mem_rows depth e row he
      exact ⟨x, List.mem_append_left _ hx, hrow⟩
    · obtain ⟨x, hx, hrow⟩ := of_mem_rowsAll depth es row hes
      exact ⟨x, List.mem_append_right _ hx, hrow⟩

end

end Pictogram
