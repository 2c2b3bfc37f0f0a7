import Pictogram.Proofs.Component.Escaping
import Pictogram.Proofs.Component.Nesting
import Pictogram.Proofs.Component.PlainNames
import Pictogram.Proofs.Component.Rows
import Pictogram.Proofs.Component.Survivors
import Pictogram.Proofs.Text.Lowercase
import Pictogram.Proofs.Text.Splitting

/-!
The lines of a printed body. Where nothing that is printed has a line break in it, they are the lines
that the tree is laid out on, and a body at the next depth has each of them two spaces further in.
-/

namespace Pictogram

/-- Whether nothing that is printed of an element has a line break in it. The text of an element with
children is not printed. -/
structure Element.Unbroken (e : Element) : Prop where
  tag : '\n' ∉ e.tag.toList
  attributes : ∀ a ∈ e.attributes, '\n' ∉ a.name.toList ∧ '\n' ∉ a.value.toList
  text : e.children = [] → ∀ text ∈ e.meaningfulText, '\n' ∉ text.toList

instance (e : Element) : Decidable e.Unbroken :=
  decidable_of_iff ('\n' ∉ e.tag.toList ∧
      (∀ a ∈ e.attributes, '\n' ∉ a.name.toList ∧ '\n' ∉ a.value.toList) ∧
      (e.children = [] → ∀ text ∈ e.meaningfulText, '\n' ∉ text.toList))
    ⟨fun ⟨htag, hattributes, htext⟩ => ⟨htag, hattributes, htext⟩,
      fun h => ⟨h.tag, h.attributes, h.text⟩⟩

/-- The lines of the printed text of an element. -/
def Element.printedLines (depth : Nat) (e : Element) : List (List Char) :=
  Text.splitWhere (· == '\n') (e.render depth).toList

variable {depth : Nat} {e : Element}

section Lines

mutual

theorem rows_eq_bodyLines (start depth : Nat) : ∀ e : Element,
    e.rows (start + depth) = (e.bodyLines depth).map fun line => (start + line.depth, line.row)
  | ⟨tag, attributes, [], text⟩ => rfl
  | ⟨tag, attributes, child :: children, text⟩ => by
    rw [Element.rows, Element.bodyLines, Nat.add_assoc,
      rowsAll_eq_bodyLinesAll start (depth + 1) (child :: children), List.map_append, List.map_cons]
    rfl

theorem rowsAll_eq_bodyLinesAll (start depth : Nat) : ∀ es : List Element,
    Element.rowsAll (start + depth) es =
      (Element.bodyLinesAll depth es).map fun line => (start + line.depth, line.row)
  | [] => rfl
  | e :: es => by
    rw [Element.rowsAll, Element.bodyLinesAll, List.map_append, rows_eq_bodyLines start depth e,
      rowsAll_eq_bodyLinesAll start depth es]

end

/-- A body is the joined lines that its tree is laid out on. -/
theorem renderChars_eq_bodyLines (depth : Nat) (e : Element) :
    e.renderChars depth = Text.joinLines ((e.bodyLines 0).map (BodyLine.chars depth)) := by
  have hrows : e.rows depth = (e.bodyLines 0).map fun line => (depth + line.depth, line.row) :=
    rows_eq_bodyLines depth 0 e
  rw [Element.renderChars, hrows, List.map_map]
  rfl

theorem bodyLines_ne_nil (depth : Nat) (e : Element) : e.bodyLines depth ≠ [] := by
  obtain ⟨tag, attributes, _ | ⟨child, children⟩, text⟩ := e <;> simp [Element.bodyLines]

theorem exists_chars (depth : Nat) (line : BodyLine) :
    ∃ tail, line.chars depth = List.replicate (2 * (depth + line.depth + 1)) ' ' ++ '<' :: tail := by
  obtain ⟨tail, htail⟩ := chars_row line.row
  exact ⟨tail, by rw [BodyLine.chars, htail]⟩

/-- At the next depth a line begins with two more spaces. -/
theorem chars_succ (depth : Nat) (line : BodyLine) :
    line.chars (depth + 1) = [' ', ' '] ++ line.chars depth := by
  have hspaces : 2 * (depth + 1 + line.depth + 1) = 2 + 2 * (depth + line.depth + 1) := by omega
  rw [BodyLine.chars, hspaces, List.replicate_add, List.append_assoc]
  rfl

end Lines

section Breaks

theorem Escapes.break_not_mem {escape : Char → List Char} {cs : List Char} (h : Escapes escape)
    (hcs : '\n' ∉ cs) : '\n' ∉ cs.flatMap escape := by
  intro hbreak
  obtain ⟨before, after, heq⟩ := List.append_of_mem hbreak
  obtain ⟨before', after', rfl, -⟩ := h.blank (by decide) heq
  simp at hcs

theorem break_not_mem_translate {name : String} (h : '\n' ∉ name.toList) :
    '\n' ∉ (AttributeName.translate name).toList := by
  rcases translate_or_plain name with hkept | hplain
  · rwa [hkept]
  · intro hbreak
    cases hplain.2 '\n' hbreak

namespace Element.Unbroken

theorem break_not_mem_attributes (h : e.Unbroken) :
    '\n' ∉ (PrintedAttribute.ofAttributes e.attributes).flatMap (·.chars) := by
  rw [PrintedAttribute.ofAttributes_eq, List.flatMap_map]
  intro hbreak
  obtain ⟨a, ha, hchars⟩ := List.mem_flatMap.1 hbreak
  obtain ⟨hname, hvalue⟩ := h.attributes a (Attribute.mem_survivors ha).1
  have hname' := break_not_mem_translate hname
  have hvalue' := escapes_escapeChar.break_not_mem hvalue
  rw [PrintedAttribute.ofAttribute, PrintedAttribute.chars] at hchars
  split at hchars
  next => simp [hname'] at hchars
  next heq =>
    split at heq
    · cases heq
    · cases heq
      simp [hname', hvalue'] at hchars

theorem break_not_mem_row (h : e.Unbroken) {row : Row} (hrow : row.IsFor e) :
    '\n' ∉ row.chars := by
  have htag := Text.break_not_mem_lowercase h.tag
  have hattributes := h.break_not_mem_attributes
  rcases hrow with rfl | rfl | ⟨hleaf, rfl⟩
  · simp [Row.chars, htag, hattributes]
  · simp [Row.chars, htag]
  · cases htext : e.meaningfulText with
    | none => simp [Row.ofLeaf, Row.chars, htag, hattributes]
    | some text =>
      have hescaped := escapes_escapeTextChar.break_not_mem (h.text hleaf text htext)
      simp [Row.ofLeaf, Row.chars, htag, hattributes, hescaped]

end Element.Unbroken

theorem break_not_mem_line (h : ∀ x ∈ e.preorder, x.Unbroken) :
    ∀ line ∈ (e.bodyLines 0).map (BodyLine.chars depth), '\n' ∉ line := by
  intro chars hchars
  obtain ⟨line, hline, rfl⟩ := List.mem_map.1 hchars
  have hrow : (depth + line.depth, line.row) ∈ e.rows (depth + 0) := by
    rw [rows_eq_bodyLines]
    exact List.mem_map_of_mem hline
  obtain ⟨x, hx, hfor⟩ := of_mem_rows _ e _ hrow
  have hbreak := (h x hx).break_not_mem_row hfor
  simp [BodyLine.chars, hbreak]

end Breaks

theorem printedLines_eq (h : ∀ x ∈ e.preorder, x.Unbroken) :
    e.printedLines depth = (e.bodyLines 0).map (BodyLine.chars depth) := by
  rw [Element.printedLines, Element.render, String.toList_ofList, renderChars_eq_bodyLines]
  exact Text.splitWhere_joinLines (by simpa using bodyLines_ne_nil 0 e) (break_not_mem_line h)

section Counting

mutual

theorem length_bodyLines (depth : Nat) : ∀ e : Element, (e.bodyLines depth).length =
    e.preorder.countP (·.children.isEmpty) + 2 * e.preorder.countP (!·.children.isEmpty)
  | ⟨tag, attributes, [], text⟩ => rfl
  | ⟨tag, attributes, child :: children, text⟩ => by
    have hinside := length_bodyLinesAll (depth + 1) (child :: children)
    rw [Element.bodyLines, Element.preorder, List.countP_cons_of_neg (by simp),
      List.countP_cons_of_pos (by simp)]
    simp only [List.length_append, List.length_cons, List.length_nil]
    omega

theorem length_bodyLinesAll (depth : Nat) : ∀ es : List Element,
    (Element.bodyLinesAll depth es).length =
      (Element.preorderAll es).countP (·.children.isEmpty) +
        2 * (Element.preorderAll es).countP (!·.children.isEmpty)
  | [] => rfl
  | e :: es => by
    rw [Element.bodyLinesAll, Element.preorderAll, List.length_append, List.countP_append,
      List.countP_append, length_bodyLines depth e, length_bodyLinesAll depth es]
    omega

end

mutual

/-- An outline lists the elements in document order. -/
theorem map_snd_outline (depth : Nat) : ∀ e : Element, (e.outline depth).map (·.2) = e.preorder
  | ⟨tag, attributes, children, text⟩ => by
    rw [Element.outline, Element.preorder, List.map_cons, map_snd_outlineAll (depth + 1) children]

theorem map_snd_outlineAll (depth : Nat) : ∀ es : List Element,
    (Element.outlineAll depth es).map (·.2) = Element.preorderAll es
  | [] => rfl
  | e :: es => by
    rw [Element.outlineAll, Element.preorderAll, List.map_append, map_snd_outline depth e,
      map_snd_outlineAll depth es]

end

end Counting

/-- A body without line breaks of its own has one line for each element without children and two for
each other one. They are the lines that its tree is laid out on: there is one way to lay it out, with
the elements in document order and each parent closed right behind the last line of what is in it.
Two spaces stand in front of a tag for every element around it, for every depth of the body and once
more, and a body at the next depth has two more spaces in front of every line. -/
theorem render_laid_out (depth : Nat) (h : ∀ x ∈ e.preorder, x.Unbroken) :
    (e.printedLines depth).length =
        e.preorder.countP (·.children.isEmpty) + 2 * e.preorder.countP (!·.children.isEmpty) ∧
      (∃ lines, e.LaysOut lines) ∧
      (∀ lines, e.LaysOut lines → e.printedLines depth = lines.map (BodyLine.chars depth)) ∧
      (e.outline 0).map (·.2) = e.preorder ∧
      (∀ line : BodyLine, ∃ tail,
        line.chars depth = List.replicate (2 * (depth + line.depth + 1)) ' ' ++ '<' :: tail) ∧
      (e.render (depth + 1)).toList =
        Text.joinLines ((e.printedLines depth).map ([' ', ' '] ++ ·)) := by
  refine ⟨?_, ⟨_, laysOut_bodyLines e⟩, fun lines hlines => ?_, map_snd_outline 0 e,
    exists_chars depth, ?_⟩
  · rw [printedLines_eq h, List.length_map, length_bodyLines]
  · rw [printedLines_eq h, hlines.eq_bodyLines]
  · have hshift : BodyLine.chars (depth + 1) = ([' ', ' '] ++ ·) ∘ BodyLine.chars depth :=
      funext (chars_succ depth)
    rw [printedLines_eq h, List.map_map, ← hshift, Element.render, String.toList_ofList,
      renderChars_eq_bodyLines]

/-- A drawing with a group, the text of which is not printed, and a label behind it. -/
def grouped : Element where
  tag := "svg"
  attributes := [⟨"viewBox", "0 0 24 24"⟩]
  children := [
    { tag := "g", text := some "not\nprinted",
      children := [{ tag := "path", attributes := [⟨"d", "M0 0"⟩] }] },
    { tag := "text", text := some "\n  A label\n" }]

theorem render_laid_out_grouped :
    (∀ x ∈ grouped.preorder, x.Unbroken) ∧ (grouped.printedLines 1).length = 6 ∧
      (∀ lines, grouped.LaysOut lines →
        grouped.printedLines 1 = lines.map (BodyLine.chars 1)) ∧
      (grouped.render 2).toList =
        Text.joinLines ((grouped.printedLines 1).map ([' ', ' '] ++ ·)) := by
  have h : ∀ x ∈ grouped.preorder, x.Unbroken := by decide +kernel
  obtain ⟨hlength, -, hlines, -, -, hshift⟩ := render_laid_out 1 h
  exact ⟨h, hlength, hlines, hshift⟩

example : (grouped.printedLines 1).map String.ofList = [
    "    <svg viewBox=\"0 0 24 24\">",
    "      <g>",
    "        <path d=\"M0 0\" />",
    "      </g>",
    "      <text>A label</text>",
    "    </svg>"] := by
  decide +kernel

end Pictogram
