import Pictogram.Component.Body
import Pictogram.Proofs.Text.Span

/-!
The lines of a body as an image of the tree. Elements begin on lines of their own, in document order,
and a parent is closed right behind the lines of what is in it. These rules leave no choice: there is
one list of lines for a tree, which goes through the tree as a body is printed.
-/

namespace Pictogram

/-- A line of a body, with the number of elements around the one that it is for. -/
inductive BodyLine where
  /-- The tag that opens an element, or the whole of an element without children. -/
  | first (depth : Nat) (e : Element)
  /-- The tag that closes an element with children. -/
  | last (depth : Nat) (e : Element)

namespace BodyLine

def depth : BodyLine → Nat
  | first depth _ => depth
  | last depth _ => depth

/-- The element that begins on a line. -/
def begun? : BodyLine → Option (Nat × Element)
  | first depth e => some (depth, e)
  | last _ _ => none

/-- The row that stands on a line. -/
def row : BodyLine → Row
  | first _ e =>
    if e.children.isEmpty then
      .ofLeaf (Text.lowercase e.tag) (PrintedAttribute.ofAttributes e.attributes) e.meaningfulText
    else .opening (Text.lowercase e.tag) (PrintedAttribute.ofAttributes e.attributes)
  | last _ e => .closing (Text.lowercase e.tag)

/-- The text of a line of a body at the given depth. -/
def chars (depth : Nat) (line : BodyLine) : List Char :=
  List.replicate (2 * (depth + line.depth + 1)) ' ' ++ line.row.chars

end BodyLine

mutual

/-- The element and everything below it in document order, each with its own depth. -/
def Element.outline (depth : Nat) : Element → List (Nat × Element)
  | ⟨tag, attributes, children, text⟩ =>
    (depth, ⟨tag, attributes, children, text⟩) :: outlineAll (depth + 1) children

/-- The outlines of several elements at the same depth. -/
def Element.outlineAll (depth : Nat) : List Element → List (Nat × Element)
  | [] => []
  | e :: es => e.outline depth ++ outlineAll depth es

end

/-- Whether lines are those between the two tags of an element: everything below it begins there, and
nothing else is closed there. -/
structure Encloses (depth : Nat) (e : Element) (inside : List BodyLine) : Prop where
  children : e.children ≠ []
  begun : inside.filterMap BodyLine.begun? = Element.outlineAll (depth + 1) e.children
  deeper : ∀ line ∈ inside, depth < line.depth

/-- Whether every element with children is closed, right behind what is in it, and nothing else is. -/
structure Nests (lines : List BodyLine) : Prop where
  closed : ∀ before depth e after, lines = before ++ .first depth e :: after → e.children ≠ [] →
    ∃ inside rest, after = inside ++ .last depth e :: rest ∧ Encloses depth e inside
  opened : ∀ before depth e after, lines = before ++ .last depth e :: after →
    ∃ front inside, before = front ++ .first depth e :: inside ∧ Encloses depth e inside

/-- Whether lines are laid out as a tree asks for. -/
structure Element.LaysOut (e : Element) (lines : List BodyLine) : Prop where
  /-- Every element begins on a line of its own, in document order. -/
  begun : lines.filterMap BodyLine.begun? = e.outline 0
  nests : Nests lines

mutual

/-- The lines of an element with the given number of elements around it. -/
def Element.bodyLines (depth : Nat) : Element → List BodyLine
  | ⟨tag, attributes, [], text⟩ => [.first depth ⟨tag, attributes, [], text⟩]
  | ⟨tag, attributes, child :: children, text⟩ =>
    .first depth ⟨tag, attributes, child :: children, text⟩ ::
      bodyLinesAll (depth + 1) (child :: children) ++
      [.last depth ⟨tag, attributes, child :: children, text⟩]

/-- The lines of several elements at the same depth. -/
def Element.bodyLinesAll (depth : Nat) : List Element → List BodyLine
  | [] => []
  | e :: es => e.bodyLines depth ++ bodyLinesAll depth es

end

variable {depth : Nat} {e : Element} {es : List Element} {lines lines' inside : List BodyLine}

theorem begun_first (depth : Nat) (e : Element) (lines : List BodyLine) :
    (.first depth e :: lines).filterMap BodyLine.begun? =
      (depth, e) :: lines.filterMap BodyLine.begun? :=
  rfl

theorem begun_last (depth : Nat) (e : Element) : [.last depth e].filterMap BodyLine.begun? = [] :=
  rfl

section Nested

theorem nests_nil : Nests [] :=
  ⟨by simp, by simp⟩

theorem Nests.append (h : Nests lines) (h' : Nests lines') : Nests (lines ++ lines') := by
  constructor
  · intro before depth e after heq hchildren
    rcases append_eq_append_cons heq with ⟨rest, hlines, rfl⟩ | ⟨front, rfl, hlines'⟩
    · obtain ⟨inside, more, rfl, hinside⟩ := h.closed _ _ _ _ hlines hchildren
      exact ⟨inside, more ++ lines', by simp, hinside⟩
    · exact h'.closed _ _ _ _ hlines' hchildren
  · intro before depth e after heq
    rcases append_eq_append_cons heq with ⟨rest, hlines, rfl⟩ | ⟨front, rfl, hlines'⟩
    · exact h.opened _ _ _ _ hlines
    · obtain ⟨front', inside, rfl, hinside⟩ := h'.opened _ _ _ _ hlines'
      exact ⟨lines ++ front', inside, by simp, hinside⟩

theorem nests_leaf (h : e.children = []) : Nests [.first depth e] := by
  constructor
  · intro before depth' e' after heq hchildren
    cases before with
    | nil =>
      obtain ⟨hfirst, -⟩ := List.cons.inj heq
      obtain ⟨-, rfl⟩ := BodyLine.first.inj hfirst
      exact absurd h hchildren
    | cons line before => simp at heq
  · intro before depth' e' after heq
    cases before with
    | nil => simp at heq
    | cons line before => simp at heq

/-- Around lines that nest, an element may be put that encloses them. -/
theorem Nests.enclosed (h : Nests inside) (hinside : Encloses depth e inside) :
    Nests (.first depth e :: inside ++ [.last depth e]) := by
  constructor
  · intro before depth' e' after heq hchildren
    cases before with
    | nil =>
      obtain ⟨hfirst, rfl⟩ := List.cons.inj heq
      obtain ⟨rfl, rfl⟩ := BodyLine.first.inj hfirst
      exact ⟨inside, [], rfl, hinside⟩
    | cons line before =>
      obtain ⟨rfl, htail⟩ := List.cons.inj heq
      rcases append_eq_append_cons htail with ⟨rest, hlines, rfl⟩ | ⟨front, rfl, hlast⟩
      · obtain ⟨inside', more, rfl, hinside'⟩ := h.closed _ _ _ _ hlines hchildren
        exact ⟨inside', more ++ [.last depth e], by simp, hinside'⟩
      · cases front <;> simp at hlast
  · intro before depth' e' after heq
    cases before with
    | nil => simp at heq
    | cons line before =>
      obtain ⟨rfl, htail⟩ := List.cons.inj heq
      rcases append_eq_append_cons htail with ⟨rest, hlines, rfl⟩ | ⟨front, rfl, hlast⟩
      · obtain ⟨front, inside', rfl, hinside'⟩ := h.opened _ _ _ _ hlines
        exact ⟨.first depth e :: front, inside', rfl, hinside'⟩
      · cases front with
        | nil =>
          obtain ⟨hlast, -⟩ := List.cons.inj hlast
          obtain ⟨rfl, rfl⟩ := BodyLine.last.inj hlast
          exact ⟨[], inside, by simp, hinside⟩
        | cons line front => simp at hlast

end Nested

section Laid

mutual

theorem begun_bodyLines (depth : Nat) : ∀ e : Element,
    (e.bodyLines depth).filterMap BodyLine.begun? = e.outline depth
  | ⟨tag, attributes, [], text⟩ => rfl
  | ⟨tag, attributes, child :: children, text⟩ => by
    rw [Element.bodyLines, Element.outline, List.cons_append, begun_first, List.filterMap_append,
      begun_bodyLinesAll (depth + 1) (child :: children), begun_last, List.append_nil]

theorem begun_bodyLinesAll (depth : Nat) : ∀ es : List Element,
    (Element.bodyLinesAll depth es).filterMap BodyLine.begun? = Element.outlineAll depth es
  | [] => rfl
  | e :: es => by
    rw [Element.bodyLinesAll, Element.outlineAll, List.filterMap_append, begun_bodyLines depth e,
      begun_bodyLinesAll depth es]

end

mutual

theorem le_depth_of_mem_bodyLines (depth : Nat) : ∀ (e : Element), ∀ line ∈ e.bodyLines depth,
    depth ≤ line.depth
  | ⟨tag, attributes, [], text⟩, line, h => by
    rw [List.mem_singleton.1 h]
    exact Nat.le_refl depth
  | ⟨tag, attributes, child :: children, text⟩, line, h => by
    rw [Element.bodyLines, List.cons_append, List.mem_cons, List.mem_append,
      List.mem_singleton] at h
    rcases h with rfl | hinside | rfl
    · exact Nat.le_refl depth
    · exact Nat.le_of_succ_le
        (le_depth_of_mem_bodyLinesAll (depth + 1) (child :: children) line hinside)
    · exact Nat.le_refl depth

theorem le_depth_of_mem_bodyLinesAll (depth : Nat) : ∀ (es : List Element),
    ∀ line ∈ Element.bodyLinesAll depth es, depth ≤ line.depth
  | [], line, h => by cases h
  | e :: es, line, h => by
    rcases List.mem_append.1 h with he | hes
    · exact le_depth_of_mem_bodyLines depth e line he
    · exact le_depth_of_mem_bodyLinesAll depth es line hes

end

theorem encloses_bodyLinesAll (depth : Nat) (h : e.children ≠ []) :
    Encloses depth e (Element.bodyLinesAll (depth + 1) e.children) where
  children := h
  begun := begun_bodyLinesAll (depth + 1) e.children
  deeper := le_depth_of_mem_bodyLinesAll (depth + 1) e.children

mutual

theorem nests_bodyLines (depth : Nat) : ∀ e : Element, Nests (e.bodyLines depth)
  | ⟨tag, attributes, [], text⟩ => nests_leaf rfl
  | ⟨tag, attributes, child :: children, text⟩ =>
    (nests_bodyLinesAll (depth + 1) (child :: children)).enclosed
      (encloses_bodyLinesAll (e := ⟨tag, attributes, child :: children, text⟩) depth (by simp))

theorem nests_bodyLinesAll (depth : Nat) : ∀ es : List Element,
    Nests (Element.bodyLinesAll depth es)
  | [] => nests_nil
  | e :: es => (nests_bodyLines depth e).append (nests_bodyLinesAll depth es)

end

theorem laysOut_bodyLines (e : Element) : e.LaysOut (e.bodyLines 0) :=
  ⟨begun_bodyLines 0 e, nests_bodyLines 0 e⟩

end Laid

section Unique

theorem not_nests_last {rest : List BodyLine} : ¬ Nests (.last depth e :: rest) := by
  intro h
  obtain ⟨front, inside, heq, -⟩ := h.opened [] depth e rest rfl
  simp at heq

theorem Nests.of_leaf {after : List BodyLine} (h : Nests (.first depth e :: after))
    (hleaf : e.children = []) : Nests after := by
  constructor
  · intro before depth' x rest heq hchildren
    exact h.closed (.first depth e :: before) _ _ _ (by rw [heq, List.cons_append]) hchildren
  · intro before depth' x rest heq
    obtain ⟨front, inside, hfront, hinside⟩ :=
      h.opened (.first depth e :: before) _ _ _ (by rw [heq, List.cons_append])
    cases front with
    | nil =>
      obtain ⟨hfirst, -⟩ := List.cons.inj hfront
      obtain ⟨-, rfl⟩ := BodyLine.first.inj hfirst
      exact absurd hleaf hinside.children
    | cons line front =>
      obtain ⟨-, rfl⟩ := List.cons.inj hfront
      exact ⟨front, inside, rfl, hinside⟩

section Parent

variable {rest : List BodyLine} (h : Nests (.first depth e :: inside ++ .last depth e :: rest))
  (hinside : Encloses depth e inside)
include h hinside

/-- No line between the tags of an element belongs to one outside. -/
theorem Nests.between : Nests inside := by
  constructor
  · intro before depth' x after heq hchildren
    have hdeeper : depth < depth' := hinside.deeper (.first depth' x) (by simp [heq])
    obtain ⟨inside', more, hafter, hinside'⟩ := h.closed (.first depth e :: before) depth' x
      (after ++ .last depth e :: rest) (by simp [heq]) hchildren
    rcases append_eq_append_cons hafter with ⟨more', rfl, -⟩ | ⟨front, rfl, hlast⟩
    · exact ⟨inside', more', rfl, hinside'⟩
    · cases front with
      | nil =>
        obtain ⟨hlast, -⟩ := List.cons.inj hlast
        obtain ⟨rfl, -⟩ := BodyLine.last.inj hlast
        exact absurd hdeeper (Nat.lt_irrefl _)
      | cons line front =>
        obtain ⟨rfl, -⟩ := List.cons.inj hlast
        have hless : depth' < depth := hinside'.deeper (.last depth e) (by simp)
        exact absurd hless (Nat.lt_asymm hdeeper)
  · intro before depth' x after heq
    have hdeeper : depth < depth' := hinside.deeper (.last depth' x) (by simp [heq])
    obtain ⟨front, inside', hfront, hinside'⟩ := h.opened (.first depth e :: before) depth' x
      (after ++ .last depth e :: rest) (by simp [heq])
    cases front with
    | nil =>
      obtain ⟨hfirst, -⟩ := List.cons.inj hfront
      obtain ⟨rfl, -⟩ := BodyLine.first.inj hfirst
      exact absurd hdeeper (Nat.lt_irrefl _)
    | cons line front =>
      obtain ⟨-, rfl⟩ := List.cons.inj hfront
      exact ⟨front, inside', rfl, hinside'⟩

theorem Nests.behind : Nests rest := by
  constructor
  · intro before depth' x after heq hchildren
    exact h.closed (.first depth e :: inside ++ .last depth e :: before) _ _ _ (by simp [heq])
      hchildren
  · intro before depth' x after heq
    obtain ⟨front, inside', hfront, hinside'⟩ := h.opened
      ((.first depth e :: inside ++ [.last depth e]) ++ before) depth' x after (by simp [heq])
    rcases append_eq_append_cons hfront with ⟨after', hblock, rfl⟩ | ⟨front', -, rfl⟩
    · -- What begins in front of the closing tag would be closed behind it.
      rcases append_eq_append_cons hblock with ⟨after'', hfirst, rfl⟩ | ⟨front', -, hlast⟩
      · have hless : depth' < depth := hinside'.deeper (.last depth e) (by simp)
        have hmem : BodyLine.first depth' x ∈ .first depth e :: inside := by simp [hfirst]
        rcases List.mem_cons.1 hmem with hsame | hmem
        · obtain ⟨rfl, -⟩ := BodyLine.first.inj hsame
          exact absurd hless (Nat.lt_irrefl _)
        · have hdeeper : depth < depth' := hinside.deeper _ hmem
          exact absurd hless (Nat.lt_asymm hdeeper)
      · cases front' <;> simp at hlast
    · exact ⟨front', inside', rfl, hinside'⟩

end Parent

theorem bodyLines_of_leaf (h : e.children = []) : e.bodyLines depth = [.first depth e] := by
  obtain ⟨tag, attributes, children, text⟩ := e
  obtain rfl : children = [] := h
  rfl

theorem bodyLines_of_parent (h : e.children ≠ []) :
    e.bodyLines depth =
      .first depth e :: Element.bodyLinesAll (depth + 1) e.children ++ [.last depth e] := by
  obtain ⟨tag, attributes, _ | ⟨child, children⟩, text⟩ := e
  · exact absurd rfl h
  · rfl

/-- Lines that nest are determined by the elements that begin on them. -/
theorem Nests.eq_bodyLinesAll : ∀ {es : List Element} {depth : Nat} {lines : List BodyLine},
    Nests lines → lines.filterMap BodyLine.begun? = Element.outlineAll depth es →
    lines = Element.bodyLinesAll depth es
  | es, _, .last _ _ :: _, h, _ => absurd h not_nests_last
  | [], _, [], _, _ => rfl
  | [], _, .first _ _ :: _, _, hbegun => by simp [BodyLine.begun?, Element.outlineAll] at hbegun
  | e :: es, _, [], _, hbegun => by
    obtain ⟨tag, attributes, children, text⟩ := e
    simp [Element.outlineAll, Element.outline] at hbegun
  | ⟨tag, attributes, children, text⟩ :: es, depth, .first depth' e' :: after, h, hbegun => by
    rw [Element.outlineAll, Element.outline, begun_first, List.cons_append] at hbegun
    obtain ⟨hsame, hafter⟩ := List.cons.inj hbegun
    obtain ⟨rfl, rfl⟩ := Prod.mk.inj hsame
    by_cases hchildren : children = []
    · subst hchildren
      rw [Element.bodyLinesAll, bodyLines_of_leaf rfl, (h.of_leaf rfl).eq_bodyLinesAll hafter]
      rfl
    · obtain ⟨inside, rest, rfl, hinside⟩ := h.closed [] _ _ _ rfl hchildren
      rw [List.filterMap_append, hinside.begun] at hafter
      have hrest := List.append_cancel_left hafter
      rw [Element.bodyLinesAll, bodyLines_of_parent hchildren,
        ← (h.between hinside).eq_bodyLinesAll hinside.begun, ← (h.behind hinside).eq_bodyLinesAll hrest]
      simp

/-- A tree can be laid out on its own lines alone. -/
theorem Element.LaysOut.eq_bodyLines (h : e.LaysOut lines) : lines = e.bodyLines 0 := by
  have hbegun : lines.filterMap BodyLine.begun? = outlineAll 0 [e] := by
    rw [h.begun, outlineAll, outlineAll, List.append_nil]
  rw [h.nests.eq_bodyLinesAll hbegun, bodyLinesAll, bodyLinesAll, List.append_nil]

end Unique

end Pictogram
