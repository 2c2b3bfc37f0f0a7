import Pictogram.Proofs.Component.PrintedTag
import Pictogram.Proofs.Component.Rows

/-!
Reading a body back. A printed element is read as the element it was printed from, spelled as a
component spells it; between the tags stand blanks alone.
-/

namespace Pictogram

open Markup

/-- How an element relates to what is read of its body. An element without children keeps the text
that it shows; between the children of the others there is nothing but blanks. -/
inductive Restored : Element → Element → Prop
  | leaf (tag : String) (attributes : List Attribute) (text : Option String) :
    Restored ⟨tag, attributes, [], text⟩
      ⟨Text.lowercase tag, restoredAttributes attributes, [],
        Element.meaningfulText ⟨tag, attributes, [], text⟩⟩
  | parent {tag : String} {attributes : List Attribute} {children grown : List Element}
    {text blank : Option String} (hne : children ≠ [])
    (hchildren : List.Forall₂ Restored children grown)
    (hblank : Element.meaningfulText
      ⟨Text.lowercase tag, restoredAttributes attributes, grown, blank⟩ = none) :
    Restored ⟨tag, attributes, children, text⟩
      ⟨Text.lowercase tag, restoredAttributes attributes, grown, blank⟩

/-- The events of an element without children. -/
def leafEvents (tag : String) (attributes : List Attribute) : Option String → List Event
  | none => [.selfClosing (printedTag tag attributes)]
  | some text =>
    [.opening (printedTag tag attributes), .text (.ofList (text.toList.flatMap escapeTextChar)),
      .closing (Text.lowercase tag)]

mutual

/-- The events of the rows of an element, each row with its lead. -/
def Element.events (depth : Nat) : Element → List Event
  | ⟨tag, attributes, [], text⟩ =>
    .text (.ofList (lead depth)) ::
      leafEvents tag attributes (Element.meaningfulText ⟨tag, attributes, [], text⟩)
  | ⟨tag, attributes, child :: children, _⟩ =>
    .text (.ofList (lead depth)) :: .opening (printedTag tag attributes) ::
      (eventsAll (depth + 1) (child :: children) ++
        [.text (.ofList (lead depth)), .closing (Text.lowercase tag)])

/-- The events of the rows of several elements. -/
def Element.eventsAll (depth : Nat) : List Element → List Event
  | [] => []
  | e :: es => e.events depth ++ eventsAll depth es

end

/-- Whether an element is printed so that nothing of it is lost: its names are plain and its
attributes are printed with their values. -/
structure Faithful (e : Element) : Prop where
  plain : e.Plain
  valued : Valued e.attributes

section Reading

variable (names : List String) {tag : String} {attributes : List Attribute} {children : List Element}
  {own : Option String}

theorem readFrom_lead (depth : Nat) (cs : List Char) :
    readFrom names (lead depth ++ '<' :: cs) =
      (readFrom names ('<' :: cs)).cons (.text (.ofList (lead depth))) := by
  apply readFrom_text
  · simp [lead]
  · simp [lead, indentation]
  · rintro c tail heq
    exact (List.cons.inj heq).1.symm

theorem readFrom_printedClosing (htag : IsPlain tag) (rest : List Char) :
    readFrom (Text.lowercase tag :: names) ((Row.closing (Text.lowercase tag)).chars ++ rest) =
      (readFrom names rest).cons (.closing (Text.lowercase tag)) := by
  have hsolid : Solid (Text.lowercase tag) := fun c hc =>
    isSpace_of_isNameChar (htag.lowercase.2 c hc)
  have hbracket : '>' ∉ (Text.lowercase tag).toList := by
    intro hmem
    cases htag.lowercase.2 '>' hmem
  have hread := readFrom_closing names hsolid hbracket rest
  simpa [Row.chars] using hread

theorem readFrom_openingRow (h : Faithful ⟨tag, attributes, children, own⟩) (rest : List Char) :
    readFrom names ((Row.opening (Text.lowercase tag)
        (PrintedAttribute.ofAttributes attributes)).chars ++ rest) =
      (readFrom (Text.lowercase tag :: names) rest).cons
        (.opening (printedTag tag attributes)) := by
  have hread := readFrom_printedOpening h.plain.tag h.plain.attributes names rest
  rw [chars_printedTag h.valued] at hread
  simpa [Row.chars] using hread

theorem readFrom_escapedText {text : String} (hne : text.toList ≠ []) (cs : List Char) :
    readFrom names (text.toList.flatMap escapeTextChar ++ '<' :: cs) =
      (readFrom names ('<' :: cs)).cons (.text (.ofList (text.toList.flatMap escapeTextChar))) := by
  apply readFrom_text
  · cases htext : text.toList with
    | nil => exact absurd htext hne
    | cons c more =>
      rw [List.flatMap_cons]
      exact List.append_ne_nil_of_left_ne_nil (escapeTextChar_ne_nil c) _
  · exact not_mem_escape (special_not_mem_escapeTextChar (by simp)) _
  · rintro c tail heq
    exact (List.cons.inj heq).1.symm

/-- The row of an element without children is read as what it was printed for. -/
theorem readFrom_leafRow (h : Faithful ⟨tag, attributes, children, own⟩) {text : Option String}
    (htext : ∀ t, text = some t → t.toList ≠ []) (rest : List Char) :
    readFrom names ((Row.ofLeaf (Text.lowercase tag) (PrintedAttribute.ofAttributes attributes)
        text).chars ++ rest) =
      (readFrom names rest).prepend (leafEvents tag attributes text) := by
  cases text with
  | none =>
    have hread := readFrom_printedSelfClosing h.plain.tag h.plain.attributes names rest
    rw [chars_printedTag h.valued] at hread
    rw [leafEvents, Reading.prepend_cons, Reading.prepend_nil]
    simpa [Row.ofLeaf, Row.chars] using hread
  | some text =>
    have hopening := readFrom_openingRow names h
      (text.toList.flatMap escapeTextChar ++ ((Row.closing (Text.lowercase tag)).chars ++ rest))
    have htextRow := readFrom_escapedText (Text.lowercase tag :: names) (htext text rfl)
      ('/' :: (Text.lowercase tag).toList ++ '>' :: rest)
    have hclosing := readFrom_printedClosing names h.plain.tag rest
    have hrow : (Row.closing (Text.lowercase tag)).chars ++ rest =
        '<' :: ('/' :: (Text.lowercase tag).toList ++ '>' :: rest) := by
      simp [Row.chars]
    rw [hrow] at hopening hclosing
    rw [htextRow, hclosing] at hopening
    rw [leafEvents, Reading.prepend_cons, Reading.prepend_cons, Reading.prepend_cons,
      Reading.prepend_nil]
    simpa [Row.ofLeaf, Row.chars] using hopening

end Reading

theorem meaningfulText_ne_nil {e : Element} {text : String} (h : e.meaningfulText = some text) :
    text.toList ≠ [] := by
  rw [Element.meaningfulText] at h
  split at h
  · cases h
  · split at h
    · cases h
    · obtain rfl := Option.some.inj h
      simp

mutual

/-- Rows are read as the events of the element they were printed for, whatever stands behind
them. -/
theorem readFrom_rows (depth : Nat) (names : List String) (rest : List Char) : ∀ e : Element,
    (∀ x ∈ e.preorder, Faithful x) →
      readFrom names ((e.rows depth).flatMap Row.led ++ rest) =
        (readFrom names rest).prepend (e.events depth)
  | ⟨tag, attributes, [], text⟩, h => by
    obtain ⟨hfaithful, -⟩ := forall_preorder_iff.1 h
    have hrow := readFrom_leafRow names hfaithful
      (fun _ => meaningfulText_ne_nil (e := ⟨tag, attributes, [], text⟩)) rest
    obtain ⟨tail, htail⟩ := chars_row (Row.ofLeaf (Text.lowercase tag)
      (PrintedAttribute.ofAttributes attributes)
      (Element.meaningfulText ⟨tag, attributes, [], text⟩))
    rw [Element.rows, List.flatMap_singleton, Row.led, Element.events, Reading.prepend_cons,
      List.append_assoc, ← hrow, htail, List.cons_append, readFrom_lead]
  | ⟨tag, attributes, child :: children, text⟩, h => by
    obtain ⟨hfaithful, hchildren⟩ := forall_preorder_iff.1 h
    have hclosing := readFrom_printedClosing names hfaithful.plain.tag rest
    have hbody := readFrom_rowsAll (depth + 1) (Text.lowercase tag :: names)
      (Row.led (depth, .closing (Text.lowercase tag)) ++ rest) (child :: children) hchildren
    have hopening := readFrom_openingRow names hfaithful
      ((Element.rowsAll (depth + 1) (child :: children)).flatMap Row.led ++
        (Row.led (depth, .closing (Text.lowercase tag)) ++ rest))
    have hlast : readFrom (Text.lowercase tag :: names)
        (Row.led (depth, .closing (Text.lowercase tag)) ++ rest) =
        (readFrom names rest).prepend
          [.text (.ofList (lead depth)), .closing (Text.lowercase tag)] := by
      obtain ⟨tail, htail⟩ := chars_row (.closing (Text.lowercase tag))
      rw [htail] at hclosing
      rw [Row.led, List.append_assoc, htail, List.cons_append, readFrom_lead, ← List.cons_append,
        hclosing]
      rfl
    obtain ⟨tail, htail⟩ := chars_row (.opening (Text.lowercase tag)
      (PrintedAttribute.ofAttributes attributes))
    rw [htail] at hopening
    rw [Element.rows, List.flatMap_append, List.flatMap_cons, List.flatMap_singleton,
      List.append_assoc, List.append_assoc, Row.led, List.append_assoc, htail, List.cons_append,
      readFrom_lead, ← List.cons_append, hopening, hbody, hlast, Element.events]
    simp only [Reading.prepend_cons, Reading.prepend_append]

theorem readFrom_rowsAll (depth : Nat) (names : List String) (rest : List Char) :
    ∀ es : List Element, (∀ x ∈ Element.preorderAll es, Faithful x) →
      readFrom names ((Element.rowsAll depth es).flatMap Row.led ++ rest) =
        (readFrom names rest).prepend (Element.eventsAll depth es)
  | [], _ => rfl
  | e :: es, h => by
    obtain ⟨he, hes⟩ := forall_preorderAll_cons_iff.1 h
    rw [Element.rowsAll, Element.eventsAll, List.flatMap_append, List.append_assoc,
      readFrom_rows depth names _ e he, readFrom_rowsAll depth names rest es hes,
      Reading.prepend_append]

end

/-- Whether a text shows nothing. -/
def Hidden (text : Option String) : Prop :=
  ∀ c ∈ (text.getD "").toList, Text.isBlank c

theorem decode_lead (depth : Nat) :
    decode (.ofList (lead depth)) = .ok (.ofList (lead depth)) := by
  have hand : '&' ∉ lead depth := by simp [lead, indentation]
  rw [decode, String.toList_ofList, decodeFrom_of_no_ampersand 0 hand]
  rfl

theorem decode_escapedText (text : String) :
    decode (.ofList (text.toList.flatMap escapeTextChar)) = .ok text := by
  rw [decode, String.toList_ofList, decodeFrom_flatMap decodeFrom_escapeTextChar]
  simp [Except.map]

theorem hidden_append_lead {text : Option String} (h : Hidden text) (depth : Nat) :
    Hidden (some (text.getD "" ++ .ofList (lead depth))) := by
  intro c hc
  simp only [Option.getD_some, String.toList_append, String.toList_ofList, List.mem_append] at hc
  rcases hc with hc | hc
  · exact h c hc
  · simp only [lead, indentation, List.mem_cons, List.mem_replicate] at hc
    rcases hc with rfl | ⟨-, rfl⟩ <;> decide

theorem meaningfulText_of_hidden {e : Element} (h : Hidden e.text) : e.meaningfulText = none := by
  rw [Element.meaningfulText]
  cases htext : e.text with
  | none => rfl
  | some text =>
    rw [htext] at h
    have hall : ∀ c ∈ text.toList, Text.isBlank c := h
    have htrim : Text.trim text.toList = [] := by
      rw [Text.trim, List.dropWhile_eq_nil_iff.2 hall]
      rfl
    simp only [htrim]

/-- What an element without children leaves behind. -/
theorem run_leafEvents {tag : String} {attributes : List Attribute} {text : Option String}
    (g : Growth) :
    g.run (leafEvents tag attributes text) =
      .ok (g.attach ⟨Text.lowercase tag, restoredAttributes attributes, [], text⟩) := by
  have helement := element_printedTag tag attributes
  cases text with
  | none =>
    exact Growth.run_singleton (Growth.step_selfClosing_eq_ok_iff.2 ⟨_, helement, rfl⟩)
  | some text =>
    rw [leafEvents, Growth.run_cons_of_step (Growth.step_opening_eq_ok_iff.2 ⟨_, helement, rfl⟩),
      Growth.run_cons_of_step (Growth.step_text_of_decode (decode_escapedText text)),
      Growth.addText_of_cons rfl, Growth.run_singleton (Growth.step_closing_of_cons rfl _)]
    simp [Element.appendText]

mutual

/-- The events of an element grow what it is restored to, behind the lead of its first row. -/
theorem run_events (depth : Nat) : ∀ e : Element,
    ∃ t, Restored e t ∧ ∀ g : Growth,
      g.run (e.events depth) = .ok ((g.addText (.ofList (lead depth))).attach t)
  | ⟨tag, attributes, [], text⟩ => by
    refine ⟨_, .leaf tag attributes text, fun g => ?_⟩
    rw [Element.events,
      Growth.run_cons_of_step (Growth.step_text_of_decode (decode_lead depth))]
    exact run_leafEvents _
  | ⟨tag, attributes, child :: children, text⟩ => by
    obtain ⟨grown, hgrown, hrun⟩ := run_eventsAll (depth + 1) (child :: children)
    obtain ⟨own, hown, hbody⟩ := hrun none (by simp [Hidden])
    have helement := element_printedTag tag attributes
    have hblank := hidden_append_lead hown depth
    refine ⟨_, .parent (by simp) hgrown (meaningfulText_of_hidden hblank), fun g => ?_⟩
    rw [Element.events, Growth.run_cons_of_step (Growth.step_text_of_decode (decode_lead depth)),
      Growth.run_cons_of_step (Growth.step_opening_eq_ok_iff.2 ⟨_, helement, rfl⟩),
      Growth.run_append (hbody _ _ _ rfl rfl),
      Growth.run_cons_of_step (Growth.step_text_of_decode (decode_lead depth)),
      Growth.addText_of_cons rfl, Growth.run_singleton (Growth.step_closing_of_cons rfl _)]
    rfl

/-- The events of several elements grow what they are restored to inside the innermost element,
which has nothing but blanks for its own text before and after them. -/
theorem run_eventsAll (depth : Nat) : ∀ es : List Element,
    ∃ grown, List.Forall₂ Restored es grown ∧ ∀ own, Hidden own → ∃ text, Hidden text ∧
      ∀ (g : Growth) (parent : Element) (outer : List Element),
        g.enclosing = parent :: outer → parent.text = own →
          g.run (Element.eventsAll depth es) = .ok { g with
            enclosing := { parent with children := parent.children ++ grown, text } :: outer }
  | [] => by
    refine ⟨[], .nil, fun own hown => ⟨own, hown, fun g parent outer henclosing htext => ?_⟩⟩
    obtain ⟨enclosing, complete⟩ := g
    obtain rfl : enclosing = parent :: outer := henclosing
    rw [Element.eventsAll, Growth.run, List.append_nil, ← htext]
    cases parent
    rfl
  | e :: es => by
    obtain ⟨t, ht, hrun⟩ := run_events depth e
    obtain ⟨grown, hgrown, hrunAll⟩ := run_eventsAll depth es
    refine ⟨t :: grown, .cons ht hgrown, fun own hown => ?_⟩
    obtain ⟨text, htext, hrest⟩ := hrunAll _ (hidden_append_lead hown depth)
    refine ⟨text, htext, fun g parent outer henclosing hparent => ?_⟩
    have hfirst : g.run (e.events depth) = .ok { g with
        enclosing := (parent.appendText (.ofList (lead depth))).addChild t :: outer } := by
      rw [hrun, Growth.addText_of_cons henclosing, Growth.attach_of_cons rfl]
    have hown' : ((parent.appendText (.ofList (lead depth))).addChild t).text =
        some (own.getD "" ++ .ofList (lead depth)) := by
      rw [← hparent]
      rfl
    rw [Element.eventsAll, Growth.run_append hfirst, hrest _ _ outer rfl hown']
    simp [Element.addChild, Element.appendText]

end

theorem brace_not_mem_lead {brace : Char} (hbrace : brace ∈ ['\x7b', '\x7d']) (depth : Nat) :
    brace ∉ (String.ofList (lead depth)).toList := by
  intro hmem
  simp only [String.toList_ofList, lead, indentation, List.mem_cons, List.mem_replicate] at hmem
  rcases hmem with rfl | ⟨-, rfl⟩ <;> simp at hbrace

/-- The lead of the first row stands outside all elements, so that its line break may be left out. -/
theorem read_render {e : Element} (h : ∀ x ∈ e.preorder, Faithful x) (depth : Nat) :
    ∃ events, e.events depth = .text (.ofList (lead depth)) :: events ∧
      read (e.render depth) = ⟨.text (.ofList (indentation depth)) :: events, none⟩ := by
  obtain ⟨tail, htail⟩ := renderChars_eq depth e
  have hread := readFrom_rows depth [] [] e h
  rw [List.append_nil, ← led_renderChars, htail, ← List.cons_append, readFrom_nil] at hread
  change readFrom [] (lead depth ++ '<' :: tail) = _ at hread
  rw [readFrom_lead, Reading.prepend, List.append_nil] at hread
  obtain ⟨hevents, herror⟩ := Reading.mk.inj hread
  refine ⟨_, hevents.symm, ?_⟩
  have hspace : indentation depth = ' ' :: List.replicate (2 * depth + 1) ' ' := rfl
  have hrest : readFrom [] (indentation depth ++ '<' :: tail) =
      (readFrom [] ('<' :: tail)).cons (.text (.ofList (indentation depth))) := by
    apply readFrom_text
    · simp [hspace]
    · simp [indentation]
    · rintro c more heq
      exact (List.cons.inj heq).1.symm
  unfold Markup.read Element.render
  rw [String.toList_ofList, htail]
  have hmark : dropMark (indentation depth ++ '<' :: tail) = indentation depth ++ '<' :: tail := by
    rw [hspace]
    rfl
  rw [hmark, hrest, Reading.cons, herror]

mutual

/-- In the texts of a body braces are escaped. -/
theorem brace_not_mem_events {brace : Char} (hbrace : brace ∈ ['\x7b', '\x7d']) (depth : Nat) :
    ∀ (e : Element) (raw : String), .text raw ∈ e.events depth → brace ∉ raw.toList
  | ⟨tag, attributes, [], text⟩, raw, h => by
    rw [Element.events, List.mem_cons] at h
    rcases h with hlead | hleaf
    · obtain rfl := Event.text.inj hlead
      exact brace_not_mem_lead hbrace depth
    · cases htext : Element.meaningfulText ⟨tag, attributes, [], text⟩ with
      | none => simp [htext, leafEvents] at hleaf
      | some shown =>
        obtain rfl : raw = _ := by simpa [htext, leafEvents] using hleaf
        rw [String.toList_ofList]
        exact not_mem_escape (special_not_mem_escapeTextChar (by simp at hbrace ⊢; tauto)) _
  | ⟨tag, attributes, child :: children, text⟩, raw, h => by
    simp only [Element.events, List.mem_cons, List.mem_append, reduceCtorEq, List.not_mem_nil,
      or_false, false_or] at h
    rcases h with hlead | hbody | hlead
    · obtain rfl := Event.text.inj hlead
      exact brace_not_mem_lead hbrace depth
    · exact brace_not_mem_eventsAll hbrace (depth + 1) (child :: children) raw hbody
    · obtain rfl := Event.text.inj hlead
      exact brace_not_mem_lead hbrace depth

theorem brace_not_mem_eventsAll {brace : Char} (hbrace : brace ∈ ['\x7b', '\x7d']) (depth : Nat) :
    ∀ (es : List Element) (raw : String), .text raw ∈ Element.eventsAll depth es →
      brace ∉ raw.toList
  | [], raw, h => by cases h
  | e :: es, raw, h => by
    rw [Element.eventsAll, List.mem_append] at h
    rcases h with he | hes
    · exact brace_not_mem_events hbrace depth e raw he
    · exact brace_not_mem_eventsAll hbrace depth es raw hes

end

theorem isDrawing_of_restored {e t : Element} (hplain : IsPlain e.tag) (h : Restored e t) :
    isDrawing t = isDrawing e := by
  cases h with
  | leaf tag attributes text => exact hplain.equalsIgnoringCase_lowercase "svg"
  | parent => exact hplain.equalsIgnoringCase_lowercase "svg"

/-- Where what is restored of a drawing is all that a text holds, it is what the text is read as. -/
theorem parse_of_restored {e t : Element} {text : String} (hroot : isDrawing e)
    (hplain : e.Plain) (h : Restored e t) (hforest : (read text).forest = .ok [t]) :
    Element.parse text = .ok t := by
  have hdrawing : isDrawing t = true := by
    rw [isDrawing_of_restored hplain.tag h, hroot]
  rw [Element.parse, hforest]
  obtain ⟨tag, attributes, children, text⟩ := t
  simp [drawing?, Element.preorderAll, Element.preorder, hdrawing]

theorem mem_preorder_self (e : Element) : e ∈ e.preorder := by
  cases e
  simp [Element.preorder]

theorem exists_parse_render {e : Element} (hroot : isDrawing e) (h : ∀ x ∈ e.preorder, Faithful x)
    (depth : Nat) : ∃ t, Element.parse (e.render depth) = .ok t ∧ Restored e t := by
  obtain ⟨events, hevents, hread⟩ := read_render h depth
  obtain ⟨t, ht, hrun⟩ := run_events depth e
  refine ⟨t, parse_of_restored hroot (h e (mem_preorder_self e)).plain ht ?_, ht⟩
  refine forest_eq_ok_iff.2 ⟨by rw [hread], ?_⟩
  rw [hread, Growth.run_text_of_top, ← Growth.run_text_of_top (.ofList (lead depth)),
    ← hevents, hrun]
  rfl

/-- The rows of a drawing with a text behind them that shows no markup are read as the drawing. -/
theorem exists_parse_rows {e : Element} (hroot : isDrawing e) (h : ∀ x ∈ e.preorder, Faithful x)
    (depth : Nat) {after : List Char} (hne : after ≠ []) (hafter : '<' ∉ after) :
    ∃ t, Element.parse (.ofList ((e.rows depth).flatMap Row.led ++ after)) = .ok t ∧
      Restored e t := by
  obtain ⟨t, ht, hrun⟩ := run_events depth e
  have hend : readFrom [] after = ⟨[.text (.ofList after)], none⟩ := by
    have hstop : ∀ c tail, [] = c :: tail → c = '<' := by simp
    have htext := readFrom_text [] hne hafter hstop
    rwa [List.append_nil, readFrom_nil] at htext
  have hstart : ∃ tail, (e.rows depth).flatMap Row.led ++ after = '\n' :: tail := by
    rw [← led_renderChars]
    exact ⟨_, rfl⟩
  have hread : read (.ofList ((e.rows depth).flatMap Row.led ++ after)) =
      ⟨e.events depth ++ [.text (.ofList after)], none⟩ := by
    obtain ⟨tail, htail⟩ := hstart
    rw [Markup.read, String.toList_ofList, htail, dropMark_of_ne (by decide), ← htail,
      readFrom_rows depth [] after e h, hend]
    rfl
  refine ⟨t, parse_of_restored hroot (h e (mem_preorder_self e)).plain ht ?_, ht⟩
  refine forest_eq_ok_iff.2 ⟨by rw [hread], ?_⟩
  rw [hread, Growth.run_append (hrun _), Growth.addText_of_nil rfl, Growth.attach_of_nil rfl]
  rfl

/-- The body of a drawing with plain names, in which no attribute is printed as its name alone, is
read as the drawing that it restores; and no text in it holds a brace. -/
theorem parse_render {e : Element} (hroot : isDrawing e) (h : ∀ x ∈ e.preorder, Faithful x)
    (depth : Nat) :
    (∃ t, Element.parse (e.render depth) = .ok t ∧ Restored e t) ∧
      ∀ raw, .text raw ∈ (read (e.render depth)).events →
        '\x7b' ∉ raw.toList ∧ '\x7d' ∉ raw.toList := by
  refine ⟨exists_parse_render hroot h depth, ?_⟩
  obtain ⟨events, hevents, hread⟩ := read_render h depth
  intro raw hraw
  rw [hread, List.mem_cons] at hraw
  have hnone : ∀ brace ∈ ['\x7b', '\x7d'], brace ∉ raw.toList := by
    intro brace hbrace
    rcases hraw with hfirst | hmore
    · obtain rfl := Event.text.inj hfirst
      rw [String.toList_ofList]
      intro hmem
      apply brace_not_mem_lead hbrace depth
      rw [String.toList_ofList]
      exact List.mem_cons_of_mem _ hmem
    · exact brace_not_mem_events hbrace depth e raw (by rw [hevents]; exact .tail _ hmore)
  exact ⟨hnone _ (by simp), hnone _ (by simp)⟩

/-- A drawing with a quote in a value and a bracket in a text. -/
def labelled : Element :=
  ⟨"svg", [⟨"class", "a \"b\""⟩], [⟨"text", [], [], some "1 < 2"⟩], none⟩

theorem faithful_labelled : ∀ x ∈ labelled.preorder, Faithful x := by
  intro x hx
  simp only [labelled, Element.preorder, Element.preorderAll, List.append_nil, List.mem_cons,
    List.not_mem_nil, or_false] at hx
  rcases hx with rfl | rfl
  · refine ⟨⟨by decide +kernel, ?_⟩, ?_⟩
    · exact List.forall_mem_singleton.2 (by decide +kernel)
    · exact List.forall_mem_singleton.2 fun _ => by decide
  · exact ⟨⟨by decide +kernel, by simp⟩, by simp [Valued]⟩

theorem parse_render_labelled :
    isDrawing labelled ∧ (∀ x ∈ labelled.preorder, Faithful x) ∧
      ∃ t, Element.parse (labelled.render 1) = .ok t ∧ Restored labelled t :=
  ⟨by decide +kernel, faithful_labelled,
    (parse_render (by decide +kernel) faithful_labelled 1).1⟩

end Pictogram
