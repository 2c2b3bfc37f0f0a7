import Pictogram.Proofs.Cleanup.Rereading
import Pictogram.Proofs.Cleanup.Trimming
import Pictogram.Proofs.Markup.Joining

/-!
What a cleanup does to the meaning of a text. The cleaned text holds the pruned trees of the text,
if everything that is kept can be rewritten; and if something cannot, it never does.
-/

namespace Pictogram.Markup

/-- Whether everything that a cleanup keeps of a reading can be rewritten. -/
def Reading.Rewritable (reading : Reading) : Prop :=
  ∀ kept, reading.cleaned = .ok kept → ∀ event ∈ kept, event.Rewritable

/-- Whether the cleaned text holds the pruned trees of a text, up to blanks in texts. -/
def Cleanup.Preserves (text : String) (forest : List Element) : Prop :=
  ∃ cleaned grown, cleanup text = .ok cleaned ∧ (read cleaned).forest = .ok grown ∧
    Element.condensedAll grown = Element.condensedAll (Element.prunedAll forest)

mutual

theorem listing_condensed (depth : Nat) : ∀ e : Element,
    e.condensed.listing depth = e.listing depth
  | ⟨tag, attributes, children, text⟩ => by
    rw [Element.condensed, Element.listing, Element.listing,
      listingAll_condensedAll (depth + 1) children]

theorem listingAll_condensedAll (depth : Nat) : ∀ es : List Element,
    Element.listingAll depth (Element.condensedAll es) = Element.listingAll depth es
  | [] => rfl
  | e :: es => by
    rw [Element.condensedAll, Element.listingAll, Element.listingAll, listing_condensed depth e,
      listingAll_condensedAll depth es]

end

/-- Trees that differ in blanks only are listed alike. -/
theorem listingAll_congr {es fs : List Element}
    (h : Element.condensedAll es = Element.condensedAll fs) :
    Element.listingAll 0 es = Element.listingAll 0 fs := by
  rw [← listingAll_condensedAll 0 es, h, listingAll_condensedAll 0 fs]

/-- Where the drawings are sought, blanks do not matter. -/
theorem exists_drawing_of_condensed {es fs : List Element} {e : Element}
    (h : Element.condensedAll es = Element.condensedAll fs) (he : drawing? fs = some e) :
    ∃ e', drawing? es = some e' ∧ e'.condensed = e.condensed := by
  have hmap : (drawing? es).map Element.condensed = some e.condensed := by
    rw [← drawing?_condensedAll, h, drawing?_condensedAll, he, Option.map_some]
  simpa using hmap

/-- What makes events that are written one after the other be read as they were. -/
structure Writable (events : List Event) : Prop where
  nested : Nested [] events
  legible : ∀ event ∈ events, event.Legible
  separated : Separated events

theorem writable_joinTexts {events : List Event} (hnested : Nested [] events)
    (hlegible : ∀ event ∈ events, event.Legible) : Writable (joinTexts events) :=
  ⟨nested_joinTexts hnested, legible_joinTexts hlegible, separated_joinTexts events⟩

/-- A text outside all elements may lose its first character. -/
theorem Writable.drop_char {raw : String} {events : List Event} {c : Char} {tail : List Char}
    (h : Writable (.text raw :: events)) (hraw : raw.toList = c :: tail) :
    ∃ shorter, shorter.flatMap (·.chars) = tail ++ events.flatMap (·.chars) ∧
      Writable shorter ∧ Growth.run {} shorter = Growth.run {} events := by
  obtain ⟨⟨-, hbracket⟩, hmore⟩ := List.forall_mem_cons.1 h.legible
  cases tail with
  | nil =>
    have hseparated := List.isChain_of_isChain_cons h.separated
    exact ⟨events, rfl, ⟨h.nested.2, hmore, hseparated⟩, rfl⟩
  | cons d tail =>
    have htail : '<' ∉ (String.ofList (d :: tail)).toList := by
      rw [String.toList_ofList]
      intro hmem
      rw [hraw] at hbracket
      exact hbracket (List.mem_cons_of_mem c hmem)
    refine ⟨.text (.ofList (d :: tail)) :: events, ?_, ⟨⟨by simp, h.nested.2⟩, ?_, ?_⟩, rfl⟩
    · rw [List.flatMap_cons]
      change (String.ofList (d :: tail)).toList ++ _ = _
      rw [String.toList_ofList]
    · exact List.forall_mem_cons.2 ⟨⟨by simp, htail⟩, hmore⟩
    · cases events with
      | nil => exact List.isChain_singleton _
      | cons next events =>
        obtain ⟨hpair, hchain⟩ := List.isChain_cons_cons.1 h.separated
        exact List.isChain_cons_cons.2 ⟨hpair, hchain⟩

/-- A byte order mark that begins a written text begins a text outside all elements, so that nothing
is lost with it. -/
theorem dropMark_written {events : List Event} {rest : List Char} (h : Writable events)
    (hrest : ∀ c tail, rest = c :: tail → c = '<') :
    ∃ unmarked, dropMark (events.flatMap (·.chars) ++ rest) = unmarked.flatMap (·.chars) ++ rest ∧
      Writable unmarked ∧ Growth.run {} unmarked = Growth.run {} events := by
  cases events with
  | nil =>
    refine ⟨[], ?_, h, rfl⟩
    cases rest with
    | nil => rfl
    | cons c tail =>
      obtain rfl := hrest c tail rfl
      exact dropMark_of_ne (by decide) tail
  | cons event events =>
    by_cases htext : event.isText
    · cases event with
      | text raw =>
        rw [List.flatMap_cons, List.append_assoc]
        change ∃ _, dropMark (raw.toList ++ _) = _ ∧ _
        cases hraw : raw.toList with
        | nil => exact absurd hraw (h.legible (.text raw) (by simp)).1
        | cons c tail =>
          by_cases hc : c = '\uFEFF'
          · obtain ⟨shorter, hshorter, hwritable, hrun⟩ := h.drop_char hraw
            refine ⟨shorter, ?_, hwritable, hrun⟩
            rw [List.cons_append, dropMark, if_pos hc, hshorter, List.append_assoc]
          · refine ⟨.text raw :: events, ?_, h, rfl⟩
            rw [List.cons_append, dropMark_of_ne hc, ← List.cons_append, ← hraw,
              List.flatMap_cons, List.append_assoc]
            rfl
      | _ => cases htext
    · obtain ⟨tail, htail⟩ := chars_of_not_isText (Bool.eq_false_iff.2 htext)
      refine ⟨event :: events, ?_, h, rfl⟩
      rw [List.flatMap_cons, htail]
      exact dropMark_of_ne (by decide) _

/-- Events that can be written are read, up to the mark, as events from which the same trees
grow. -/
theorem read_written {events : List Event} {g : Growth} (rest : List Char)
    (hnested : Nested [] events) (hlegible : ∀ event ∈ events, event.Legible)
    (hrun : Growth.run {} events = .ok g) (hrest : ∀ c tail, rest = c :: tail → c = '<') :
    ∃ read names, g.enclosing.length = names.length ∧ Growth.run {} read = .ok g ∧
      readFrom [] (dropMark (events.flatMap (·.chars) ++ rest)) =
        (readFrom names rest).prepend read := by
  obtain ⟨unmarked, hchars, hwritable, hsame⟩ :=
    dropMark_written (writable_joinTexts hnested hlegible) hrest
  rw [Growth.run_joinTexts hrun] at hsame
  rw [chars_joinTexts] at hchars
  refine ⟨unmarked, openAfterAll [] unmarked, Growth.length_run hsame rfl, hsame, ?_⟩
  rw [hchars, readFrom_written hwritable.nested hwritable.legible hwritable.separated hrest]

/-- What is kept grows the pruned trees. -/
theorem exists_kept {text : String} {forest : List Element}
    (h : (read text).forest = .ok forest) :
    ∃ kept pruned, (read text).cleaned = .ok kept ∧ (∀ event ∈ kept, event.Kept) ∧
      Nested [] kept ∧ Growth.run {} kept = .ok { enclosing := [], complete := pruned } ∧
      Element.condensedAll pruned = Element.condensedAll (Element.prunedAll forest) := by
  obtain ⟨herror, hrun⟩ := forest_eq_ok_iff.1 h
  have hstart : Trimmed [] [] {} {} := ⟨rfl, by simp, by simp, rfl, rfl⟩
  obtain ⟨kept, dropped, live, grown, hkeep, hgrown, htrimmed⟩ := keep_run hstart rfl hrun
  have hcleaned := cleaned_eq_ok_iff.2 ⟨herror, hkeep⟩
  obtain ⟨hkept, hnested⟩ := kept_of_cleaned hcleaned
  obtain ⟨rfl, rfl⟩ := List.append_eq_nil_iff.1 htrimmed.enclosing.symm
  have henclosing : grown.enclosing = [] := by simpa using htrimmed.same
  obtain ⟨enclosing, pruned⟩ := grown
  obtain rfl : enclosing = [] := henclosing
  exact ⟨kept, pruned, hcleaned, hkept, hnested, hgrown, htrimmed.complete⟩

/-- Written down, events that can be rewritten are read as the trees that grow from them. -/
theorem forest_written {kept : List Event} {pruned : List Element}
    (hkept : ∀ event ∈ kept, event.Kept) (hnested : Nested [] kept)
    (hrun : Growth.run {} kept = .ok { enclosing := [], complete := pruned })
    (h : ∀ event ∈ kept, event.Rewritable) :
    (read (.ofList (kept.flatMap (·.chars)))).forest = .ok pruned := by
  have hlegible : ∀ event ∈ kept, event.Legible := fun event hevent =>
    (hkept event hevent).legible_iff.2 (h event hevent)
  obtain ⟨events, names, -, hevents, hread⟩ :=
    read_written [] hnested hlegible hrun (by simp)
  rw [List.append_nil, readFrom_nil, Reading.prepend, List.append_nil] at hread
  rw [read, String.toList_ofList, hread]
  exact forest_eq_ok_iff.2 ⟨rfl, hevents⟩

/-- If what is written is read as trees with the same elements, everything could be rewritten: in
front of the first event that could not, all is read as it was. -/
theorem rewritable_of_forest_written {kept : List Event} {pruned grown : List Element}
    (hkept : ∀ event ∈ kept, event.Kept) (hnested : Nested [] kept)
    (hrun : Growth.run {} kept = .ok { enclosing := [], complete := pruned })
    (hread : (read (.ofList (kept.flatMap (·.chars)))).forest = .ok grown)
    (hsame : Element.listingAll 0 grown = Element.listingAll 0 pruned) :
    ∀ event ∈ kept, event.Rewritable := by
  obtain ⟨herror, hgrown⟩ := forest_eq_ok_iff.1 hread
  rw [read, String.toList_ofList] at herror hgrown
  have hprefix : ∀ front back, kept = front ++ back →
      (∀ event ∈ front, event.Rewritable) → ∀ event ∈ back, event.Rewritable := by
    intro front back heq hfront
    induction back generalizing front with
    | nil => simp
    | cons event back ih =>
      have hevent : event.Rewritable := by
        by_cases htext : event.isText
        · cases event with
          | text raw => trivial
          | _ => cases htext
        obtain ⟨tail, htail⟩ := chars_of_not_isText (Bool.eq_false_iff.2 htext)
        have hlegible : ∀ event ∈ front, event.Legible := fun e he =>
          (hkept e (by simp [heq, he])).legible_iff.2 (hfront e he)
        rw [heq] at hnested hrun
        obtain ⟨g, hg, hback⟩ := Growth.exists_run_of_append hrun
        obtain ⟨events, names, hlength, hevents, hwritten⟩ :=
          read_written ((event :: back).flatMap (·.chars)) hnested.of_append hlegible hg (by
            intro c more hcons
            rw [List.flatMap_cons, htail] at hcons
            exact (List.cons.inj hcons).1.symm)
        rw [heq, List.flatMap_append, hwritten, Reading.prepend] at herror hgrown
        rw [Growth.run_append hevents] at hgrown
        refine rewritable_of_reread (hkept event (by simp [heq])) hlength hback herror hgrown ?_
        simpa [Growth.listing, Element.listingOpen] using hsame
      refine List.forall_mem_cons.2 ⟨hevent, ih (front ++ [event]) (by simpa using heq) ?_⟩
      exact List.forall_mem_append.2 ⟨hfront, List.forall_mem_singleton.2 hevent⟩
  exact hprefix [] kept rfl (by simp)

/-- The cleaned text of a text that can be read holds its pruned trees exactly when everything that
is kept can be rewritten; then its drawing is the first of the pruned trees. -/
theorem cleanup_preserves_iff {text : String} {forest : List Element}
    (h : (read text).forest = .ok forest) :
    (Cleanup.Preserves text forest ↔ (read text).Rewritable) ∧
      ((read text).Rewritable → ∀ drawing, drawing? (Element.prunedAll forest) = some drawing →
        ∃ cleaned e, cleanup text = .ok cleaned ∧ Element.parse cleaned = .ok e ∧
          e.condensed = drawing.condensed) := by
  obtain ⟨kept, pruned, hcleaned, hkept, hnested, hrun, hpruned⟩ := exists_kept h
  have hcleanup : cleanup text = .ok (.ofList (kept.flatMap (·.chars))) := by
    rw [cleanup, hcleaned]
    rfl
  have hwritten : (read text).Rewritable →
      (read (.ofList (kept.flatMap (·.chars)))).forest = .ok pruned := fun hrewritable =>
    forest_written hkept hnested hrun (hrewritable kept hcleaned)
  refine ⟨⟨?_, ?_⟩, ?_⟩
  · rintro ⟨cleaned, grown, hcleaned', hread, hgrown⟩ kept' hkept'
    rw [hcleanup] at hcleaned'
    obtain rfl := Except.ok.inj hcleaned'
    obtain rfl := Except.ok.inj (hcleaned.symm.trans hkept')
    exact rewritable_of_forest_written hkept hnested hrun hread
      (listingAll_congr (hgrown.trans hpruned.symm))
  · intro hrewritable
    exact ⟨_, pruned, hcleanup, hwritten hrewritable, hpruned⟩
  · intro hrewritable drawing hdrawing
    obtain ⟨e, he, hsame⟩ := exists_drawing_of_condensed hpruned hdrawing
    refine ⟨_, e, hcleanup, ?_, hsame⟩
    rw [Element.parse, hwritten hrewritable]
    simp only [he]

theorem rewritable_titled_drawing :
    (read "<svg width='1'><title>T</title><g/></svg>").Rewritable := by
  have hcleaned : (read "<svg width='1'><title>T</title><g/></svg>").cleaned =
      .ok [.opening ⟨"svg", [⟨"width", "1"⟩], none⟩, .selfClosing ⟨"g", [], none⟩,
        .closing "svg"] := by
    decide +kernel
  intro kept hkept event hevent
  rw [hcleaned] at hkept
  obtain rfl := Except.ok.inj hkept
  simp only [List.mem_cons, List.not_mem_nil, or_false] at hevent
  rcases hevent with rfl | rfl | rfl
  · exact ⟨by simp [Unquoted], delimited_of_closed (by decide) (by decide), by decide⟩
  · exact ⟨by simp [Unquoted], delimited_of_closed (by decide) (by decide), by decide⟩
  · trivial

/-- A title is left out, and the rest of the drawing is still there. -/
theorem cleanup_preserves_titled_drawing :
    (read "<svg width='1'><title>T</title><g/></svg>").forest =
        .ok [⟨"svg", [⟨"width", "1"⟩], [⟨"title", [], [], some "T"⟩, ⟨"g", [], [], none⟩], none⟩] ∧
      Cleanup.Preserves "<svg width='1'><title>T</title><g/></svg>"
        [⟨"svg", [⟨"width", "1"⟩], [⟨"title", [], [], some "T"⟩, ⟨"g", [], [], none⟩], none⟩] := by
  have hforest : (read "<svg width='1'><title>T</title><g/></svg>").forest =
      .ok [⟨"svg", [⟨"width", "1"⟩], [⟨"title", [], [], some "T"⟩, ⟨"g", [], [], none⟩], none⟩] := by
    have hread : read "<svg width='1'><title>T</title><g/></svg>" =
        ⟨[.opening ⟨"svg", [⟨"width", "1"⟩], none⟩, .opening ⟨"title", [], none⟩, .text "T",
          .closing "title", .selfClosing ⟨"g", [], none⟩, .closing "svg"], none⟩ := by
      decide +kernel
    have hwidth : decode "1" = .ok "1" := by decide +kernel
    have htitle : decode "T" = .ok "T" := by decide +kernel
    simp [hread, Reading.forest, Growth.run, Growth.step, Tag.element, decodeAttributes, hwidth,
      htitle, Growth.attach, Growth.addText, Element.addChild, Element.appendText, Except.map]
  exact ⟨hforest, (cleanup_preserves_iff hforest).1.2 rewritable_titled_drawing⟩

/-- A value that was written between single quotes and holds double quotes is written between double
quotes, and then the drawing cannot be read any more. -/
theorem cleanup_breaks_quoted_value :
    (read "<svg><text font-family='\"Inter\"'>A</text></svg>").forest =
        .ok [⟨"svg", [], [⟨"text", [⟨"font-family", "\"Inter\""⟩], [], some "A"⟩], none⟩] ∧
      drawing? (Element.prunedAll
          [⟨"svg", [], [⟨"text", [⟨"font-family", "\"Inter\""⟩], [], some "A"⟩], none⟩]) =
        some ⟨"svg", [], [⟨"text", [⟨"font-family", "\"Inter\""⟩], [], some "A"⟩], none⟩ ∧
      cleanup "<svg><text font-family='\"Inter\"'>A</text></svg>" =
        .ok "<svg><text font-family=\"\"Inter\"\">A</text></svg>" ∧
      Element.parse "<svg><text font-family=\"\"Inter\"\">A</text></svg>" =
        .error (.malformed (.badAttribute (.missingEquals 26))) := by
  have hread : read "<svg><text font-family='\"Inter\"'>A</text></svg>" =
      ⟨[.opening ⟨"svg", [], none⟩, .opening ⟨"text", [⟨"font-family", "\"Inter\""⟩], none⟩,
        .text "A", .closing "text", .closing "svg"], none⟩ := by
    decide +kernel
  have hreread : read "<svg><text font-family=\"\"Inter\"\">A</text></svg>" =
      ⟨[.opening ⟨"svg", [], none⟩,
        .opening ⟨"text", [⟨"font-family", ""⟩], some (.missingEquals 26)⟩,
        .text "A", .closing "text", .closing "svg"], none⟩ := by
    decide +kernel
  have hfamily : decode "\"Inter\"" = .ok "\"Inter\"" := by decide +kernel
  have hempty : decode "" = .ok "" := by decide +kernel
  have hletter : decode "A" = .ok "A" := by decide +kernel
  refine ⟨?_, ?_, by decide +kernel, ?_⟩
  · simp [hread, Reading.forest, Growth.run, Growth.step, Tag.element, decodeAttributes, hfamily,
      hletter, Growth.attach, Growth.addText, Element.addChild, Element.appendText, Except.map]
  · have hsvg : Cleanup.isDroppedElement "svg" = false := by decide +kernel
    have htext : Cleanup.isDroppedElement "text" = false := by decide +kernel
    have hkey : Cleanup.isDroppedAttribute "font-family" = false := by decide +kernel
    have hdrawing : Text.equalsIgnoringCase "svg" "svg" := by decide +kernel
    simp [Element.prunedAll, Element.pruned, hsvg, htext, hkey, drawing?, isDrawing,
      Element.preorderAll, Element.preorder, hdrawing]
  · simp [Element.parse, hreread, Reading.forest, Growth.run, Growth.step, Tag.element,
      decodeAttributes, hempty, Except.map]

end Pictogram.Markup
