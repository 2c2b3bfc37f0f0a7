import Pictogram.Proofs.Markup.Decoding
import Pictogram.Proofs.Markup.Document
import Pictogram.Proofs.Markup.Forest

/-!
Reading documents. Every document of the grammar is read as the trees that it stands for, whatever
the freedom of spelling was used for.
-/

namespace Pictogram.Markup.Document

/-- The characters that a spelling may have to end at are no part of a name. -/
theorem not_mem_named (entity : Entity) {stop : Char} (hstop : stop ∈ ['<', '"', '\'']) :
    stop ∉ (Glyph.named entity).chars := by
  have hall : ∀ stop ∈ ['<', '"', '\''], stop ∉ (Glyph.named entity).chars := by
    cases entity <;> decide
  exact hall stop hstop

theorem decodeFrom_named (entity : Entity) (position : Nat) (rest : List Char) :
    ∃ next, decodeFrom position ((Glyph.named entity).chars ++ rest) =
      (decodeFrom next rest).map (entity.char :: ·) := by
  have hname : ∀ d ∈ entity.name, inReference d := by
    cases entity <;> decide
  have hresolve : resolve position entity.name = .ok entity.char := by
    cases entity <;> rfl
  obtain ⟨next, hnext⟩ := decodeFrom_reference position entity.name hname hresolve rest
  refine ⟨next, ?_⟩
  rw [← hnext, Glyph.chars]
  simp

namespace Spelling

variable {stop : Char}

theorem decodes (s : Spelling stop) : decode (.ofList s.chars) = .ok s.text := by
  have hglyph : ∀ glyph ∈ s.glyphs, ∀ position rest, ∃ next,
      decodeFrom position (glyph.chars ++ rest) =
        (decodeFrom next rest).map (glyph.char :: ·) := by
    intro glyph hglyph position rest
    cases glyph with
    | bare c => exact ⟨_, decodeFrom_cons position (s.bare c hglyph).1 rest⟩
    | named entity => exact decodeFrom_named entity position rest
  rw [decode, String.toList_ofList, chars, decodeFrom_flatMap_of_forall hglyph]
  rfl

theorem not_mem_chars (s : Spelling stop) (hstop : stop ∈ ['<', '"', '\'']) : stop ∉ s.chars := by
  intro hmem
  obtain ⟨glyph, hglyph, hmem⟩ := List.mem_flatMap.1 hmem
  cases glyph with
  | bare c =>
    obtain rfl := List.mem_singleton.1 hmem
    exact (s.bare stop hglyph).2 rfl
  | named entity => exact not_mem_named entity hstop hmem

theorem chars_eq_nil_iff (s : Spelling stop) : s.chars = [] ↔ s.glyphs = [] := by
  rw [chars, List.flatMap_eq_nil_iff]
  constructor
  · intro h
    refine List.eq_nil_iff_forall_not_mem.2 fun glyph hglyph => ?_
    cases glyph <;> exact absurd (h _ hglyph) (by simp [Glyph.chars])
  · intro h
    simp [h]

theorem chars_append (s t : Spelling stop) : (s.append t).chars = s.chars ++ t.chars :=
  List.flatMap_append

theorem text?_append (s t : Spelling stop) :
    (s.append t).text? = joinText s.text? t.text? := by
  by_cases hs : s.glyphs = []
  · simp [text?, append, text, hs, joinText]
  · by_cases ht : t.glyphs = []
    · simp [text?, append, text, hs, ht, joinText]
    · simp [text?, append, text, hs, ht, joinText]

end Spelling

theorem Quote.char_eq (quote : Quote) : quote.char = '"' ∨ quote.char = '\'' := by
  cases quote with
  | double => exact .inl rfl
  | single => exact .inr rfl

namespace WrittenAttribute

/-- What is read of an attribute. -/
def raw (a : WrittenAttribute) : RawAttribute :=
  ⟨.ofList a.name.chars, .ofList a.value.chars⟩

theorem toList_key_raw (a : WrittenAttribute) : a.raw.key.toList = a.name.chars :=
  String.toList_ofList

theorem quote_not_mem (a : WrittenAttribute) : a.quote.char ∉ a.value.chars := by
  refine a.value.not_mem_chars ?_
  rcases a.quote.char_eq with hquote | hquote <;> simp [hquote]

theorem seals (a : WrittenAttribute) : Sealed a.chars :=
  sealed_assignment a.gap.spaces a.name.bare a.quote.char_eq a.quote_not_mem

theorem exists_chars_eq_cons (a : WrittenAttribute) :
    ∃ c tail, a.chars = c :: tail ∧ Text.isSpace c := by
  obtain ⟨c, spaces, hgap⟩ := List.exists_cons_of_ne_nil a.gap_ne
  have hspace := a.gap.spaces c (by simp [hgap])
  rw [chars, hgap, List.cons_append]
  exact ⟨c, _, rfl, hspace⟩

end WrittenAttribute

/-- Attributes are read as they are written, in either quotes, with any spaces behind them. -/
theorem readAttributes_document {seen : List (List Char × Nat)} {attributes : List WrittenAttribute}
    (position : Nat) (hkeys : WellKeyed seen (attributes.map (·.raw))) (gap : Gap) :
    readAttributes position seen (attributes.flatMap (·.chars) ++ gap.chars) =
      (attributes.map (·.raw), none) := by
  induction attributes generalizing position seen with
  | nil => exact readAttributes_spaces gap.spaces
  | cons a attributes ih =>
    rw [List.map_cons] at hkeys
    have hnew := ((wellKeyed_cons_iff 0).1 hkeys).2.1
    rw [a.toList_key_raw] at hnew
    obtain ⟨start, next, hread⟩ := readAttributes_cons position a.gap.spaces a.name.bare.isKey
      a.quote.char_eq a.quote_not_mem hnew (attributes.flatMap (·.chars) ++ gap.chars)
    obtain ⟨-, -, hrest⟩ := (wellKeyed_cons_iff start).1 hkeys
    rw [a.toList_key_raw] at hrest
    rw [ih next hrest] at hread
    rw [List.flatMap_cons, List.append_assoc, WrittenAttribute.chars, List.map_cons,
      WrittenAttribute.raw]
    simpa using hread

namespace StartTag

/-- What is read of a tag. -/
def tag (t : StartTag) : Tag :=
  { name := .ofList t.name.chars, attributes := t.attributes.map (·.raw) }

theorem wellKeyed (t : StartTag) : WellKeyed [] (t.attributes.map (·.raw)) := by
  refine ⟨?_, ?_⟩
  · rw [List.map_map]
    simpa only [Function.comp_def, WrittenAttribute.toList_key_raw] using t.distinct
  · intro written hwritten
    obtain ⟨a, -, rfl⟩ := List.mem_map.1 hwritten
    rw [a.toList_key_raw]
    exact ⟨a.name.bare.isKey, rfl⟩

theorem solid (t : StartTag) : Solid (.ofList t.name.chars) := by
  intro c hc
  rw [String.toList_ofList] at hc
  exact (t.name.bare.chars c hc).1

theorem ofContent_chars (t : StartTag) : Tag.ofContent t.chars = t.tag := by
  have hlist : ∀ c tail, t.attributes.flatMap (·.chars) ++ t.gap.chars = c :: tail →
      Text.isSpace c := by
    intro c tail heq
    cases hattributes : t.attributes with
    | nil =>
      rw [hattributes, List.flatMap_nil, List.nil_append] at heq
      exact t.gap.spaces c (by simp [heq])
    | cons a more =>
      obtain ⟨d, spaces, ha, hd⟩ := a.exists_chars_eq_cons
      rw [hattributes, List.flatMap_cons, ha] at heq
      obtain ⟨rfl, -⟩ := List.cons.inj heq
      exact hd
  have hread := ofContent_append t.solid hlist
  rw [readAttributes_document _ t.wellKeyed, String.toList_ofList] at hread
  exact hread

theorem decodes (t : StartTag) : t.tag.Decodes (t.attributes.map (·.meaning)) := by
  refine ⟨rfl, ?_⟩
  rw [tag, List.forall₂_map_left_iff, List.forall₂_map_right_iff, List.forall₂_same]
  intro a _
  exact ⟨rfl, a.value.decodes⟩

theorem seals (t : StartTag) : Sealed t.chars :=
  t.name.bare.seals.append
    ((sealed_flatMap fun a _ => a.seals).append (sealed_spaces t.gap.spaces))

theorem begins (t : StartTag) : BeginsTag t.chars :=
  t.name.begins.append fun hname => absurd hname t.name.bare.nonempty

theorem readFrom_opening (t : StartTag) (names : List String) (rest : List Char) :
    readFrom names ('<' :: (t.chars ++ '>' :: rest)) =
      (readFrom (t.tag.name :: names) rest).cons (.opening t.tag) := by
  have hcontent : OpeningContent t.chars := ⟨t.seals.delimited, t.begins, t.seals.last⟩
  rw [Markup.readFrom_opening names hcontent, t.ofContent_chars]

theorem readFrom_empty (t : StartTag) (names : List String) (rest : List Char) :
    readFrom names ('<' :: (t.chars ++ '/' :: '>' :: rest)) =
      (readFrom names rest).cons (.selfClosing t.tag) := by
  have hne : t.chars ≠ [] := List.append_ne_nil_of_left_ne_nil t.name.bare.nonempty _
  rw [readFrom_selfClosing names ⟨t.seals.delimited, t.begins, hne⟩, t.ofContent_chars]

/-- Spaces behind the name of a closing tag do not belong to it. -/
theorem readFrom_closing (t : StartTag) (names : List String) (gap : Gap) (rest : List Char) :
    readFrom (t.tag.name :: names)
        ('<' :: '/' :: (t.name.chars ++ gap.chars ++ '>' :: rest)) =
      (readFrom names rest).cons (.closing t.tag.name) := by
  have hbracket : '>' ∉ t.name.chars ++ gap.chars := by
    rw [List.mem_append]
    rintro (hname | hgap)
    · exact absurd (t.name.bare.chars '>' hname).2 (by simp)
    · exact absurd (gap.spaces '>' hgap) (by decide)
  have hclosing := closingName_append t.name.bare.nonempty
    (fun c hc => (t.name.bare.chars c hc).1) gap.spaces
  refine readFrom_cons (nextToken_closing hbracket rest) ?_
  rw [Event.ofToken, close, hclosing]
  exact if_pos rfl

end StartTag

/-- Whether a beginning of a text, in front of the rest, is read as events that stand for the given
elements and text. -/
def Holds (inside : Bool) (names : List String) (cs rest : List Char) (es : List Element)
    (own : Option String) : Prop :=
  ∃ events, readFrom names (cs ++ rest) = (readFrom names rest).prepend events ∧
    Content inside events es own

section Holds

variable {inside : Bool} {names : List String} {cs more rest : List Char} {es fs : List Element}
  {text own : Option String}

theorem Holds.nil : Holds inside names [] rest [] none :=
  ⟨[], rfl, .nil⟩

theorem Holds.append (h : Holds inside names cs (more ++ rest) es text)
    (hmore : Holds inside names more rest fs own) :
    Holds inside names (cs ++ more) rest (es ++ fs) (joinText text own) := by
  obtain ⟨events, hread, hcontent⟩ := h
  obtain ⟨later, hreadMore, hcontentMore⟩ := hmore
  refine ⟨events ++ later, ?_, hcontent.append hcontentMore⟩
  rw [List.append_assoc, hread, hreadMore, Reading.prepend_append]

/-- One event that leaves the same elements open. -/
theorem Holds.of_cons (event : Event)
    (hread : readFrom names (cs ++ rest) = (readFrom names rest).cons event)
    (hcontent : Content inside [event] es own) : Holds inside names cs rest es own :=
  ⟨[event], hread, hcontent⟩

/-- A text is read up to the next bracket. -/
theorem holds_spelling (s : Spelling '<') (hrest : ∀ c tail, rest = c :: tail → c = '<') :
    Holds inside names s.chars rest [] s.text? := by
  by_cases hempty : s.glyphs = []
  · rw [s.chars_eq_nil_iff.2 hempty, Spelling.text?, if_pos hempty]
    exact .nil
  · have hne : s.chars ≠ [] := fun h => hempty (s.chars_eq_nil_iff.1 h)
    rw [Spelling.text?, if_neg hempty]
    refine .of_cons _ (readFrom_text names hne (s.not_mem_chars (by simp)) hrest) ?_
    exact .text (fun _ => s.decodes) .nil

theorem between_append (opening closing : String) (raw rest : List Char) :
    between opening closing raw ++ rest = opening.toList ++ (raw ++ (closing.toList ++ rest)) := by
  rw [between, List.append_assoc, List.append_assoc]

theorem holds_cdata {raw : List Char} (h : ¬ "]]>".toList <:+: raw) :
    Holds inside names (between "<![CDATA[" "]]>" raw) rest [] (some (.ofList raw)) := by
  refine .of_cons _ ?_ (.cdata .nil)
  rw [between_append, readFrom_cdata names h]

theorem holds_comment {raw : List Char} (h : ¬ "--".toList <:+: raw) :
    Holds inside names (between "<!--" "-->" raw) rest [] none := by
  refine .of_cons (.comment (.ofList raw)) ?_ (.comment .nil)
  rw [between_append]
  exact readFrom_cons (nextToken_comment h rest) rfl

theorem holds_instruction {raw : List Char} (hne : raw ≠ []) (h : '>' ∉ raw) :
    Holds inside names (between "<?" "?>" raw) rest [] none := by
  refine .of_cons (.instruction (.ofList (raw ++ ['?']))) ?_ (.instruction .nil)
  rw [between_append]
  exact readFrom_cons (nextToken_instruction hne h rest) rfl

theorem holds_empty (tag : StartTag) :
    Holds inside names ('<' :: (tag.chars ++ ['/', '>'])) rest [tag.element [] none] none := by
  refine .of_cons _ ?_ (.selfClosing tag.decodes .nil)
  rw [List.cons_append, List.append_assoc]
  exact tag.readFrom_empty names rest

theorem holds_element (tag : StartTag) (gap : Gap) {within : List Char} {children : List Element}
    (h : Holds true (tag.tag.name :: names) within
      ('<' :: '/' :: (tag.name.chars ++ gap.chars ++ '>' :: rest)) children text) :
    Holds inside names
      ('<' :: (tag.chars ++ '>' :: (within ++ '<' :: '/' :: (tag.name.chars ++ gap.chars ++ ['>']))))
      rest [tag.element children text] none := by
  obtain ⟨events, hread, hcontent⟩ := h
  refine ⟨.opening tag.tag :: (events ++ [.closing tag.tag.name]), ?_,
    .element tag.decodes hcontent .nil⟩
  have hopening := tag.readFrom_opening names
    (within ++ '<' :: '/' :: (tag.name.chars ++ gap.chars ++ '>' :: rest))
  rw [hread, tag.readFrom_closing] at hopening
  simpa [Reading.prepend, Reading.cons] using hopening

end Holds

/-- Only a text begins without a bracket. -/
theorem Piece.chars_of_ne_text {piece : Piece} (h : ∀ s, piece ≠ .text s) :
    ∃ tail, piece.chars = '<' :: tail := by
  cases piece with
  | text s => exact absurd rfl (h s)
  | cdata raw _ =>
    rw [Piece.chars, between]
    exact ⟨_, rfl⟩
  | comment raw _ =>
    rw [Piece.chars, between]
    exact ⟨_, rfl⟩
  | instruction raw _ _ =>
    rw [Piece.chars, between]
    exact ⟨_, rfl⟩
  | empty tag =>
    rw [Piece.chars]
    exact ⟨_, rfl⟩
  | element tag content gap =>
    rw [Piece.chars]
    exact ⟨_, rfl⟩

mutual

/-- A piece other than a text is read as what it stands for. -/
theorem holds_piece (inside : Bool) (names : List String) (rest : List Char) :
    ∀ piece : Piece, (∀ s, piece ≠ .text s) →
      Holds inside names piece.chars rest piece.trees piece.text?
  | .text s, h => absurd rfl (h s)
  | .cdata _ h, _ => holds_cdata h
  | .comment _ h, _ => holds_comment h
  | .instruction _ hne h, _ => holds_instruction hne h
  | .empty tag, _ => holds_empty tag
  | .element tag content gap, _ => by
    rw [Piece.chars, Piece.trees]
    have hcontent := holds_pieces true (tag.tag.name :: names)
      ('<' :: '/' :: (tag.name.chars ++ gap.chars ++ '>' :: rest)) (by simp) content .empty
    exact holds_element tag gap hcontent

/-- Pieces behind a text that is still to be read are read, in front of a bracket or the end, as what
they stand for. -/
theorem holds_pieces (inside : Bool) (names : List String) (rest : List Char)
    (hrest : ∀ c tail, rest = c :: tail → c = '<') :
    ∀ (pieces : List Piece) (pending : Spelling '<'),
      Holds inside names (pending.chars ++ charsAll pieces) rest (treesAll pieces)
        (joinText pending.text? (textAll pieces))
  | [], pending => by
    rw [charsAll, List.append_nil, treesAll, textAll, joinText_none]
    exact holds_spelling pending hrest
  | piece :: pieces, pending => by
    rw [charsAll, treesAll, textAll]
    by_cases htext : ∃ s, piece = .text s
    -- neighbouring texts are read as one event, so a text only joins what is pending
    · obtain ⟨s, rfl⟩ := htext
      have hpieces := holds_pieces inside names rest hrest pieces (pending.append s)
      rw [Spelling.chars_append, Spelling.text?_append, List.append_assoc, joinText_assoc]
        at hpieces
      exact hpieces
    · rw [not_exists] at htext
      obtain ⟨tail, htail⟩ := Piece.chars_of_ne_text htext
      have hpiece := holds_piece inside names (charsAll pieces ++ rest) piece htext
      have hpieces : Holds inside names (charsAll pieces) rest (treesAll pieces) (textAll pieces) :=
        holds_pieces inside names rest hrest pieces .empty
      have hpending : Holds inside names pending.chars (piece.chars ++ charsAll pieces ++ rest) []
          pending.text? := by
        refine holds_spelling pending ?_
        rw [htail]
        rintro c more heq
        exact (List.cons.inj heq).1.symm
      exact hpending.append (hpiece.append hpieces)

end

/-- A byte order mark at the start is part of a text outside all elements, so that the document
without it stands for the same. -/
theorem exists_unmarked (pieces : List Piece) :
    ∃ unmarked, dropMark (charsAll pieces) = charsAll unmarked ∧
      treesAll unmarked = treesAll pieces := by
  have hsame {pieces : List Piece} {c : Char} {tail : List Char} (h : charsAll pieces = c :: tail)
      (hc : c ≠ '\uFEFF') : ∃ unmarked, dropMark (charsAll pieces) = charsAll unmarked ∧
        treesAll unmarked = treesAll pieces :=
    ⟨pieces, by rw [h, dropMark_of_ne hc], rfl⟩
  induction pieces with
  | nil => exact ⟨[], rfl, rfl⟩
  | cons piece pieces ih =>
    by_cases htext : ∃ s, piece = .text s
    · obtain ⟨⟨glyphs, hbare⟩, rfl⟩ := htext
      cases glyphs with
      | nil => exact ih
      | cons glyph glyphs =>
        cases glyph with
        | named entity => exact hsame rfl (by decide)
        | bare c =>
          by_cases hc : c = '\uFEFF'
          · have hrest : ∀ d, .bare d ∈ glyphs → d ≠ '&' ∧ d ≠ '<' := fun d hd =>
              hbare d (List.mem_cons_of_mem _ hd)
            exact ⟨.text ⟨glyphs, hrest⟩ :: pieces, if_pos hc, rfl⟩
          · exact hsame rfl hc
    · obtain ⟨tail, htail⟩ := Piece.chars_of_ne_text (not_exists.1 htext)
      have hchars : charsAll (piece :: pieces) = '<' :: (tail ++ charsAll pieces) := by
        rw [charsAll, htail]
        rfl
      exact hsame hchars (by decide)

/-- A document grows the trees that it stands for. -/
theorem forest_markup (pieces : List Piece) :
    (read (markup pieces)).forest = .ok (treesAll pieces) := by
  obtain ⟨unmarked, hchars, htrees⟩ := exists_unmarked pieces
  obtain ⟨events, hread, hcontent⟩ : Holds false [] (charsAll unmarked) [] (treesAll unmarked)
      (textAll unmarked) :=
    holds_pieces false [] [] (by simp) unmarked .empty
  rw [List.append_nil, readFrom_nil, Reading.prepend, List.append_nil] at hread
  have hrun := hcontent.run (g := {}) fun _ => rfl
  rw [Growth.absorb_of_nil rfl, htrees] at hrun
  rw [read, markup, String.toList_ofList, hchars, hread]
  exact forest_eq_ok_iff.2 ⟨rfl, hrun⟩

/-- A document is read as the first drawing among the elements that it stands for, parents before
children, and only a document without one is said to have none. -/
theorem parse_markup (pieces : List Piece) :
    (∀ e, Element.parse (markup pieces) = .ok e ↔ IsFirstDrawing (treesAll pieces) e) ∧
      (Element.parse (markup pieces) = .error .noRoot ↔
        ∀ e ∈ Element.preorderAll (treesAll pieces), isDrawing e = false) :=
  parse_of_forest (forest_markup pieces)

example : ∃ pieces,
    markup pieces =
        "<?xml version='1.0'?><svg\nid='\"&apos;'>&amp;<!--c--><![CDATA[]<]]></svg >" ∧
      treesAll pieces = [⟨"svg", [⟨"id", "\"'"⟩], [], some "&]<"⟩] := by
  refine ⟨[.instruction "xml version='1.0'".toList (by decide) (by decide),
    .element ⟨⟨['s', 'v', 'g'], ⟨by decide, by decide⟩, by simp [BeginsTag]⟩,
        [⟨⟨['\n'], by decide⟩, by decide, ⟨['i', 'd'], ⟨by decide, by decide⟩, by simp [BeginsTag]⟩,
          .single, ⟨[.bare '"', .named .apos], by simp [Quote.char]⟩⟩], by decide, ⟨[], by simp⟩⟩
      [.text ⟨[.named .amp], by simp⟩, .comment "c".toList (by decide),
        .cdata "]<".toList (by decide)] ⟨[' '], by decide⟩], ?_, rfl⟩
  decide +kernel

end Pictogram.Markup.Document
