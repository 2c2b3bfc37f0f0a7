import Mathlib.Data.List.Induction
import Mathlib.Data.List.TakeWhile
import Pictogram.Markup.Token
import Pictogram.Proofs.Text.Span

/-!
Which texts are read as which token, and what every token that was read is like. The two agree: a
token that was read is read again wherever its text stands.
-/

namespace Pictogram.Markup

/-- Whether the content of a tag ends where it is closed: every quote in it is closed and every
closing bracket in it is quoted. -/
def Delimited (content : List Char) : Prop :=
  content.foldl quoteAfter none = none ∧
    ∀ before after, content = before ++ '>' :: after → before.foldl quoteAfter none ≠ none

/-- Whether a text cannot be taken for a closing tag, a declaration or an instruction when it
follows an opening bracket. -/
def BeginsTag (cs : List Char) : Prop :=
  ∀ c tail, cs = c :: tail → c ≠ '!' ∧ c ≠ '/' ∧ c ≠ '?'

/-- The content of a tag that opens an element, as one is read. -/
structure OpeningContent (content : List Char) : Prop where
  delimited : Delimited content
  begins : BeginsTag content
  last : content.getLast? ≠ some '/'

/-- The content of a tag that stands for a whole element, as one is read. -/
structure ClosedContent (content : List Char) : Prop where
  delimited : Delimited content
  begins : BeginsTag content
  nonempty : content ≠ []

/-- What is true of every token that is read. -/
def Token.Sound : Token → Prop
  | text raw => raw ≠ [] ∧ '<' ∉ raw
  | opening content => OpeningContent content
  | selfClosing content => ClosedContent content
  | closing content => '>' ∉ content
  | cdata raw => ¬ "]]>".toList <:+: raw
  | _ => True

theorem BeginsTag.append {cs more : List Char} (h : BeginsTag cs) (hmore : cs = [] → BeginsTag more) :
    BeginsTag (cs ++ more) := by
  intro c tail heq
  cases cs with
  | nil => exact hmore rfl c tail heq
  | cons d cs =>
    obtain ⟨rfl, -⟩ := List.cons.inj heq
    exact h d cs rfl

theorem splitTag_eq_some_iff {open? : Option Char} {cs content rest : List Char} :
    splitTag open? cs = some (content, rest) ↔
      cs = content ++ '>' :: rest ∧ content.foldl quoteAfter open? = none ∧
        ∀ before after, content = before ++ '>' :: after → before.foldl quoteAfter open? ≠ none := by
  induction cs generalizing open? content with
  | nil => simp [splitTag]
  | cons c cs ih =>
    rw [splitTag]
    by_cases hstop : c = '>' ∧ open? = none
    · obtain ⟨rfl, rfl⟩ := hstop
      simp only [decide_true, Option.isNone_none, Bool.and_self, if_true]
      constructor
      · intro h
        obtain ⟨rfl, rfl⟩ := Prod.mk.inj (Option.some.inj h)
        simp
      · rintro ⟨heq, -, hquoted⟩
        cases content with
        | nil => simpa using heq
        | cons d content =>
          obtain ⟨rfl, -⟩ := List.cons.inj heq
          exact absurd rfl (hquoted [] content rfl)
    · have hgo : (decide (c = '>') && open?.isNone) = false := by
        cases open? <;> simp_all
      simp only [hgo, Bool.false_eq_true, if_false, Option.map_eq_some_iff]
      constructor
      · rintro ⟨⟨inner, r⟩, hr, he⟩
        obtain ⟨rfl, rfl⟩ := Prod.mk.inj he
        obtain ⟨rfl, hclosed, hquoted⟩ := ih.1 hr
        refine ⟨rfl, hclosed, ?_⟩
        intro before after heq
        cases before with
        | nil =>
          obtain ⟨rfl, -⟩ := List.cons.inj heq
          intro hopen
          exact hstop ⟨rfl, hopen⟩
        | cons d before =>
          obtain ⟨rfl, htail⟩ := List.cons.inj heq
          exact hquoted before after htail
      · rintro ⟨heq, hclosed, hquoted⟩
        cases content with
        | nil =>
          obtain ⟨rfl, -⟩ := List.cons.inj heq
          exact absurd ⟨rfl, hclosed⟩ hstop
        | cons d inner =>
          obtain ⟨rfl, htail⟩ := List.cons.inj heq
          refine ⟨(inner, rest), ih.2 ⟨htail, hclosed, ?_⟩, rfl⟩
          intro before after hin
          exact hquoted (c :: before) after (by rw [hin, List.cons_append])

theorem splitTag_delimited {content : List Char} (h : Delimited content) (rest : List Char) :
    splitTag none (content ++ '>' :: rest) = some (content, rest) :=
  splitTag_eq_some_iff.2 ⟨rfl, h⟩

theorem isQuote_of_open {content : List Char} {quote : Char}
    (h : content.foldl quoteAfter none = some quote) : quote = '"' ∨ quote = '\'' := by
  induction content using List.reverseRecOn generalizing quote with
  | nil => cases h
  | append_singleton content c ih =>
    rw [List.foldl_append, List.foldl_cons, List.foldl_nil] at h
    cases hopen : content.foldl quoteAfter none with
    | none =>
      simp only [hopen, quoteAfter] at h
      split at h
      next hc =>
        obtain rfl := Option.some.inj h
        simpa using hc
      next => cases h
    | some quote' =>
      simp only [hopen, quoteAfter] at h
      split at h
      · cases h
      · obtain rfl := Option.some.inj h
        exact ih hopen

/-- Characters that are neither quotes nor closing brackets leave it open whether a content ends
where it is closed. -/
theorem delimited_append {content more : List Char}
    (hmore : ∀ c ∈ more, c ≠ '"' ∧ c ≠ '\'' ∧ c ≠ '>') :
    Delimited (content ++ more) ↔ Delimited content := by
  have hsame : (content ++ more).foldl quoteAfter none = content.foldl quoteAfter none := by
    induction more using List.reverseRecOn with
    | nil => rw [List.append_nil]
    | append_singleton more c ih =>
      have hprefix := ih fun d hd => hmore d (by simp [hd])
      obtain ⟨hdouble, hsingle, -⟩ := hmore c (by simp)
      rw [← List.append_assoc, List.foldl_append, List.foldl_cons, List.foldl_nil, hprefix]
      cases hopen : content.foldl quoteAfter none with
      | none => simp [quoteAfter, hdouble, hsingle]
      | some quote =>
        have hquote := isQuote_of_open hopen
        have hne : c ≠ quote := by
          rintro rfl
          rcases hquote with h | h
          · exact hdouble h
          · exact hsingle h
        simp [quoteAfter, hne]
  constructor
  · rintro ⟨hclosed, hquoted⟩
    refine ⟨hsame ▸ hclosed, ?_⟩
    intro before after heq
    exact hquoted before (after ++ more) (by rw [heq, List.append_assoc, List.cons_append])
  · rintro ⟨hclosed, hquoted⟩
    refine ⟨hsame.trans hclosed, ?_⟩
    intro before after heq
    rcases append_eq_append_cons heq with ⟨rest, hcontent, -⟩ | ⟨front, -, hfront⟩
    · exact hquoted before rest hcontent
    · have hmem : '>' ∈ more := by simp [hfront]
      exact absurd rfl (hmore '>' hmem).2.2

/-- Contents that are closed one by one are closed together. -/
theorem Delimited.append {content more : List Char} (h : Delimited content) (hmore : Delimited more) :
    Delimited (content ++ more) := by
  obtain ⟨hclosed, hquoted⟩ := h
  refine ⟨by rw [List.foldl_append, hclosed, hmore.1], ?_⟩
  intro before after heq
  rcases append_eq_append_cons heq with ⟨rest, hcontent, -⟩ | ⟨front, rfl, hfront⟩
  · exact hquoted before rest hcontent
  · rw [List.foldl_append, hclosed]
    exact hmore.2 front after hfront

theorem foldl_quoteAfter_of_not_mem {quote : Char} {raw : List Char} (h : quote ∉ raw) :
    raw.foldl quoteAfter (some quote) = some quote := by
  induction raw with
  | nil => rfl
  | cons c raw ih =>
    rw [List.mem_cons, not_or] at h
    rw [List.foldl_cons, quoteAfter, if_neg (Ne.symm h.1), ih h.2]

/-- Between quotes closing brackets do not matter. -/
theorem delimited_quoted {quote : Char} {raw : List Char} (hquote : quote = '"' ∨ quote = '\'')
    (h : quote ∉ raw) : Delimited (quote :: raw ++ [quote]) := by
  have hopen : quoteAfter none quote = some quote := by
    rcases hquote with rfl | rfl <;> rfl
  have hbracket : quote ≠ '>' := by
    rcases hquote with rfl | rfl <;> decide
  refine ⟨?_, ?_⟩
  · have hwhole : (quote :: raw).foldl quoteAfter none = some quote := by
      rw [List.foldl_cons, hopen, foldl_quoteAfter_of_not_mem h]
    rw [List.foldl_append, hwhole]
    simp [quoteAfter]
  · intro before after heq
    cases before with
    | nil => exact absurd (List.cons.inj heq).1 hbracket
    | cons d before =>
      obtain ⟨rfl, htail⟩ := List.cons.inj heq
      have hbefore : quote ∉ before := by
        rcases append_eq_append_cons (show raw ++ [quote] = before ++ '>' :: after from htail)
          with ⟨rest, rfl, -⟩ | ⟨front, -, hfront⟩
        · exact fun hmem => h (List.mem_append_left _ hmem)
        · have hmem : '>' ∈ [quote] := by simp [hfront]
          exact absurd (List.mem_singleton.1 hmem).symm hbracket
      rw [List.foldl_cons, hopen, foldl_quoteAfter_of_not_mem hbefore]
      simp

/-- A content without closing brackets is read whole if its quotes are closed. -/
theorem delimited_of_closed {content : List Char} (hclosed : content.foldl quoteAfter none = none)
    (hcontent : '>' ∉ content) : Delimited content := by
  refine ⟨hclosed, ?_⟩
  rintro before after rfl
  exact absurd (by simp) hcontent

theorem nextToken_bracket (c : Char) (cs : List Char) :
    nextToken ('<' :: c :: cs) = (readBracket c cs).map some := by
  simp [nextToken]

theorem nextToken_text {raw rest : List Char} (hne : raw ≠ []) (hraw : '<' ∉ raw)
    (hrest : ∀ c tail, rest = c :: tail → c = '<') :
    nextToken (raw ++ rest) = .ok (some (.text raw, rest)) := by
  cases raw with
  | nil => exact absurd rfl hne
  | cons c raw =>
    rw [List.mem_cons, not_or] at hraw
    have hrun := Text.run_of_not_mem hraw.2
    have hstop : ∀ d tail, rest = d :: tail → (d != '<') = false := by
      intro d tail heq
      simp [hrest d tail heq]
    simp only [List.cons_append, nextToken]
    rw [if_neg (Ne.symm hraw.1), Text.takeWhile_append_of_stop hrun hstop,
      Text.dropWhile_append_of_stop hrun hstop]

theorem splitBracket_append {content : List Char} (h : '>' ∉ content) (rest : List Char) :
    splitBracket (content ++ '>' :: rest) = (content, rest) := by
  have hrun := Text.run_of_not_mem h
  rw [splitBracket, Text.takeWhile_run hrun (by simp), Text.dropWhile_run hrun (by simp)]
  rfl

theorem nextToken_closing {content : List Char} (h : '>' ∉ content) (rest : List Char) :
    nextToken ('<' :: '/' :: (content ++ '>' :: rest)) = .ok (some (.closing content, rest)) := by
  rw [nextToken_bracket, readBracket, if_neg (by decide), if_pos rfl, splitBracket_append h]
  rfl

theorem nextToken_cdata {raw : List Char} (h : ¬ "]]>".toList <:+: raw) (rest : List Char) :
    nextToken ("<![CDATA[".toList ++ (raw ++ ("]]>".toList ++ rest))) =
      .ok (some (.cdata raw, rest)) := by
  have hsplit : Text.splitAround? "]]>".toList (raw ++ ("]]>".toList ++ rest)) = some (raw, rest) := by
    apply Text.splitAround?_of_first
    rintro before after rfl hne ⟨more, heq⟩
    have hend : "]]>".toList = [']', ']', '>'] := rfl
    rw [hend] at heq h
    -- an occurrence that begins inside the raw text would have to end inside it
    match after, hne, heq with
    | [a], _, heq => simp at heq
    | [a, b], _, heq => simp at heq
    | a :: b :: c :: tail, _, heq =>
      simp only [List.cons_append, List.cons.injEq] at heq
      obtain ⟨rfl, rfl, rfl, -⟩ := heq
      exact h ⟨before, tail, by simp⟩
  have hletters : ∀ cs, dropLetters? "CDATA[".toList ("CDATA[".toList ++ cs) = some cs := by
    intro cs
    rfl
  have hopen : "<![CDATA[".toList ++ (raw ++ ("]]>".toList ++ rest)) =
      '<' :: '!' :: '[' :: ("CDATA[".toList ++ (raw ++ ("]]>".toList ++ rest))) := rfl
  rw [hopen, nextToken_bracket, readBracket, if_pos rfl, readDeclaration]
  simp only [if_true, hletters, Option.bind_some, hsplit]
  rfl

theorem nextToken_comment {raw : List Char} (h : ¬ "--".toList <:+: raw) (rest : List Char) :
    nextToken ("<!--".toList ++ (raw ++ ("-->".toList ++ rest))) =
      .ok (some (.comment raw, rest)) := by
  have hsplit : Text.splitAround? "-->".toList (raw ++ ("-->".toList ++ rest)) = some (raw, rest) := by
    apply Text.splitAround?_of_first
    rintro before after rfl hne ⟨more, heq⟩
    have hend : "-->".toList = ['-', '-', '>'] := rfl
    have hdashes : "--".toList = ['-', '-'] := rfl
    rw [hend] at heq
    rw [hdashes] at h
    -- the first two characters of an earlier occurrence would both be in the comment
    match after, hne, heq with
    | [a], _, heq => simp at heq
    | a :: b :: tail, _, heq =>
      simp only [List.cons_append, List.cons.injEq] at heq
      obtain ⟨rfl, rfl, -⟩ := heq
      exact h ⟨before, tail, by simp⟩
  have hopen : "<!--".toList ++ (raw ++ ("-->".toList ++ rest)) =
      '<' :: '!' :: '-' :: (['-'] ++ (raw ++ ("-->".toList ++ rest))) := rfl
  rw [hopen, nextToken_bracket, readBracket, if_pos rfl, readDeclaration]
  simp only [if_true, Text.dropLiteral?_append, Option.bind_some, hsplit]
  rfl

theorem nextToken_instruction {raw : List Char} (hne : raw ≠ []) (h : '>' ∉ raw)
    (rest : List Char) :
    nextToken ('<' :: '?' :: (raw ++ '?' :: '>' :: rest)) =
      .ok (some (.instruction (raw ++ ['?']), rest)) := by
  have hlong : 1 ≤ raw.length := List.length_pos_iff.2 hne
  have hsplit : splitBracket (raw ++ '?' :: '>' :: rest) = (raw ++ ['?'], rest) := by
    have hbracket : '>' ∉ raw ++ ['?'] := by simp [h]
    have hread := splitBracket_append hbracket rest
    rwa [List.append_assoc] at hread
  rw [nextToken_bracket, readBracket, if_neg (by decide), if_neg (by decide), if_pos rfl,
    readInstruction, hsplit]
  simp [hlong, Except.map]

theorem readBracket_of_beginsTag {cs : List Char} {c : Char} (h : BeginsTag (c :: cs)) :
    readBracket c cs = readTag (c :: cs) := by
  obtain ⟨hbang, hslash, hquestion⟩ := h c cs rfl
  rw [readBracket, if_neg hbang, if_neg hslash, if_neg hquestion]

theorem nextToken_opening {content : List Char} (h : OpeningContent content) (rest : List Char) :
    nextToken ('<' :: (content ++ '>' :: rest)) = .ok (some (.opening content, rest)) := by
  have htag : readTag (content ++ '>' :: rest) = .ok (.opening content, rest) := by
    rw [readTag, splitTag_delimited h.delimited]
    simp only [if_neg h.last]
  cases content with
  | nil =>
    rw [List.nil_append] at htag ⊢
    rw [nextToken_bracket, readBracket_of_beginsTag (by simp [BeginsTag]), htag]
    rfl
  | cons c content =>
    rw [List.cons_append] at htag ⊢
    have hbegins : BeginsTag (c :: (content ++ '>' :: rest)) := by
      intro d tail heq
      obtain ⟨rfl, -⟩ := List.cons.inj heq
      exact h.begins c content rfl
    rw [nextToken_bracket, readBracket_of_beginsTag hbegins, htag]
    rfl

theorem nextToken_selfClosing {content : List Char} (h : ClosedContent content)
    (rest : List Char) :
    nextToken ('<' :: (content ++ '/' :: '>' :: rest)) = .ok (some (.selfClosing content, rest)) := by
  have hslash : Delimited (content ++ ['/']) :=
    (delimited_append (by simp)).2 h.delimited
  have htag : readTag (content ++ '/' :: '>' :: rest) = .ok (.selfClosing content, rest) := by
    have heq : content ++ '/' :: '>' :: rest = (content ++ ['/']) ++ '>' :: rest := by simp
    rw [heq, readTag, splitTag_delimited hslash]
    simp
  cases content with
  | nil => exact absurd rfl h.nonempty
  | cons c content =>
    rw [List.cons_append] at htag ⊢
    have hbegins : BeginsTag (c :: (content ++ '/' :: '>' :: rest)) := by
      intro d tail heq
      obtain ⟨rfl, -⟩ := List.cons.inj heq
      exact h.begins c content rfl
    rw [nextToken_bracket, readBracket_of_beginsTag hbegins, htag]
    rfl

/-- Every reader hands on the kinds of token that it promises. -/
theorem sound_of_readTag {cs rest : List Char} {token : Token} (hbegins : BeginsTag cs)
    (h : readTag cs = .ok (token, rest)) : token.Sound := by
  rw [readTag] at h
  split at h
  · cases h
  next content r hsplit =>
    obtain ⟨rfl, hdelimited⟩ := splitTag_eq_some_iff.1 hsplit
    have hcontent : BeginsTag content := by
      rintro c tail rfl
      exact hbegins c _ rfl
    split at h
    next hlast =>
      obtain ⟨rfl, -⟩ := Prod.mk.inj (Except.ok.inj h)
      obtain ⟨inner, rfl⟩ := List.getLast?_eq_some_iff.1 hlast
      rw [List.dropLast_concat]
      refine ⟨(delimited_append (by simp)).1 hdelimited, ?_, ?_⟩
      · rintro c tail rfl
        exact hcontent c _ rfl
      · rintro rfl
        exact (hcontent '/' [] rfl).2.1 rfl
    next hlast =>
      obtain ⟨rfl, -⟩ := Prod.mk.inj (Except.ok.inj h)
      exact ⟨hdelimited, hcontent, hlast⟩

theorem sound_of_readDeclaration {cs rest : List Char} {token : Token}
    (h : readDeclaration cs = .ok (token, rest)) : token.Sound := by
  cases cs with
  | nil => cases h
  | cons c tail =>
    simp only [readDeclaration] at h
    split at h
    · split at h
      next raw r hr =>
        obtain ⟨rfl, -⟩ := Prod.mk.inj (Except.ok.inj h)
        obtain ⟨middle, -, hs⟩ := Option.bind_eq_some_iff.1 hr
        rintro ⟨before, after, heq⟩
        have hfirst := Text.first_of_splitAround? hs before ("]]>".toList ++ after)
          (by rw [← heq, List.append_assoc]) (by simp)
        exact hfirst ⟨after ++ ("]]>".toList ++ r), by rw [List.append_assoc]⟩
      next => cases h
    · split at h
      · split at h
        · obtain ⟨rfl, -⟩ := Prod.mk.inj (Except.ok.inj h)
          trivial
        · cases h
      · split at h
        · split at h
          · split at h
            · cases h
            · obtain ⟨rfl, -⟩ := Prod.mk.inj (Except.ok.inj h)
              trivial
          · cases h
        · cases h

/-- Every token that is read is read from a text of its kind. -/
theorem sound_of_nextToken {cs rest : List Char} {token : Token}
    (h : nextToken cs = .ok (some (token, rest))) : token.Sound := by
  cases cs with
  | nil => cases h
  | cons c tail =>
    by_cases hc : c = '<'
    · subst c
      cases tail with
      | nil => cases h
      | cons d tail =>
        rw [nextToken_bracket] at h
        cases hr : readBracket d tail with
        | error e =>
          rw [hr] at h
          cases h
        | ok result =>
          rw [hr] at h
          obtain rfl := Option.some.inj (Except.ok.inj h)
          rw [readBracket] at hr
          split at hr
          · exact sound_of_readDeclaration hr
          next hbang =>
            split at hr
            · obtain ⟨rfl, -⟩ := Prod.mk.inj (Except.ok.inj hr)
              intro hmem
              simpa using List.mem_takeWhile_imp hmem
            next hslash =>
              split at hr
              · simp only [readInstruction] at hr
                split at hr
                · obtain ⟨rfl, -⟩ := Prod.mk.inj (Except.ok.inj hr)
                  trivial
                · cases hr
              next hquestion =>
                refine sound_of_readTag ?_ hr
                intro e more heq
                obtain ⟨rfl, -⟩ := List.cons.inj heq
                exact ⟨hbang, hslash, hquestion⟩
    · simp only [nextToken, if_neg hc] at h
      obtain ⟨rfl, -⟩ := Prod.mk.inj (Option.some.inj (Except.ok.inj h))
      refine ⟨by simp, ?_⟩
      rw [List.mem_cons, not_or]
      refine ⟨Ne.symm hc, fun hmem => ?_⟩
      simpa using List.mem_takeWhile_imp hmem

end Pictogram.Markup
