import Pictogram.Proofs.Component.Deriving
import Pictogram.Proofs.Component.Rejecting

/-!
What harm an attribute or a text can do. A pass that takes the end of a value for an attribute goes
on to the next quote, through the tags in between; one that finds an attribute in a text leaves an
expression there. No later pass makes up for either.
-/

namespace Pictogram

open Templating Text

section Escaped

variable {name value text : String} (hname : IsPlain name)
include hname

/-- The end of a value is not escaped. -/
theorem EndsIn.escaped (h : EndsIn name value) :
    ∃ front c, isBlank c ∧ value.toList.flatMap PrintedAttribute.escapeChar =
      front ++ c :: (name.toList ++ ['=']) := by
  obtain ⟨front, c, hc, hvalue⟩ := h
  have hself : ∀ d ∈ c :: (name.toList ++ ['=']), PrintedAttribute.escapeChar d = [d] := by
    refine List.forall_mem_cons.2 ⟨?_, List.forall_mem_append.2 ⟨?_, by decide⟩⟩
    · refine escapeChar_self ?_ ?_ <;> rintro rfl <;> cases hc
    · intro d hd
      exact escapeChar_self (ne_of_isNameChar (hname.2 d hd) (by decide))
        (ne_of_isNameChar (hname.2 d hd) (by decide))
  refine ⟨front.flatMap PrintedAttribute.escapeChar, c, hc, ?_⟩
  rw [hvalue, List.flatMap_append, escape_self hself]

/-- The beginning of an attribute in a text is not escaped. -/
theorem Mentions.escaped (h : Mentions name text) :
    ∃ front c back, isBlank c ∧ text.toList.flatMap escapeTextChar =
      front ++ c :: (name.toList ++ '=' :: '"' :: back) := by
  obtain ⟨front, c, back, hc, htext⟩ := h
  have hself : ∀ d ∈ c :: (name.toList ++ ['=', '"']), escapeTextChar d = [d] := by
    refine List.forall_mem_cons.2 ⟨?_, List.forall_mem_append.2 ⟨?_, by decide⟩⟩
    · apply escapeTextChar_self
      simp only [List.mem_cons, List.not_mem_nil, or_false, not_or]
      refine ⟨?_, ?_, ?_, ?_, ?_⟩ <;> rintro rfl <;> cases hc
    · intro d hd
      apply escapeTextChar_self
      simp only [List.mem_cons, List.not_mem_nil, or_false, not_or]
      refine ⟨?_, ?_, ?_, ?_, ?_⟩ <;> exact ne_of_isNameChar (hname.2 d hd) (by decide)
  refine ⟨front.flatMap escapeTextChar, c, back.flatMap escapeTextChar, hc, ?_⟩
  rw [htext, List.flatMap_append, show c :: (name.toList ++ '=' :: '"' :: back) =
    c :: (name.toList ++ ['=', '"']) ++ back by simp, List.flatMap_append, escape_self hself]
  simp

end Escaped

theorem plain_svg : IsPlain "svg" := by decide

theorem plain_path : IsPlain "path" := by decide

theorem plain_text : IsPlain "text" := by decide

section Values

/-- The beginning of a drawing, up to its attributes. -/
def drawingStart : List Char :=
  lead 1 ++ '<' :: "svg".toList

/-- The tag that closes a drawing. -/
def drawingEnd : List Char :=
  lead 1 ++ '<' :: '/' :: "svg".toList ++ ['>']

/-- An attribute with a quoted text. -/
def quotedChars (key : String) (raw : List Char) : List Char :=
  ' ' :: key.toList ++ '=' :: '"' :: raw ++ ['"']

/-- A drawing and a path in it, both with the same attribute. -/
def doubled (key : String) (raw : List Char) : List Char :=
  drawingStart ++ quotedChars key raw ++ ['>'] ++ (lead 2 ++ '<' :: "path".toList) ++
    quotedChars key raw ++ [' ', '/', '>'] ++ drawingEnd

/-- Whether a text is a drawing without content with the end of a drawing behind it. -/
def Merged (props : List String) (key : String) (cs : List Char) : Prop :=
  ∃ value, DerivesValue props value ∧
    cs = drawingStart ++ (' ' :: key.toList ++ value ++ ([' ', '/', '>'] ++ drawingEnd))

variable {props : List String} {key : String} {u : Usage} {cs : List Char}

theorem passed_opening {name tag : String} (hname : IsPlain name) (htag : IsPlain tag) (depth : Nat)
    (rest : List Char) : Passed name.toList (lead depth ++ '<' :: tag.toList) rest := by
  have hbracket : Passed name.toList ('<' :: tag.toList) rest :=
    passed_of_not_blank (List.forall_mem_cons.2 ⟨by decide, htag.neat.not_blank⟩) rest
  exact (passed_lead hname depth (tag.toList ++ rest)).append hbracket

theorem passed_drawingEnd {name : String} (hname : IsPlain name) :
    Passed name.toList drawingEnd [] := by
  have hlead : Passed name.toList (lead 1) ('<' :: '/' :: "svg".toList ++ ['>'] ++ []) :=
    passed_lead hname 1 _
  exact hlead.append (passed_of_not_blank (by decide) [])

/-- A pass finds nothing in front of its match. -/
theorem passed_before {name : String} (hname : IsPlain name) {front : List Char}
    (hfront : '"' ∉ front) (c : Char) (hc : c ≠ '"') (rest : List Char) :
    Passed name.toList front (c :: (name.toList ++ '=' :: '"' :: rest)) := by
  rintro before d after rfl hd hprefix
  have hquote : '"' ∉ after ++ c :: (name.toList ++ ['=']) := by
    simp only [List.mem_append, List.mem_cons, not_or] at hfront ⊢
    exact ⟨hfront.2.2, Ne.symm hc, hname.neat.quote_not_mem, by decide, by simp⟩
  rw [show after ++ c :: (name.toList ++ '=' :: '"' :: rest) =
    (after ++ c :: (name.toList ++ ['='])) ++ '"' :: rest by simp] at hprefix
  have hsame := (prefix_quote_iff hname.neat.quote_not_mem hquote).1 hprefix
  have hlength := congrArg List.length hsame
  simp at hlength
  omega

theorem count_le_one {front back : List Char} (hfront : '"' ∉ front) (hback : '"' ∉ back) :
    (front ++ '"' :: back).count '"' ≤ 1 := by
  rw [List.count_append, List.count_cons_self, List.count_eq_zero.2 hfront,
    List.count_eq_zero.2 hback]

theorem quote_not_mem_end : '"' ∉ [' ', '/', '>'] ++ drawingEnd := by decide

/-- Without a quote there is nothing to replace. -/
theorem replace_unquotedDrawing (hkey : IsPlain key) {value : List Char} (hvalue : '"' ∉ value) :
    replaceBehindBlanks u.target.toList u.reference.toList
        (drawingStart ++ (' ' :: key.toList ++ value ++ ([' ', '/', '>'] ++ drawingEnd))) =
      drawingStart ++ (' ' :: key.toList ++ value ++ ([' ', '/', '>'] ++ drawingEnd)) := by
  have hname : '"' ∉ ' ' :: key.toList := by simp [hkey.neat.quote_not_mem]
  have hstart : '"' ∉ drawingStart := by decide
  have hnone := List.not_mem_append hstart
    (List.not_mem_append (List.not_mem_append hname hvalue) quote_not_mem_end)
  apply replaceBehindBlanks_of_count
  rw [List.count_eq_zero.2 hnone]
  exact Nat.zero_le 1

/-- A pass over a drawing without content leaves it one. -/
theorem Merged.replace (hprops : ∀ p ∈ props, IsPlain p) (hu : u.Plain)
    (hrefer : u.RefersTo props) (hkey : IsPlain key) (h : Merged props key cs) :
    Merged props key (replaceBehindBlanks u.target.toList u.reference.toList cs) := by
  obtain ⟨value, hvalue, rfl⟩ := h
  cases hvalue with
  | bare =>
    rw [replace_unquotedDrawing hkey (by simp)]
    exact ⟨_, .bare, rfl⟩
  | @reference p hp =>
    rw [replace_unquotedDrawing hkey (by simp [(hprops p hp).neat.quote_not_mem])]
    exact ⟨_, .reference hp, rfl⟩
  | @quoted raw hraw =>
    by_cases hname : u.target = key
    · obtain ⟨p, hp, hreference⟩ := hrefer
      have htail : replaceBehindBlanks u.target.toList u.reference.toList
          ([' ', '/', '>'] ++ drawingEnd) = [' ', '/', '>'] ++ drawingEnd :=
        replaceBehindBlanks_of_count
          (by rw [List.count_eq_zero.2 quote_not_mem_end]; exact Nat.zero_le 1)
      have hreplaced := replaceBehindBlanks_value u.target.toList u.reference.toList
        (show isBlank ' ' from rfl) hraw ([' ', '/', '>'] ++ drawingEnd)
      have hstart := replaceBehindBlanks_of_passed u.reference.toList
        (passed_opening hu.target plain_svg 1
          (' ' :: (u.target.toList ++ '=' :: '"' :: (raw ++ '"' :: ([' ', '/', '>'] ++ drawingEnd)))))
      rw [hreplaced, htail] at hstart
      refine ⟨'=' :: '\x7b' :: p.toList ++ ['\x7d'], .reference hp, ?_⟩
      rw [← hname]
      rw [hreference] at hstart ⊢
      simpa [drawingStart] using hstart
    · have hstart := replaceBehindBlanks_of_passed u.reference.toList
        ((passed_opening hu.target plain_svg 1
          (' ' :: key.toList ++ ['=', '"'] ++ (raw ++ '"' :: ([' ', '/', '>'] ++ drawingEnd)))).append
          (passed_key hu.target hkey.neat hname (raw ++ '"' :: ([' ', '/', '>'] ++ drawingEnd))))
      rw [replaceBehindBlanks_of_count (count_le_one hraw quote_not_mem_end)] at hstart
      refine ⟨_, .quoted hraw, ?_⟩
      simpa [drawingStart] using hstart

/-- A pass that takes the end of the value for its attribute goes through the tags. -/
theorem merged_of_endsIn (hu : u.Plain) (hkey : IsPlain key) (hname : u.target ≠ key)
    {front : List Char} {c : Char} (hc : isBlank c) (hfront : '"' ∉ front) :
    Merged props key (replaceBehindBlanks u.target.toList u.reference.toList
      (doubled key (front ++ c :: (u.target.toList ++ ['='])))) := by
  have hcQuote : c ≠ '"' := by
    rintro rfl
    cases hc
  have htarget := hu.target.neat.quote_not_mem
  have hraw : '"' ∉ front ++ c :: (u.target.toList ++ ['=']) := by
    simp [hfront, htarget, Ne.symm hcQuote]
  -- The next quote is the one in front of the value of the path.
  have hnext : '"' ∉ ['>'] ++ (lead 2 ++ '<' :: "path".toList) ++ (' ' :: key.toList ++ ['=']) := by
    have hlead : '"' ∉ ['>'] ++ (lead 2 ++ '<' :: "path".toList) := by decide
    exact List.not_mem_append hlead (by simp [hkey.neat.quote_not_mem])
  have hmatch := replaceBehindBlanks_value u.target.toList u.reference.toList hc hnext
    (front ++ c :: (u.target.toList ++ ['=']) ++ '"' :: ([' ', '/', '>'] ++ drawingEnd))
  rw [replaceBehindBlanks_of_count (count_le_one hraw quote_not_mem_end)] at hmatch
  have hpassed := ((passed_opening hu.target plain_svg 1 _).append
    (passed_key hu.target hkey.neat hname _)).append
      (passed_before hu.target hfront c hcQuote (['>'] ++ (lead 2 ++ '<' :: "path".toList) ++
        (' ' :: key.toList ++ ['=']) ++ '"' :: (front ++ c :: (u.target.toList ++ ['=']) ++
          '"' :: ([' ', '/', '>'] ++ drawingEnd))))
  have hreplaced := replaceBehindBlanks_of_passed u.reference.toList hpassed
  rw [hmatch] at hreplaced
  have hmerged : '"' ∉ front ++ c :: (u.target.toList ++ '=' :: u.reference.toList) ++
      (front ++ c :: (u.target.toList ++ ['='])) := by
    refine List.not_mem_append ?_ hraw
    simp [hfront, htarget, Ne.symm hcQuote, hu.reference.quote_not_mem]
  refine ⟨_, .quoted hmerged, ?_⟩
  simpa [doubled, quotedChars, drawingStart] using hreplaced

/-- A pass that does not takes nothing. -/
theorem replace_doubled (hu : u.Plain) (hkey : IsPlain key) (hname : u.target ≠ key)
    {value : String} (hvalue : ¬ EndsIn u.target value) :
    replaceBehindBlanks u.target.toList u.reference.toList
      (doubled key (value.toList.flatMap PrintedAttribute.escapeChar)) =
        doubled key (value.toList.flatMap PrintedAttribute.escapeChar) := by
  have hother := passed_other hu.target hkey.neat hname hvalue
  have hpassed : Passed u.target.toList
      (doubled key (value.toList.flatMap PrintedAttribute.escapeChar)) [] := by
    have hsvg := passed_opening hu.target plain_svg 1
    have hpath := passed_opening hu.target plain_path 2
    exact ((((((hsvg _).append (hother _)).append (passed_bracket _ _)).append (hpath _)).append
      (hother _)).append (passed_close hu.target _)).append (passed_drawingEnd hu.target)
  have hreplaced := replaceBehindBlanks_of_passed u.reference.toList hpassed
  rwa [List.append_nil, replaceBehindBlanks_nil, List.append_nil] at hreplaced

/-- Once a pass has mistaken the end of the value, the drawing stays without content. -/
theorem merged_passes (hprops : ∀ p ∈ props, IsPlain p) {usages : List Usage}
    (husages : ∀ u ∈ usages, u.Plain) (hrefer : ∀ u ∈ usages, u.RefersTo props) (hkey : IsPlain key)
    {done todo : List Usage} (heq : usages = done ++ u :: todo) {value : String}
    (hends : EndsIn u.target value) (hfresh : ∀ v ∈ done ++ [u], v.target ≠ key) :
    Merged props key
      (passes usages (doubled key (value.toList.flatMap PrintedAttribute.escapeChar))) := by
  subst heq
  have hraw := not_mem_escape quote_not_mem_escapeChar value.toList
  have hmistake : ∀ v ∈ done ++ [u], EndsIn v.target value →
      Merged props key (replaceBehindBlanks v.target.toList v.reference.toList
        (doubled key (value.toList.flatMap PrintedAttribute.escapeChar))) := by
    intro v hv hends
    have hmem : v ∈ done ++ u :: todo := by
      rw [List.append_cons]
      exact List.mem_append_left todo hv
    have hplain := husages v hmem
    obtain ⟨front, c, hc, hescaped⟩ := hends.escaped hplain.target
    rw [hescaped] at hraw ⊢
    rw [List.mem_append, not_or] at hraw
    exact merged_of_endsIn hplain hkey (hfresh v hv) hc hraw.1
  refine passes_breaks ?_ ?_ (hmistake u (by simp) hends)
  · intro v hv cs hmerged
    exact hmerged.replace hprops (husages v hv) (hrefer v hv) hkey
  · intro v hv
    by_cases hends : EndsIn v.target value
    · exact .inr (hmistake v (List.mem_append_left _ hv) hends)
    · exact .inl (replace_doubled (husages v (List.mem_append_left _ hv)) hkey
        (hfresh v (List.mem_append_left _ hv)) hends)

/-- A drawing without content and with the end of one behind it is no markup, tidied or not. -/
theorem Merged.not_isMarkup (hprops : ∀ p ∈ props, IsPlain p) (hkey : IsPlain key)
    (h : Merged props key cs) {after rest body : List Char}
    (hbody : tidyBefore (cs ++ after) rest = body ++ rest) : ¬ IsMarkup props body := by
  obtain ⟨value, hvalue, rfl⟩ := h
  have hattributes : DerivesAttributes props [key] (' ' :: key.toList ++ value ++ []) :=
    .cons hkey hvalue (by simp) .nil
  obtain ⟨kept, kept', hend, -⟩ := exists_tidyBefore_cons (c := '<') rfl (lead 1)
    ('/' :: "svg".toList ++ ['>'] ++ after) rest
  obtain ⟨attributes, hopening, hderives⟩ := tidyBefore_opening hprops plain_svg
    hattributes ([' ', '/', '>'] ++ (kept ++ '<' :: kept' ++ rest))
  obtain ⟨layout, hlayout, hsub⟩ := exists_tidyBefore (lead 1)
    ('<' :: "svg".toList ++ attributes ++ ([' ', '/', '>'] ++ (kept ++ '<' :: kept' ++ rest)))
  have htidied : tidyBefore (lead 1 ++ ('<' :: "svg".toList ++ (' ' :: key.toList ++ value ++ []) ++
      ([' ', '/', '>'] ++ (lead 1 ++ '<' :: ('/' :: "svg".toList ++ ['>'] ++ after))))) rest =
      layout ++ ('<' :: "svg".toList ++ attributes ++ ([' ', '/', '>'] ++ (kept ++ '<' :: kept'))) ++
        rest := by
    rw [tidyBefore_append (lead 1), tidyBefore_append ('<' :: "svg".toList ++ _),
      tidyBefore_append [' ', '/', '>'], hend, tidyBefore_empty, hopening, hlayout]
    simp
  have hsame : body = layout ++ ('<' :: "svg".toList ++ attributes ++
      ([' ', '/', '>'] ++ (kept ++ '<' :: kept'))) := by
    refine List.append_cancel_right (hbody.symm.trans (.trans ?_ htidied))
    simp [drawingStart, drawingEnd]
  rw [hsame]
  exact not_isMarkup_of_behind hprops ((layout_lead 1).sublist hsub) (by decide) hderives (by simp)

end Values

section Braces

variable {name reference xs cs : List Char} {c : Char}

/-- Whether a pass leaves a brace in front of the next tag. -/
def Braces (name reference cs : List Char) : Prop :=
  ∃ front back, replaceBehindBlanks name reference cs = front ++ '\x7b' :: back ∧ '<' ∉ front

theorem braces_brace (name reference back : List Char) :
    Braces name reference ('\x7b' :: back) := by
  refine ⟨[], replaceBehindBlanks name reference back, ?_, by simp⟩
  exact replaceBehindBlanks_cons_of_none fun hc => by cases hc

variable (hname : '<' ∉ name) {inside : List Char} (hreference : reference = '\x7b' :: inside)
include hname hreference

theorem braces_of_some {after : List Char} (hc : isBlank c)
    (h : afterAttribute name cs = some after) : Braces name reference (c :: cs) := by
  refine ⟨c :: (name ++ ['=']), inside ++ replaceBehindBlanks name reference after, ?_, ?_⟩
  · rw [replaceBehindBlanks_cons_of_some hc h, hreference]
    simp
  · have hless : '<' ≠ c := by
      rintro rfl
      cases hc
    simp [hname, hless]

theorem braces_append (hxs : '<' ∉ xs) (h : Braces name reference cs) :
    Braces name reference (xs ++ cs) := by
  induction xs with
  | nil => exact h
  | cons d xs ih =>
    rw [List.mem_cons, not_or] at hxs
    obtain ⟨front, back, hfront, hless⟩ := ih hxs.2
    by_cases hd : isBlank d
    · cases hafter : afterAttribute name (xs ++ cs) with
      | some after => exact braces_of_some hname hreference hd hafter
      | none =>
        refine ⟨d :: front, back, ?_, by simp [hxs.1, hless]⟩
        rw [List.cons_append, replaceBehindBlanks_cons_of_none fun _ => hafter, hfront,
          List.cons_append]
    · refine ⟨d :: front, back, ?_, by simp [hxs.1, hless]⟩
      rw [List.cons_append, replaceBehindBlanks_cons_of_none fun hd' => absurd hd' hd, hfront,
        List.cons_append]

end Braces

section Texts

/-- A drawing with a text in it, up to the text. -/
def textStart : List Char :=
  drawingStart ++ ['>'] ++ (lead 2 ++ '<' :: "text".toList) ++ ['>']

/-- A drawing with the same text in it twice. -/
def textTwice (raw : List Char) : List Char :=
  textStart ++ raw ++ ('<' :: '/' :: "text".toList ++ ['>']) ++ (lead 2 ++ '<' :: "text".toList) ++
    ['>'] ++ raw ++ ('<' :: '/' :: "text".toList ++ ['>']) ++ drawingEnd

/-- Whether a text is a drawing with a brace in the first text in it. -/
def Braced (cs : List Char) : Prop :=
  ∃ front back, cs = textStart ++ (front ++ '\x7b' :: back) ∧ '<' ∉ front

variable {u : Usage} {cs : List Char} {props : List String}

theorem passed_textStart (hu : u.Plain) (rest : List Char) :
    Passed u.target.toList textStart rest := by
  have hsvg := passed_opening hu.target plain_svg 1
  have htext := passed_opening hu.target plain_text 2
  exact (((hsvg _).append (passed_bracket _ _)).append (htext _)).append (passed_bracket _ rest)

theorem braced_of_braces (hu : u.Plain) (h : Braces u.target.toList u.reference.toList cs) :
    Braced (replaceBehindBlanks u.target.toList u.reference.toList (textStart ++ cs)) := by
  obtain ⟨front, back, hfront, hless⟩ := h
  refine ⟨front, back, ?_, hless⟩
  rw [replaceBehindBlanks_of_passed _ (passed_textStart hu cs), hfront]

theorem Usage.Plain.less_not_mem (hu : u.Plain) : '<' ∉ u.target.toList := by
  intro hmem
  cases hu.target.2 '<' hmem

/-- A pass over a text with a brace leaves one there. -/
theorem Braced.replace (hu : u.Plain) (hrefer : u.RefersTo props) (h : Braced cs) :
    Braced (replaceBehindBlanks u.target.toList u.reference.toList cs) := by
  obtain ⟨front, back, rfl, hless⟩ := h
  obtain ⟨p, -, hreference⟩ := hrefer
  exact braced_of_braces hu
    (braces_append hu.less_not_mem hreference hless (braces_brace _ _ back))

/-- A pass that finds an attribute in a text leaves a brace there. -/
theorem braced_of_mentions (hu : u.Plain) (hrefer : u.RefersTo props) {text : String}
    (htext : Mentions u.target text) :
    Braced (replaceBehindBlanks u.target.toList u.reference.toList
      (textTwice (text.toList.flatMap escapeTextChar))) := by
  obtain ⟨front, c, back, hc, hescaped⟩ := htext.escaped hu.target
  have hraw : '<' ∉ text.toList.flatMap escapeTextChar := inert_escape text '<' (by simp)
  have hquote : '"' ∈ text.toList.flatMap escapeTextChar := by simp [hescaped]
  obtain ⟨p, -, hreference⟩ := hrefer
  -- The second text has a quote at which the match in the first ends, if not before.
  have hlater : '"' ∈ back ++ ('<' :: '/' :: "text".toList ++ ['>'] ++
      (lead 2 ++ '<' :: "text".toList) ++ ['>'] ++ text.toList.flatMap escapeTextChar ++
      ('<' :: '/' :: "text".toList ++ ['>']) ++ drawingEnd) := by
    simp [hquote]
  obtain ⟨after, hafter⟩ := exists_afterQuote hlater
  have hmatch := braces_of_some hu.less_not_mem hreference hc
    ((afterAttribute_append u.target.toList _).trans hafter)
  have hfront : '<' ∉ front := by
    rw [hescaped, List.mem_append, not_or] at hraw
    exact hraw.1
  have hbraced := braced_of_braces hu (braces_append hu.less_not_mem hreference hfront hmatch)
  have hsame : textTwice (text.toList.flatMap escapeTextChar) = textStart ++ (front ++ c ::
      (u.target.toList ++ '=' :: '"' :: (back ++ ('<' :: '/' :: "text".toList ++ ['>'] ++
        (lead 2 ++ '<' :: "text".toList) ++ ['>'] ++ text.toList.flatMap escapeTextChar ++
        ('<' :: '/' :: "text".toList ++ ['>']) ++ drawingEnd)))) := by
    rw [textTwice]
    nth_rewrite 1 [hescaped]
    simp
  rwa [← hsame] at hbraced

/-- A pass that finds none takes nothing. -/
theorem replace_textTwice (hu : u.Plain) {text : String} (htext : ¬ Mentions u.target text) :
    replaceBehindBlanks u.target.toList u.reference.toList
      (textTwice (text.toList.flatMap escapeTextChar)) =
        textTwice (text.toList.flatMap escapeTextChar) := by
  have hpassed : Passed u.target.toList (textTwice (text.toList.flatMap escapeTextChar)) [] := by
    have hclosing : ∀ rest, Passed u.target.toList ('<' :: '/' :: "text".toList ++ ['>']) rest :=
      passed_of_not_blank (by decide)
    have hopening := passed_opening hu.target plain_text 2
    exact (((((((passed_textStart hu _).append (passed_text hu.target htext _)).append
      (hclosing _)).append (hopening _)).append (passed_bracket _ _)).append
      (passed_text hu.target htext _)).append (hclosing _)).append (passed_drawingEnd hu.target)
  have hreplaced := replaceBehindBlanks_of_passed u.reference.toList hpassed
  rwa [List.append_nil, replaceBehindBlanks_nil, List.append_nil] at hreplaced

/-- Once a pass has found an attribute in the text, there is a brace in it. -/
theorem braced_passes {usages : List Usage} (husages : ∀ u ∈ usages, u.Plain)
    (hrefer : ∀ u ∈ usages, u.RefersTo props) (hmem : u ∈ usages) {text : String}
    (htext : Mentions u.target text) :
    Braced (passes usages (textTwice (text.toList.flatMap escapeTextChar))) := by
  obtain ⟨done, todo, rfl⟩ := List.append_of_mem hmem
  refine passes_breaks ?_ ?_ (braced_of_mentions (husages u hmem) (hrefer u hmem) htext)
  · intro v hv cs hbraced
    exact hbraced.replace (husages v hv) (hrefer v hv)
  · intro v hv
    have hmem' := List.mem_append_left (u :: todo) hv
    by_cases hmentions : Mentions v.target text
    · exact .inr (braced_of_mentions (husages v hmem') (hrefer v hmem') hmentions)
    · exact .inl (replace_textTwice (husages v hmem') hmentions)

/-- A drawing with a brace in a text is no markup, tidied or not. -/
theorem Braced.not_isMarkup (hprops : ∀ p ∈ props, IsPlain p) (h : Braced cs)
    {after rest body : List Char} (hbody : tidyBefore (cs ++ after) rest = body ++ rest) :
    ¬ IsMarkup props body := by
  obtain ⟨front, back, rfl, hless⟩ := h
  obtain ⟨kept, kept', hkept, hsub⟩ :=
    exists_tidyBefore_cons (c := '\x7b') rfl front (back ++ after) rest
  obtain ⟨between, hbetween, hsub'⟩ := exists_tidyBefore (lead 2)
    ('<' :: "text".toList ++ ['>'] ++ (kept ++ '\x7b' :: kept' ++ rest))
  obtain ⟨layout, hlayout, hsub''⟩ := exists_tidyBefore (lead 1)
    ('<' :: "svg".toList ++ ['>'] ++ (between ++ ('<' :: "text".toList ++ ['>'] ++
      (kept ++ '\x7b' :: kept' ++ rest))))
  have hsame : body = layout ++ ('<' :: "svg".toList ++ [] ++ '>' :: (between ++
      ('<' :: "text".toList ++ [] ++ '>' :: (kept ++ '\x7b' :: kept')))) := by
    have hsvg : ∀ tail, tidyBefore ('<' :: "svg".toList ++ ['>']) tail =
        '<' :: "svg".toList ++ ['>'] ++ tail := tidyBefore_of_not_blank (by decide)
    have htext : ∀ tail, tidyBefore ('<' :: "text".toList ++ ['>']) tail =
        '<' :: "text".toList ++ ['>'] ++ tail := tidyBefore_of_not_blank (by decide)
    have htidied : tidyBefore (lead 1 ++ ('<' :: "svg".toList ++ ['>'] ++ (lead 2 ++
        ('<' :: "text".toList ++ ['>'] ++ (front ++ '\x7b' :: (back ++ after)))))) rest =
        layout ++ ('<' :: "svg".toList ++ ['>'] ++ (between ++ ('<' :: "text".toList ++ ['>'] ++
          (kept ++ '\x7b' :: kept' ++ rest)))) := by
      rw [tidyBefore_append (lead 1), tidyBefore_append ('<' :: "svg".toList ++ ['>']),
        tidyBefore_append (lead 2), tidyBefore_append ('<' :: "text".toList ++ ['>']), hkept,
        htext, hbetween, hsvg, hlayout]
    have hshown : body ++ rest = layout ++ ('<' :: "svg".toList ++ [] ++ '>' :: (between ++
        ('<' :: "text".toList ++ [] ++ '>' :: (kept ++ '\x7b' :: kept')))) ++ rest := by
      refine hbody.symm.trans (.trans ?_ (htidied.trans ?_))
      · simp [textStart, drawingStart]
      · simp
    exact List.append_cancel_right hshown
  rw [hsame]
  exact not_isMarkup_of_brace hprops ((layout_lead 1).sublist hsub'') (by decide) .nil
    ((layout_lead 2).sublist hsub') (by decide) .nil (fun hmem => hless (hsub.subset hmem))

end Texts

end Pictogram
