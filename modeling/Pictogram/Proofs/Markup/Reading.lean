import Mathlib.Data.List.Chain
import Pictogram.Proofs.Markup.AttributeList
import Pictogram.Proofs.Markup.Token

/-!
Reading texts as events: which text is read as which event, what is true of every event that is
read, and that legible events written one after the other are read as they were.
-/

namespace Pictogram.Markup

/-- A reading with one more event in front. -/
def Reading.cons (event : Event) (reading : Reading) : Reading :=
  ⟨event :: reading.events, reading.error?⟩

/-- A reading with more events in front. -/
def Reading.prepend (events : List Event) (reading : Reading) : Reading :=
  ⟨events ++ reading.events, reading.error?⟩

/-- Whether a name has no space in it. -/
def Solid (name : String) : Prop :=
  ∀ c ∈ name.toList, Text.isSpace c = false

/-- What is true of the name and the attributes of every tag that is read. -/
structure Tag.Sound (tag : Tag) : Prop where
  solid : Solid tag.name
  begins : BeginsTag tag.name.toList
  keys : WellKeyed [] tag.attributes

/-- What is true of every event that is read. -/
def Event.Sound : Event → Prop
  | opening tag => tag.Sound
  | selfClosing tag => tag.Sound
  | closing name => Solid name ∧ '>' ∉ name.toList
  | text raw => raw.toList ≠ [] ∧ '<' ∉ raw.toList
  | cdata raw => ¬ "]]>".toList <:+: raw.toList
  | _ => True

/-- Whether an event that is written is read as it was. Nothing that a cleanup leaves out counts as
legible. -/
def Event.Legible : Event → Prop
  | opening tag =>
    tag.Sound ∧ tag.fault? = none ∧ Unquoted tag.attributes ∧ OpeningContent tag.chars
  | selfClosing tag =>
    tag.Sound ∧ tag.fault? = none ∧ Unquoted tag.attributes ∧ ClosedContent tag.chars
  | closing name => Solid name ∧ '>' ∉ name.toList
  | text raw => raw.toList ≠ [] ∧ '<' ∉ raw.toList
  | cdata raw => ¬ "]]>".toList <:+: raw.toList
  | _ => False

/-- The elements that are open after one more event. -/
def Event.openAfter (names : List String) : Event → List String
  | opening tag => tag.name :: names
  | closing _ => names.tail
  | _ => names

/-- The elements that are open after several events. -/
def openAfterAll (names : List String) (events : List Event) : List String :=
  events.foldl (fun names event => event.openAfter names) names

/-- Whether every closing tag names the innermost element that is open. -/
def Nested (names : List String) : List Event → Prop
  | [] => True
  | event :: events =>
    (∀ name, event = .closing name → names.head? = some name) ∧
      Nested (event.openAfter names) events

/-- Whether an event is a text. -/
def Event.isText : Event → Bool
  | text _ => true
  | _ => false

/-- Whether no two texts stand next to each other. -/
def Separated (events : List Event) : Prop :=
  events.IsChain fun a b => ¬ (a.isText ∧ b.isText)

theorem Nested.of_append {names : List String} {events more : List Event}
    (h : Nested names (events ++ more)) : Nested names events := by
  induction events generalizing names with
  | nil => trivial
  | cons event events ih => exact ⟨h.1, ih h.2⟩

theorem Reading.prepend_nil (reading : Reading) : reading.prepend [] = reading :=
  rfl

theorem Reading.prepend_cons (event : Event) (events : List Event) (reading : Reading) :
    reading.prepend (event :: events) = (reading.prepend events).cons event :=
  rfl

theorem Reading.prepend_append (events more : List Event) (reading : Reading) :
    reading.prepend (events ++ more) = (reading.prepend more).prepend events := by
  simp [prepend]

theorem readFrom_cons {names names' : List String} {cs rest : List Char} {token : Token}
    {event : Event} (ht : nextToken cs = .ok (some (token, rest)))
    (he : Event.ofToken names token = .ok (event, names')) :
    readFrom names cs = (readFrom names' rest).cons event := by
  rw [readFrom]
  split
  next e hn =>
    rw [ht] at hn
    cases hn
  next hn =>
    rw [ht] at hn
    cases hn
  next token' rest' hn =>
    rw [ht] at hn
    obtain ⟨rfl, rfl⟩ := Prod.mk.inj (Option.some.inj (Except.ok.inj hn))
    rw [he]
    rfl

theorem readFrom_error {names : List String} {cs : List Char} {error : Error}
    (h : nextToken cs = .error error) : readFrom names cs = ⟨[], some error⟩ := by
  rw [readFrom]
  split
  next e he =>
    rw [h] at he
    obtain rfl := Except.error.inj he
    rfl
  next hnone =>
    rw [h] at hnone
    cases hnone
  next token rest hsome =>
    rw [h] at hsome
    cases hsome

theorem readFrom_none {names : List String} {cs : List Char} (h : nextToken cs = .ok none) :
    readFrom names cs = ⟨[], none⟩ := by
  rw [readFrom]
  split
  next e he =>
    rw [h] at he
    cases he
  next => rfl
  next token rest hsome =>
    rw [h] at hsome
    cases hsome

theorem readFrom_nil (names : List String) : readFrom names [] = ⟨[], none⟩ :=
  readFrom_none rfl

theorem readFrom_refused {names : List String} {cs rest : List Char} {token : Token} {error : Error}
    (ht : nextToken cs = .ok (some (token, rest))) (he : Event.ofToken names token = .error error) :
    readFrom names cs = ⟨[], some error⟩ := by
  rw [readFrom]
  split
  next e hn =>
    rw [ht] at hn
    cases hn
  next hn =>
    rw [ht] at hn
    cases hn
  next token' rest' hn =>
    rw [ht] at hn
    obtain ⟨rfl, rfl⟩ := Prod.mk.inj (Option.some.inj (Except.ok.inj hn))
    rw [he]

theorem dropMark_of_ne {c : Char} (hc : c ≠ '\uFEFF') (cs : List Char) :
    dropMark (c :: cs) = c :: cs :=
  if_neg hc

theorem dropMark_of_not_mem {cs : List Char} (h : '\uFEFF' ∉ cs) : dropMark cs = cs := by
  cases cs with
  | nil => rfl
  | cons c cs => exact dropMark_of_ne (fun hc => h (by simp [hc])) cs

theorem readFrom_text (names : List String) {raw rest : List Char} (hne : raw ≠ [])
    (hraw : '<' ∉ raw) (hrest : ∀ c tail, rest = c :: tail → c = '<') :
    readFrom names (raw ++ rest) = (readFrom names rest).cons (.text (.ofList raw)) :=
  readFrom_cons (nextToken_text hne hraw hrest) rfl

theorem readFrom_opening (names : List String) {content : List Char} (h : OpeningContent content)
    (rest : List Char) :
    readFrom names ('<' :: (content ++ '>' :: rest)) =
      (readFrom ((Tag.ofContent content).name :: names) rest).cons
        (.opening (.ofContent content)) :=
  readFrom_cons (nextToken_opening h rest) rfl

theorem readFrom_selfClosing (names : List String) {content : List Char}
    (h : ClosedContent content) (rest : List Char) :
    readFrom names ('<' :: (content ++ '/' :: '>' :: rest)) =
      (readFrom names rest).cons (.selfClosing (.ofContent content)) :=
  readFrom_cons (nextToken_selfClosing h rest) rfl

theorem closingName_append {name spaces : List Char} (hne : name ≠ [])
    (hname : ∀ c ∈ name, Text.isSpace c = false) (hspaces : ∀ c ∈ spaces, Text.isSpace c) :
    closingName (name ++ spaces) = name := by
  have hmore : ¬ (name ++ spaces).all Text.isSpace := by
    cases name with
    | nil => exact absurd rfl hne
    | cons c name => simp [hname c]
  have hrun : ∀ c ∈ spaces.reverse, Text.isSpace c := fun c hc =>
    hspaces c (List.mem_reverse.1 hc)
  have hstop : ∀ c tail, name.reverse = c :: tail → Text.isSpace c = false := fun c tail heq =>
    hname c (List.mem_reverse.1 (by simp [heq]))
  rw [closingName, if_neg hmore, Text.dropEnd, List.reverse_append,
    Text.dropWhile_append_of_stop hrun hstop, List.reverse_reverse]

theorem closingName_of_solid {content : List Char}
    (h : ∀ c ∈ content, Text.isSpace c = false) : closingName content = content := by
  by_cases hne : content = []
  · rw [hne]
    rfl
  · have hname : closingName (content ++ []) = content := closingName_append hne h (by simp)
    rwa [List.append_nil] at hname

theorem readFrom_closing (names : List String) {name : String} (hsolid : Solid name)
    (hname : '>' ∉ name.toList) (rest : List Char) :
    readFrom (name :: names) ('<' :: '/' :: (name.toList ++ '>' :: rest)) =
      (readFrom names rest).cons (.closing name) := by
  refine readFrom_cons (nextToken_closing hname rest) ?_
  rw [Event.ofToken, close, closingName_of_solid hsolid]
  simp

theorem readFrom_cdata (names : List String) {raw : List Char}
    (h : ¬ "]]>".toList <:+: raw) (rest : List Char) :
    readFrom names ("<![CDATA[".toList ++ (raw ++ ("]]>".toList ++ rest))) =
      (readFrom names rest).cons (.cdata (.ofList raw)) :=
  readFrom_cons (nextToken_cdata h rest) rfl

theorem beginsTag_chars {tag : Tag} (h : tag.Sound) : BeginsTag tag.chars := by
  intro c tail heq
  rw [Tag.chars] at heq
  cases hname : tag.name.toList with
  | nil =>
    cases hattributes : tag.attributes with
    | nil =>
      rw [hname, hattributes] at heq
      cases heq
    | cons a more =>
      rw [hname, hattributes, List.flatMap_cons, RawAttribute.chars] at heq
      obtain ⟨rfl, -⟩ := List.cons.inj heq
      decide
  | cons d name =>
    rw [hname] at heq
    obtain ⟨rfl, -⟩ := List.cons.inj heq
    exact h.begins d name hname

/-- The name of a tag ends where its attributes begin. -/
theorem ofContent_append {name : String} {list : List Char} (hsolid : Solid name)
    (hlist : ∀ c tail, list = c :: tail → Text.isSpace c) :
    Tag.ofContent (name.toList ++ list) =
      { name
        attributes := (readAttributes (Text.byteLength name.toList) [] list).1
        fault? := (readAttributes (Text.byteLength name.toList) [] list).2 } := by
  have hrun : ∀ c ∈ name.toList, (!Text.isSpace c) = true := by
    intro c hc
    simp [hsolid c hc]
  have hstop : ∀ c tail, list = c :: tail → (!Text.isSpace c) = false := by
    intro c tail heq
    simp [hlist c tail heq]
  rw [Tag.ofContent, Text.takeWhile_append_of_stop hrun hstop,
    Text.dropWhile_append_of_stop hrun hstop, String.ofList_toList]

/-- A tag that is written is read as it was, with any spaces behind its attributes. -/
theorem ofContent_written {tag : Tag} (spaces : List Char) (hsound : tag.Sound)
    (hfault : tag.fault? = none) (hquotes : Unquoted tag.attributes)
    (hspaces : ∀ c ∈ spaces, Text.isSpace c) :
    Tag.ofContent (tag.chars ++ spaces) = tag := by
  rw [Tag.chars, List.append_assoc, ofContent_append hsound.solid,
    readAttributes_written _ hsound.keys hquotes hspaces, ← hfault]
  intro c tail heq
  cases hattributes : tag.attributes with
  | nil =>
    rw [hattributes, List.flatMap_nil, List.nil_append] at heq
    exact hspaces c (by simp [heq])
  | cons a more =>
    rw [hattributes, List.flatMap_cons, RawAttribute.chars] at heq
    obtain ⟨rfl, -⟩ := List.cons.inj heq
    rfl

theorem Event.chars_opening (tag : Tag) (rest : List Char) :
    (opening tag).chars ++ rest = '<' :: (tag.chars ++ '>' :: rest) := by
  change '<' :: tag.chars ++ ['>'] ++ rest = _
  simp

theorem Event.chars_selfClosing (tag : Tag) (rest : List Char) :
    (selfClosing tag).chars ++ rest = '<' :: (tag.chars ++ '/' :: '>' :: rest) := by
  change '<' :: tag.chars ++ ['/', '>'] ++ rest = _
  simp

theorem Event.chars_closing (name : String) (rest : List Char) :
    (closing name).chars ++ rest = '<' :: '/' :: (name.toList ++ '>' :: rest) := by
  change '<' :: '/' :: name.toList ++ ['>'] ++ rest = _
  simp

theorem Event.chars_cdata (raw : String) (rest : List Char) :
    (cdata raw).chars ++ rest =
      "<![CDATA[".toList ++ (raw.toList ++ ("]]>".toList ++ rest)) := by
  change "<![CDATA[".toList ++ raw.toList ++ "]]>".toList ++ rest = _
  rw [List.append_assoc, List.append_assoc]

theorem chars_of_not_isText {event : Event} (h : event.isText = false) :
    ∃ tail, event.chars = '<' :: tail := by
  cases event with
  | text raw => cases h
  | opening tag => exact ⟨_, rfl⟩
  | selfClosing tag => exact ⟨_, rfl⟩
  | closing name => exact ⟨_, rfl⟩
  | cdata raw =>
    exact ⟨"![CDATA[".toList ++ raw.toList ++ "]]>".toList, rfl⟩
  | comment raw => exact ⟨"!--".toList ++ raw.toList ++ "-->".toList, rfl⟩
  | doctype raw => exact ⟨"!DOCTYPE".toList ++ raw.toList ++ ['>'], rfl⟩
  | instruction raw => exact ⟨_, rfl⟩

/-- A legible event is read from the front of a text that does not go on as it does. -/
theorem readFrom_legible {names : List String} {event : Event} {rest : List Char}
    (h : event.Legible) (hnames : ∀ name, event = .closing name → names.head? = some name)
    (hrest : event.isText → ∀ c tail, rest = c :: tail → c = '<') :
    readFrom names (event.chars ++ rest) = (readFrom (event.openAfter names) rest).cons event := by
  cases event with
  | opening tag =>
    obtain ⟨hsound, hfault, hquotes, hcontent⟩ := h
    have hread := readFrom_opening names hcontent rest
    have htag := ofContent_written [] hsound hfault hquotes (by simp)
    rw [List.append_nil] at htag
    rw [htag] at hread
    rw [Event.chars_opening]
    exact hread
  | selfClosing tag =>
    obtain ⟨hsound, hfault, hquotes, hcontent⟩ := h
    have hread := readFrom_selfClosing names hcontent rest
    have htag := ofContent_written [] hsound hfault hquotes (by simp)
    rw [List.append_nil] at htag
    rw [htag] at hread
    rw [Event.chars_selfClosing]
    exact hread
  | closing name =>
    obtain ⟨hsolid, hname⟩ := h
    cases names with
    | nil => cases hnames name rfl
    | cons other names =>
      obtain rfl : other = name := by simpa using hnames name rfl
      rw [Event.chars_closing]
      exact readFrom_closing _ hsolid hname rest
  | text raw =>
    obtain ⟨hne, hraw⟩ := h
    have hread := readFrom_text names hne hraw (hrest rfl)
    rw [String.ofList_toList] at hread
    exact hread
  | cdata raw =>
    have hread := readFrom_cdata names h rest
    rw [String.ofList_toList] at hread
    rw [Event.chars_cdata]
    exact hread
  | comment raw => exact h.elim
  | doctype raw => exact h.elim
  | instruction raw => exact h.elim

/-- Legible events written one after the other are read as they were, in front of whatever begins
with a bracket. -/
theorem readFrom_written {names : List String} {events : List Event} {rest : List Char}
    (hnested : Nested names events) (hlegible : ∀ event ∈ events, event.Legible)
    (hseparated : Separated events) (hrest : ∀ c tail, rest = c :: tail → c = '<') :
    readFrom names (events.flatMap (·.chars) ++ rest) =
      (readFrom (openAfterAll names events) rest).prepend events := by
  induction events generalizing names with
  | nil => rfl
  | cons event events ih =>
    obtain ⟨hnames, hnested⟩ := hnested
    have hnext : event.isText →
        ∀ c tail, events.flatMap (·.chars) ++ rest = c :: tail → c = '<' := by
      intro htext c tail heq
      cases events with
      | nil => exact hrest c tail heq
      | cons next events =>
        have hnext : next.isText = false := by
          have := (List.isChain_cons_cons.1 hseparated).1
          simpa [htext] using this
        obtain ⟨more, hmore⟩ := chars_of_not_isText hnext
        rw [List.flatMap_cons, hmore] at heq
        exact (List.cons.inj heq).1.symm
    rw [List.flatMap_cons, List.append_assoc,
      readFrom_legible (hlegible event (by simp)) hnames hnext,
      ih hnested (fun e he => hlegible e (by simp [he])) (List.isChain_of_isChain_cons hseparated)]
    rfl

theorem sound_of_ofContent {content : List Char} (hbegins : BeginsTag content) :
    (Tag.ofContent content).Sound := by
  refine ⟨?_, ?_, ?_⟩
  · intro c hc
    have hmem : c ∈ content.takeWhile (!Text.isSpace ·) := by simpa [Tag.ofContent] using hc
    simpa using List.mem_takeWhile_imp hmem
  · intro c tail heq
    cases content with
    | nil => simp [Tag.ofContent] at heq
    | cons d content =>
      simp only [Tag.ofContent, String.toList_ofList] at heq
      by_cases hd : Text.isSpace d = true
      · simp [hd] at heq
      · simp only [List.takeWhile_cons, hd, Bool.not_false, if_true] at heq
        obtain ⟨rfl, -⟩ := List.cons.inj heq
        exact hbegins d content rfl
  · have hread : readAttributes _ [] _ =
        ((Tag.ofContent content).attributes, (Tag.ofContent content).fault?) := rfl
    exact wellKeyed_of_readAttributes hread

/-- A token is turned into an event as the open elements allow it. -/
theorem sound_of_ofToken {names names' : List String} {token : Token} {event : Event}
    (hnames : ∀ name ∈ names, Solid name) (htoken : token.Sound)
    (h : Event.ofToken names token = .ok (event, names')) :
    event.Sound ∧ names' = event.openAfter names ∧
      (∀ name, event = .closing name → names.head? = some name) ∧ ∀ name ∈ names', Solid name := by
  cases token with
  | text raw =>
    obtain ⟨rfl, rfl⟩ := Prod.mk.inj (Except.ok.inj h)
    exact ⟨by simpa [Event.Sound, Token.Sound] using htoken, rfl, by simp, hnames⟩
  | opening content =>
    obtain ⟨rfl, rfl⟩ := Prod.mk.inj (Except.ok.inj h)
    have hsound := sound_of_ofContent htoken.begins
    exact ⟨hsound, rfl, by simp, by simpa using ⟨hsound.solid, hnames⟩⟩
  | selfClosing content =>
    obtain ⟨rfl, rfl⟩ := Prod.mk.inj (Except.ok.inj h)
    exact ⟨sound_of_ofContent htoken.begins, rfl, by simp, hnames⟩
  | closing content =>
    cases names with
    | nil => cases h
    | cons name names =>
      simp only [Event.ofToken, close] at h
      split at h
      next hfound =>
        obtain ⟨rfl, rfl⟩ := Prod.mk.inj (Except.ok.inj h)
        have hsolid := hnames name (by simp)
        refine ⟨⟨hfound ▸ hsolid, ?_⟩, rfl, by simp [hfound], fun n hn => hnames n (by simp [hn])⟩
        intro hmem
        rw [String.toList_ofList, closingName] at hmem
        split at hmem
        · exact htoken hmem
        · rw [Text.dropEnd, List.mem_reverse] at hmem
          exact htoken (List.mem_reverse.1 ((List.dropWhile_suffix _).mem hmem))
      next => cases h
  | cdata raw =>
    obtain ⟨rfl, rfl⟩ := Prod.mk.inj (Except.ok.inj h)
    exact ⟨by simpa [Event.Sound, Token.Sound] using htoken, rfl, by simp, hnames⟩
  | comment raw =>
    obtain ⟨rfl, rfl⟩ := Prod.mk.inj (Except.ok.inj h)
    exact ⟨trivial, rfl, by simp, hnames⟩
  | doctype raw =>
    obtain ⟨rfl, rfl⟩ := Prod.mk.inj (Except.ok.inj h)
    exact ⟨trivial, rfl, by simp, hnames⟩
  | instruction raw =>
    obtain ⟨rfl, rfl⟩ := Prod.mk.inj (Except.ok.inj h)
    exact ⟨trivial, rfl, by simp, hnames⟩

/-- What is read is sound, and closing tags match the elements they close. -/
theorem sound_of_readFrom {names : List String} (cs : List Char)
    (hnames : ∀ name ∈ names, Solid name) :
    (∀ event ∈ (readFrom names cs).events, event.Sound) ∧
      Nested names (readFrom names cs).events := by
  induction hlength : cs.length using Nat.strong_induction_on generalizing names cs with
  | _ length ih =>
    rw [readFrom]
    split
    · exact ⟨by simp, trivial⟩
    · exact ⟨by simp, trivial⟩
    next token rest hnext =>
      split
      · exact ⟨by simp, trivial⟩
      next event names' hevent =>
        obtain ⟨hsound, hafter, hclosing, hnames'⟩ :=
          sound_of_ofToken hnames (sound_of_nextToken hnext) hevent
        obtain ⟨hevents, hnested⟩ :=
          ih rest.length (hlength ▸ length_nextToken hnext) rest hnames' rfl
        refine ⟨?_, hclosing, ?_⟩
        · simpa using ⟨hsound, hevents⟩
        · rwa [← hafter]

theorem sound_read (text : String) :
    (∀ event ∈ (read text).events, event.Sound) ∧ Nested [] (read text).events :=
  sound_of_readFrom (dropMark text.toList) (by simp)

end Pictogram.Markup
