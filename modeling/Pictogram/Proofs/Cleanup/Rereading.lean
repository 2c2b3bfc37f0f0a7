import Pictogram.Proofs.Cleanup.Keeping
import Pictogram.Proofs.Markup.Listing

/-!
Reading a tag again that a cleanup has written. Where the tag is read as the same element, it could
be rewritten: its values hold no double quote, and it ends at the bracket that was written for it.
-/

namespace Pictogram.Markup

/-- A text stands for more than its beginning if it goes on with a character that stands for
itself. -/
theorem decodeFrom_ne_of_append {position other : Nat} {cs decoded rest : List Char} {c : Char}
    (h : decodeFrom position cs = .ok decoded) (hc : c ≠ '&') :
    decodeFrom other (cs ++ c :: rest) ≠ .ok decoded := by
  intro heq
  obtain ⟨next, hnext⟩ := decodeFrom_append h other (c :: rest)
  rw [hnext, decodeFrom_cons next hc] at heq
  cases hrest : decodeFrom (next + c.utf8Size) rest with
  | error fault =>
    rw [hrest] at heq
    cases heq
  | ok more =>
    rw [hrest] at heq
    simpa using Except.ok.inj heq

/-- A quoted text that is read up to its first quote and stands for the same is read whole. -/
theorem unquoted_of_decode {raw raw' : String} {rest rest' : List Char} {value : String}
    (hraw : decode raw = .ok value) (hraw' : decode raw' = .ok value) (hquote : '"' ∉ raw'.toList)
    (h : raw'.toList ++ '"' :: rest' = raw.toList ++ '"' :: rest) :
    raw' = raw ∧ rest' = rest := by
  have hrun := Text.run_of_not_mem hquote
  rcases Text.run_or_stop (· != '"') raw.toList with hall | ⟨before, stop, after, heq, hbefore, hstop⟩
  · obtain ⟨hsame, -, hrest⟩ := Text.run_unique hrun (by simp) hall (by simp) h
    exact ⟨String.toList_inj.1 hsame, hrest⟩
  · obtain rfl : stop = '"' := by simpa using hstop
    rw [heq, List.append_assoc, List.cons_append] at h
    obtain ⟨hsame, -, -⟩ := Text.run_unique hrun (by simp) hbefore (by simp) h
    obtain ⟨decoded, hdecoded, rfl⟩ := eq_ok_of_map hraw'
    obtain ⟨decoded', hwhole, hvalue⟩ := eq_ok_of_map hraw
    rw [heq, ← hsame] at hwhole
    rw [String.ofList_inj.1 hvalue] at hwhole
    exact absurd hwhole (decodeFrom_ne_of_append hdecoded (by decide))

/-- A written list that is read, as far as the reading goes, as a list that stands for the same holds
no double quote in its values and is read up to its end. -/
theorem unquoted_of_reread {attributes attributes' : List RawAttribute} {decoded : List Attribute}
    {list after tail : List Char} {position : Nat} {seen : List (List Char × Nat)}
    (hread : readAttributes position seen list = (attributes', none))
    (hdecode : decodeAttributes none attributes = .ok decoded)
    (hdecode' : decodeAttributes none attributes' = .ok decoded)
    (heq : list ++ after = attributes.flatMap (·.chars) ++ tail) :
    Unquoted attributes ∧ ∃ spaces, (∀ c ∈ spaces, Text.isSpace c) ∧
      list = attributes.flatMap (·.chars) ++ spaces := by
  induction attributes generalizing attributes' decoded list position seen with
  | nil =>
    obtain rfl := Except.ok.inj hdecode
    cases attributes' with
    | nil =>
      exact ⟨by simp [Unquoted], list, spaces_of_readAttributes_nil hread, rfl⟩
    | cons a' attributes' =>
      obtain ⟨value, more, -, -, hnil⟩ := decodeAttributes_cons_eq_ok_iff.1 hdecode'
      cases hnil
  | cons a attributes ih =>
    obtain ⟨value, more, hvalue, hmore, rfl⟩ := decodeAttributes_cons_eq_ok_iff.1 hdecode
    cases attributes' with
    | nil =>
      have hnil := Except.ok.inj hdecode'
      cases hnil
    | cons a' attributes' =>
      obtain ⟨value', more', hvalue', hmore', hcons⟩ := decodeAttributes_cons_eq_ok_iff.1 hdecode'
      obtain ⟨hattribute, rfl⟩ := List.cons.inj hcons
      obtain ⟨hkey, rfl⟩ := Attribute.mk.inj hattribute
      obtain ⟨blanks, key, gap, gap', quote, raw, rest, start, next, rfl, hblanks, hiskey, hgap,
        hgap', hquote, hraw, -, rfl, hrest⟩ := of_readAttributes_cons hread
      obtain ⟨c, keyTail, rfl, hc, -⟩ := hiskey
      have hquoteSpace : Text.isSpace quote = false := by
        rcases hquote with rfl | rfl <;> rfl
      -- blanks, key, gaps and the opening quote are what was written
      rw [List.flatMap_cons, RawAttribute.chars, hkey, String.toList_ofList] at heq
      simp only [List.cons_append, List.append_assoc, List.nil_append] at heq
      obtain ⟨rfl, -, heq⟩ :=
        Text.run_unique hblanks hc (by decide) hc (show blanks ++ c :: _ = [' '] ++ c :: _ from heq)
      replace heq := List.append_cancel_left heq
      obtain ⟨rfl, -, heq⟩ :=
        Text.run_unique hgap (by decide) (by simp) (by decide)
          (show gap ++ '=' :: _ = [] ++ '=' :: _ from heq)
      obtain ⟨rfl, rfl, heq⟩ :=
        Text.run_unique hgap' hquoteSpace (by simp) (by decide)
          (show gap' ++ quote :: _ = [] ++ '"' :: _ from heq)
      rw [← String.toList_ofList (l := raw)] at heq hraw
      obtain ⟨hsame, heq⟩ := unquoted_of_decode hvalue hvalue' hraw heq
      obtain ⟨hunquoted, spaces, hspaces, rfl⟩ := ih hrest hmore hmore' heq
      refine ⟨List.forall_mem_cons.2 ⟨hsame ▸ hraw, hunquoted⟩, spaces, hspaces, ?_⟩
      rw [List.flatMap_cons, RawAttribute.chars, hkey, ← hsame]
      simp

/-- A tag that is read again as the same element, with the same name and attributes, is read from
what was written for it. -/
theorem tag_of_reread {tag : Tag} {e e' : Element} {content after tail : List Char}
    (he : tag.element = .ok e) (he' : (Tag.ofContent content).element = .ok e')
    (hname : (Tag.ofContent content).name = tag.name) (hattributes : e'.attributes = e.attributes)
    (htail : ∀ c more, tail = c :: more → Text.isSpace c = false)
    (heq : content ++ after = tag.chars ++ tail) :
    Unquoted tag.attributes ∧ content = tag.chars ∧ after = tail := by
  obtain ⟨attributes, hdecode, rfl⟩ := element_eq_ok_iff.1 he
  obtain ⟨attributes', hdecode', rfl⟩ := element_eq_ok_iff.1 he'
  obtain rfl : attributes' = attributes := hattributes
  have hfault := fault_of_decodeAttributes hdecode
  have hfault' := fault_of_decodeAttributes hdecode'
  rw [hfault] at hdecode
  rw [hfault'] at hdecode'
  have hcontent : content = tag.name.toList ++ content.dropWhile (!Text.isSpace ·) := by
    rw [← hname]
    simp [Tag.ofContent]
  have hlist : content.dropWhile (!Text.isSpace ·) ++ after =
      tag.attributes.flatMap (·.chars) ++ tail := by
    rw [hcontent, Tag.chars, List.append_assoc, List.append_assoc] at heq
    exact List.append_cancel_left heq
  have hread : readAttributes (Text.byteLength (content.takeWhile (!Text.isSpace ·))) []
      (content.dropWhile (!Text.isSpace ·)) = ((Tag.ofContent content).attributes, none) := by
    rw [← hfault']
    rfl
  obtain ⟨hunquoted, spaces, hspaces, hsame⟩ := unquoted_of_reread hread hdecode hdecode' hlist
  rw [hsame, List.append_assoc] at hlist
  replace hlist := List.append_cancel_left hlist
  cases spaces with
  | nil =>
    refine ⟨hunquoted, ?_, hlist⟩
    rw [hcontent, hsame, List.append_nil, Tag.chars]
  | cons c spaces =>
    have hspace := hspaces c (by simp)
    rw [htail c _ hlist.symm] at hspace
    cases hspace

/-- What can be read behind a bracket that begins a tag. -/
theorem of_readFrom_tag {names : List String} {cs : List Char} (hbegins : BeginsTag cs)
    (hne : cs ≠ []) (herror : (readFrom names ('<' :: cs)).error? = none) :
    ∃ content rest event names', cs = content ++ '>' :: rest ∧ Delimited content ∧
      readFrom names ('<' :: cs) = (readFrom names' rest).cons event ∧
      (content.getLast? ≠ some '/' ∧ event = .opening (.ofContent content) ∨
        ∃ inner, content = inner ++ ['/'] ∧ event = .selfClosing (.ofContent inner)) := by
  cases cs with
  | nil => exact absurd rfl hne
  | cons c tail =>
    have hnext : nextToken ('<' :: c :: tail) = (readTag (c :: tail)).map some := by
      rw [nextToken_bracket, readBracket_of_beginsTag hbegins]
    cases hsplit : splitTag none (c :: tail) with
    | none =>
      rw [readTag, hsplit] at hnext
      rw [readFrom_error hnext] at herror
      cases herror
    | some result =>
      obtain ⟨content, rest⟩ := result
      obtain ⟨hcontent, hdelimited⟩ := splitTag_eq_some_iff.1 hsplit
      rw [readTag, hsplit] at hnext
      by_cases hlast : content.getLast? = some '/'
      · simp only [if_pos hlast] at hnext
        obtain ⟨inner, rfl⟩ := List.getLast?_eq_some_iff.1 hlast
        rw [List.dropLast_concat] at hnext
        exact ⟨_, rest, _, _, hcontent, hdelimited, readFrom_cons hnext rfl,
          .inr ⟨inner, rfl, rfl⟩⟩
      · simp only [if_neg hlast] at hnext
        exact ⟨_, rest, _, _, hcontent, hdelimited, readFrom_cons hnext rfl, .inl ⟨hlast, rfl⟩⟩

/-- An event of a tag begins its element at once. -/
theorem listing_of_tag {event : Event} {tag : Tag} {events : List Event} {g g' : Growth}
    (htag : event = .opening tag ∨ event = .selfClosing tag)
    (h : g.run (event :: events) = .ok g') :
    ∃ e more, tag.element = .ok e ∧
      g'.listing = g.listing ++ ⟨g.enclosing.length, tag.name, e.attributes⟩ :: more := by
  rw [Growth.run_cons] at h
  cases hstep : g.step event with
  | error e =>
    rw [hstep] at h
    cases h
  | ok next =>
    rw [hstep] at h
    obtain ⟨begun, hbegun, -⟩ := Growth.listing_run h
    have hnext : ∃ e, tag.element = .ok e ∧
        next.listing = g.listing ++ [⟨g.enclosing.length, tag.name, e.attributes⟩] := by
      rcases htag with rfl | rfl
      · obtain ⟨e, he, hlisting, -⟩ := Growth.listing_opening hstep
        exact ⟨e, he, hlisting⟩
      · obtain ⟨e, he, hlisting, -⟩ := Growth.listing_selfClosing hstep
        exact ⟨e, he, hlisting⟩
    obtain ⟨e, he, hlisting⟩ := hnext
    refine ⟨e, begun, he, ?_⟩
    rw [hbegun, hlisting, List.append_assoc, List.singleton_append]

/-- A tag without name and attributes that is written as a whole element is read as the end of
another, so that nothing can be begun where it stood. -/
theorem empty_of_reread {names : List String} {rest : List Char} {g g' : Growth} {first : Listed}
    {more : List Listed} (hlength : g.enclosing.length = names.length)
    (herror : (readFrom names ('<' :: '/' :: '>' :: rest)).error? = none)
    (hrun : g.run (readFrom names ('<' :: '/' :: '>' :: rest)).events = .ok g')
    (hlisting : g'.listing = g.listing ++ first :: more) : first.depth < g.enclosing.length := by
  have hnext := nextToken_closing (show '>' ∉ [] by simp) rest
  rw [List.nil_append] at hnext
  cases hclose : close names [] with
  | error e =>
    rw [readFrom_refused hnext hclose] at herror
    cases herror
  | ok result =>
    obtain ⟨event, names'⟩ := result
    rw [readFrom_cons hnext hclose] at hrun
    cases names with
    | nil => cases hclose
    | cons name outer =>
      simp only [close] at hclose
      split at hclose
      next hfound =>
        obtain ⟨rfl, rfl⟩ := Prod.mk.inj (Except.ok.inj hclose)
        change g.run (_ :: _) = _ at hrun
        rw [Growth.run_cons] at hrun
        cases hstep : g.step (.closing (.ofList (closingName []))) with
        | error e =>
          rw [hstep] at hrun
          cases hrun
        | ok next =>
          rw [hstep] at hrun
          obtain ⟨hsame, hnextLength⟩ := Growth.listing_closing hstep
          obtain ⟨begun, hbegun, hdepth⟩ := Growth.listing_run hrun
          rw [hlisting, hsame] at hbegun
          have hle := hdepth first more (List.append_cancel_left hbegun).symm
          rw [hnextLength, hlength, List.length_cons] at hle
          rw [hlength, List.length_cons]
          omega
      next => cases hclose

/-- A written tag that is read again as an element of its name and attributes ends where it was
closed. -/
theorem delimited_of_reread {names : List String} {event : Event} {tag : Tag} {events : List Event}
    {close : List Char} {g g' reread : Growth}
    (htag : event = .opening tag ∨ event = .selfClosing tag) (hrun : g.run (event :: events) = .ok g')
    (hbegins : BeginsTag (tag.chars ++ close)) (hne : tag.chars ++ close ≠ [])
    (hclose : ∀ c more, close = c :: more → Text.isSpace c = false)
    (herror : (readFrom names ('<' :: (tag.chars ++ close))).error? = none)
    (hreread : g.run (readFrom names ('<' :: (tag.chars ++ close))).events = .ok reread)
    (hlisting : reread.listing = g'.listing) :
    Unquoted tag.attributes ∧ Delimited tag.chars ∧ ∃ rest,
      (tag.chars.getLast? ≠ some '/' ∧ close = '>' :: rest ∨ close = '/' :: '>' :: rest) := by
  obtain ⟨e, more, he, hlisted⟩ := listing_of_tag htag hrun
  obtain ⟨content, rest, event', names', hcontent, hdelimited, hread, hkind⟩ :=
    of_readFrom_tag hbegins hne herror
  rw [hread] at hreread
  have hsame : ∀ {content' : List Char} {after : List Char},
      (event' = .opening (.ofContent content') ∨ event' = .selfClosing (.ofContent content')) →
      content' ++ after = tag.chars ++ close →
      Unquoted tag.attributes ∧ content' = tag.chars ∧ after = close := by
    intro content' after htag' hwritten
    obtain ⟨e', more', he', hlisted'⟩ := listing_of_tag htag' hreread
    rw [hlisting, hlisted] at hlisted'
    obtain ⟨hfirst, -⟩ := List.cons.inj (List.append_cancel_left hlisted')
    obtain ⟨-, hname, hattributes⟩ := Listed.mk.inj hfirst
    exact tag_of_reread he he' hname.symm hattributes.symm hclose hwritten
  rcases hkind with ⟨hlast, rfl⟩ | ⟨inner, rfl, rfl⟩
  · obtain ⟨hunquoted, rfl, rfl⟩ := hsame (.inl rfl) hcontent.symm
    exact ⟨hunquoted, hdelimited, rest, .inl ⟨hlast, rfl⟩⟩
  · rw [List.append_assoc, List.singleton_append] at hcontent
    obtain ⟨hunquoted, rfl, rfl⟩ := hsame (.inr rfl) hcontent.symm
    exact ⟨hunquoted, (delimited_append (by simp)).1 hdelimited, rest, .inr rfl⟩

/-- What is kept and, written down, is read as an element of the same name and attributes at the
same depth could be rewritten. -/
theorem rewritable_of_reread {names : List String} {event : Event} {events : List Event}
    {rest : List Char} {g g' reread : Growth} (hkept : event.Kept)
    (hlength : g.enclosing.length = names.length) (hrun : g.run (event :: events) = .ok g')
    (herror : (readFrom names (event.chars ++ rest)).error? = none)
    (hreread : g.run (readFrom names (event.chars ++ rest)).events = .ok reread)
    (hlisting : reread.listing = g'.listing) : event.Rewritable := by
  cases event with
  | opening tag =>
    rw [Event.chars_opening] at herror hreread
    have hbegins : BeginsTag (tag.chars ++ '>' :: rest) :=
      (beginsTag_chars hkept.1).append (by simp [BeginsTag])
    obtain ⟨hunquoted, hdelimited, rest', ⟨hlast, -⟩ | hclose⟩ :=
      delimited_of_reread (.inl rfl) hrun hbegins (by simp)
        (by rintro c more heq; obtain ⟨rfl, -⟩ := List.cons.inj heq; rfl) herror hreread hlisting
    · exact ⟨hunquoted, hdelimited, hlast⟩
    · simp at hclose
  | selfClosing tag =>
    rw [Event.chars_selfClosing] at herror hreread
    by_cases hempty : tag.chars = []
    · obtain ⟨e, more, -, hlisted⟩ := listing_of_tag (.inr rfl) hrun
      rw [hempty, List.nil_append] at herror hreread
      rw [← hlisting] at hlisted
      exact absurd (empty_of_reread hlength herror hreread hlisted) (Nat.lt_irrefl _)
    · have hbegins : BeginsTag (tag.chars ++ '/' :: '>' :: rest) :=
        (beginsTag_chars hkept.1).append (fun h => absurd h hempty)
      obtain ⟨hunquoted, hdelimited, -⟩ :=
        delimited_of_reread (.inr rfl) hrun hbegins (by simp)
          (by rintro c more heq; obtain ⟨rfl, -⟩ := List.cons.inj heq; rfl) herror hreread hlisting
      exact ⟨hunquoted, hdelimited, hempty⟩
  | closing _ | text _ | cdata _ | comment _ | doctype _ | instruction _ => trivial

end Pictogram.Markup
