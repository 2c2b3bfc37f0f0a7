import Pictogram.Proofs.Cleanup.Meaning
import Pictogram.Proofs.Markup.Content
import Pictogram.Proofs.Markup.Remainder
import Pictogram.Proofs.Markup.TagContent

/-!
What a cleanup leaves of the events of a text, and that it finds nothing more to leave out of the
cleaned text. Which events are to be left out is told from the elements that are open, without a
count of them.
-/

namespace Pictogram.Markup

open Cleanup

/-- A tag without the attributes that a cleanup leaves out. -/
def Tag.stripped (tag : Tag) : Tag :=
  { tag with attributes := tag.attributes.filter (!isDroppedAttribute ·.key) }

/-- An event without the attributes that a cleanup leaves out. -/
def Event.stripped : Event → Event
  | opening tag => opening tag.stripped
  | selfClosing tag => selfClosing tag.stripped
  | event => event

/-- Whether an event is left out wherever it stands. -/
def Event.isLeftOut : Event → Bool
  | opening tag | selfClosing tag => isDroppedElement tag.name
  | text raw => raw.toList.all Text.isAsciiBlank
  | closing _ | cdata _ => false
  | comment _ | doctype _ | instruction _ => true

/-- What is to be left of events while the given elements are open. An event goes if it stands in an
element that is left out, with that element's closing tag, or is left out itself. -/
def shown (names : List String) : List Event → List Event
  | [] => []
  | event :: events =>
    let rest := shown (event.openAfter names) events
    if names.any isDroppedElement || event.isLeftOut then rest else event.stripped :: rest

/-- Whether there is nothing in an event that a cleanup leaves out. -/
structure Event.Clean (event : Event) : Prop where
  shows : event.isLeftOut = false
  attributes : ∀ tag ∈ event.tag?, ∀ a ∈ tag.attributes, isDroppedAttribute a.key = false

/-- Whether the tags of a text can be written again whatever else it holds: they are bare, and no
byte order mark may come to stand at the start. -/
structure Plain (text : String) : Prop where
  bare : ∀ event ∈ (read text).events, ∀ tag ∈ event.tag?, tag.Bare
  unmarked : '\uFEFF' ∉ text.toList

/-- How many elements are open from the outermost one that is left out. -/
def skipped : List String → Nat
  | [] => 0
  | name :: names => if 0 < skipped names || isDroppedElement name then skipped names + 1 else 0

theorem skipped_pos_iff {names : List String} : 0 < skipped names ↔ names.any isDroppedElement := by
  induction names with
  | nil => simp [skipped]
  | cons name names ih =>
    rw [List.any_cons, Bool.or_eq_true, ← ih, skipped]
    split
    next h => simpa [or_comm] using h
    next h => simpa [or_comm] using h

theorem any_of_skipped_eq_zero {names : List String} (h : 0 = skipped names) :
    names.any isDroppedElement = false := by
  rw [← Bool.not_eq_true, ← skipped_pos_iff, ← h]
  exact Nat.lt_irrefl 0

theorem skipped_cons_of_dropped {name : String} {names : List String}
    (h : 0 < skipped names ∨ isDroppedElement name) :
    skipped (name :: names) = skipped names + 1 := by
  rw [skipped, if_pos (by simpa using h)]

theorem skipped_cons_of_shown {name : String} {names : List String} (hnames : 0 = skipped names)
    (h : isDroppedElement name = false) : skipped (name :: names) = 0 := by
  rw [skipped, if_neg (by simp [← hnames, h])]

theorem skipped_tail (names : List String) : skipped names.tail = skipped names - 1 := by
  cases names with
  | nil => rfl
  | cons name names =>
    rw [List.tail_cons, skipped]
    split
    next => rfl
    next h =>
      have hnames : ¬ 0 < skipped names := fun hpos => h (by simp [hpos])
      omega

/-- What a cleanup keeps of an event is what is to be left of it, and its count goes on as that of
the elements that are open. -/
theorem Cleanup.Keeps.shown {depth depth' : Nat} {names : List String} {event : Event}
    {front : List Event} (h : Keeps depth event front depth') (hdepth : depth = skipped names) :
    depth' = skipped (event.openAfter names) ∧
      front = if names.any isDroppedElement || event.isLeftOut then [] else [event.stripped] := by
  have hhidden (h : 0 < depth ∨ event.isLeftOut) :
      (names.any isDroppedElement || event.isLeftOut) = true := by
    rwa [Bool.or_eq_true, ← skipped_pos_iff, ← hdepth]
  cases h with
  | enter hname =>
    rw [if_pos (hhidden hname)]
    refine ⟨?_, rfl⟩
    rw [hdepth] at hname ⊢
    exact (skipped_cons_of_dropped hname).symm
  | opening hname hclean =>
    obtain ⟨-, rfl⟩ := cleanTag_eq_ok_iff.1 hclean
    rw [any_of_skipped_eq_zero hdepth, Event.isLeftOut, hname]
    exact ⟨(skipped_cons_of_shown hdepth hname).symm, rfl⟩
  | skip hname =>
    rw [if_pos (hhidden hname)]
    exact ⟨hdepth, rfl⟩
  | selfClosing hname hclean =>
    obtain ⟨-, rfl⟩ := cleanTag_eq_ok_iff.1 hclean
    rw [any_of_skipped_eq_zero hdepth, Event.isLeftOut, hname]
    exact ⟨hdepth, rfl⟩
  | leave =>
    rw [if_pos (hhidden (.inl (Nat.succ_pos _))), Event.openAfter, skipped_tail, ← hdepth]
    exact ⟨rfl, rfl⟩
  | closing =>
    rw [any_of_skipped_eq_zero hdepth, Event.openAfter, skipped_tail, ← hdepth]
    exact ⟨rfl, rfl⟩
  | hideText hblank =>
    rw [if_pos (hhidden hblank)]
    exact ⟨hdepth, rfl⟩
  | text hshows =>
    rw [any_of_skipped_eq_zero hdepth, Event.isLeftOut, hshows]
    exact ⟨hdepth, rfl⟩
  | hideData hpos =>
    rw [if_pos (hhidden (.inl hpos))]
    exact ⟨hdepth, rfl⟩
  | data =>
    rw [any_of_skipped_eq_zero hdepth]
    exact ⟨hdepth, rfl⟩
  | comment | doctype | instruction =>
    rw [if_pos (hhidden (.inr rfl))]
    exact ⟨hdepth, rfl⟩

theorem shown_cons (names : List String) (event : Event) (events : List Event) :
    shown names (event :: events) =
      (if names.any isDroppedElement || event.isLeftOut then [] else [event.stripped]) ++
        shown (event.openAfter names) events := by
  rw [shown]
  split <;> rfl

/-- A cleanup that comes to its end has kept what is to be left. -/
theorem keep_eq_shown {depth : Nat} {names : List String} {events kept : List Event}
    (hdepth : depth = skipped names) (h : keep depth events = .ok kept) :
    kept = shown names events := by
  induction events generalizing depth names kept with
  | nil => exact (Except.ok.inj h).symm
  | cons event events ih =>
    obtain ⟨front, depth', rest, hkeeps, hkeep, rfl⟩ := keeps_of_keep h
    obtain ⟨hdepth', hfront⟩ := hkeeps.shown hdepth
    rw [shown_cons, hfront, ih hdepth' hkeep]

/-- What a cleanup that succeeds has done. -/
theorem of_cleanup {text cleaned : String} (h : cleanup text = .ok cleaned) :
    ∃ kept, (read text).cleaned = .ok kept ∧ cleaned = .ofList (kept.flatMap (·.chars)) := by
  rw [cleanup] at h
  cases hcleaned : (read text).cleaned with
  | error error =>
    rw [hcleaned] at h
    cases h
  | ok kept =>
    rw [hcleaned] at h
    exact ⟨kept, rfl, (Except.ok.inj h).symm⟩

theorem Tag.Bare.stripped {tag : Tag} (h : tag.Bare) : tag.stripped.Bare :=
  ⟨h.name, fun a ha => h.attributes a (List.mem_of_mem_filter ha)⟩

theorem exists_of_mem_shown {names : List String} {events : List Event} {event : Event}
    (h : event ∈ shown names events) :
    ∃ original ∈ events, original.isLeftOut = false ∧ event = original.stripped := by
  induction events generalizing names with
  | nil => cases h
  | cons first events ih =>
    rw [shown_cons, List.mem_append] at h
    rcases h with hfirst | hrest
    · split at hfirst
      next => cases hfirst
      next hshows =>
        rw [Bool.or_eq_true, not_or] at hshows
        exact ⟨first, by simp, by simpa using hshows.2, List.mem_singleton.1 hfirst⟩
    · obtain ⟨original, hmem, horiginal⟩ := ih hrest
      exact ⟨original, List.mem_cons_of_mem first hmem, horiginal⟩

theorem clean_stripped {event : Event} (h : event.isLeftOut = false) : event.stripped.Clean := by
  have hfilter : ∀ tag : Tag, ∀ a ∈ tag.stripped.attributes, isDroppedAttribute a.key = false := by
    intro tag a ha
    simpa using (List.mem_filter.1 ha).2
  cases event with
  | opening tag | selfClosing tag =>
    refine ⟨h, ?_⟩
    rintro stripped hstripped
    obtain rfl := Option.some.inj hstripped
    exact hfilter tag
  | _ => exact ⟨h, by rintro tag ⟨⟩⟩

/-- Texts that are not blank do not become blank when they are made one. -/
theorem clean_joinTexts {events : List Event} (h : ∀ event ∈ events, event.Clean) :
    ∀ event ∈ joinTexts events, event.Clean := by
  refine forall_joinTexts (fun a b ha _ => ⟨?_, by rintro tag ⟨⟩⟩) h
  have hshows : a.toList.all Text.isAsciiBlank = false := ha.shows
  rw [Event.isLeftOut, String.toList_append, List.all_append, hshows, Bool.false_and]

/-- There is nothing to leave out of clean events. -/
theorem keep_of_clean {events : List Event} (hclean : ∀ event ∈ events, event.Clean)
    (hlegible : ∀ event ∈ events, event.Legible) : keep 0 events = .ok events := by
  induction events with
  | nil => rfl
  | cons event events ih =>
    obtain ⟨hfirst, hclean⟩ := List.forall_mem_cons.1 hclean
    obtain ⟨hlegibleFirst, hlegible⟩ := List.forall_mem_cons.1 hlegible
    have hrest := ih hclean hlegible
    have htag : ∀ tag ∈ event.tag?, tag.fault? = none → cleanTag tag = .ok tag := by
      intro tag htag hfault
      refine cleanTag_eq_ok_iff.2 ⟨hfault, ?_⟩
      rw [List.filter_eq_self.2 fun a ha => by simp [hfirst.attributes tag htag a ha]]
    obtain ⟨hshows, -⟩ := hfirst
    cases event with
    | opening tag =>
      change isDroppedElement tag.name = false at hshows
      simp [keep, hshows, htag tag rfl hlegibleFirst.2.1, hrest, Except.map]
    | selfClosing tag =>
      change isDroppedElement tag.name = false at hshows
      simp [keep, hshows, htag tag rfl hlegibleFirst.2.1, hrest, Except.map]
    | closing name => simp [keep, hrest, Except.map]
    | text raw =>
      change raw.toList.all Text.isAsciiBlank = false at hshows
      rw [keep, hshows, hrest]
      rfl
    | cdata raw => simp [keep, hrest, Except.map]
    | comment raw | doctype raw | instruction raw => cases hshows

/-- A bare tag can be written. -/
theorem Event.Kept.legible {event : Event} (h : event.Kept)
    (hbare : ∀ tag ∈ event.tag?, tag.Bare) : event.Legible := by
  refine h.legible_iff.2 ?_
  cases event with
  | opening tag =>
    have hbare := hbare tag rfl
    exact ⟨fun a ha => (hbare.attributes a ha).2, hbare.seals.delimited, hbare.seals.last⟩
  | selfClosing tag =>
    have hbare := hbare tag rfl
    refine ⟨fun a ha => (hbare.attributes a ha).2, hbare.seals.delimited, ?_⟩
    exact List.append_ne_nil_of_left_ne_nil hbare.name.nonempty _
  | _ => trivial

/-- Written events begin with a byte order mark only if a text among them does. -/
theorem dropMark_of_unmarked {events : List Event} (hkept : ∀ event ∈ events, event.Kept)
    (hmark : ∀ raw, .text raw ∈ events → '\uFEFF' ∉ raw.toList) :
    dropMark (events.flatMap (·.chars)) = events.flatMap (·.chars) := by
  cases events with
  | nil => rfl
  | cons event events =>
    rw [List.flatMap_cons]
    by_cases htext : event.isText
    · cases event with
      | text raw =>
        have hraw := hmark raw (by simp)
        change dropMark (raw.toList ++ _) = raw.toList ++ _
        cases hchars : raw.toList with
        | nil => exact absurd hchars (hkept (.text raw) (by simp)).1
        | cons c tail => exact dropMark_of_ne (fun hc => hraw (by simp [hchars, hc])) _
      | _ => cases htext
    · obtain ⟨tail, htail⟩ := chars_of_not_isText (Bool.eq_false_iff.2 htext)
      rw [htail]
      exact dropMark_of_ne (by decide) _

/-- A plain text that has been cleaned is read as what was to be left of it, with the texts joined
that nothing stands between any more. So there is nothing more to leave out, and another cleanup
changes nothing. -/
theorem cleanup_leaves_shown {text cleaned : String} (hplain : Plain text)
    (h : cleanup text = .ok cleaned) :
    read cleaned = ⟨joinTexts (shown [] (read text).events), none⟩ ∧
      (∀ event ∈ (read cleaned).events, event.Clean) ∧ cleanup cleaned = .ok cleaned := by
  obtain ⟨kept, hcleaned, rfl⟩ := of_cleanup h
  obtain ⟨hkept, hnested⟩ := kept_of_cleaned hcleaned
  have hshown : kept = shown [] (read text).events :=
    keep_eq_shown rfl (cleaned_eq_ok_iff.1 hcleaned).2
  have horiginal : ∀ event ∈ kept, ∃ original ∈ (read text).events,
      original.isLeftOut = false ∧ event = original.stripped := fun event hevent =>
    exists_of_mem_shown (hshown ▸ hevent)
  have hclean : ∀ event ∈ joinTexts kept, event.Clean := by
    refine clean_joinTexts fun event hevent => ?_
    obtain ⟨original, -, hshows, rfl⟩ := horiginal event hevent
    exact clean_stripped hshows
  have hlegible : ∀ event ∈ kept, event.Legible := by
    intro event hevent
    refine (hkept event hevent).legible fun tag htag => ?_
    obtain ⟨original, hmem, -, rfl⟩ := horiginal event hevent
    cases original with
    | opening before | selfClosing before =>
      obtain rfl := Option.some.inj htag
      exact (hplain.bare _ hmem before rfl).stripped
    | _ => cases htag
  have hmark : ∀ raw, .text raw ∈ kept → '\uFEFF' ∉ raw.toList := by
    intro raw hraw hmem
    obtain ⟨original, horiginal, -, heq⟩ := horiginal _ hraw
    cases original with
    | text before =>
      obtain rfl := Event.text.inj heq
      have hstands := text_stands _ horiginal
      rw [dropMark_of_not_mem hplain.unmarked] at hstands
      exact hplain.unmarked (hstands.subset hmem)
    | _ => cases heq
  have hwritable := writable_joinTexts hnested hlegible
  have hread : read (.ofList (kept.flatMap (·.chars))) = ⟨joinTexts kept, none⟩ := by
    have hwritten : readFrom [] ((joinTexts kept).flatMap (·.chars) ++ []) = _ :=
      readFrom_written hwritable.nested hwritable.legible hwritable.separated (by simp)
    rw [chars_joinTexts, List.append_nil, readFrom_nil, Reading.prepend, List.append_nil]
      at hwritten
    rw [read, String.toList_ofList, dropMark_of_unmarked hkept hmark, hwritten]
  refine ⟨hshown ▸ hread, ?_, ?_⟩
  · rwa [hread]
  · rw [cleanup, hread, Reading.cleaned, keep_of_clean hclean hwritable.legible]
    simp only [Except.map, chars_joinTexts]

theorem plain_titled_drawing :
    Plain "<svg inkscape:label='A'>a<title>T<desc/></title>b<!--c--><g id='g'/> </svg>" := by
  have hread : read "<svg inkscape:label='A'>a<title>T<desc/></title>b<!--c--><g id='g'/> </svg>" =
      ⟨[.opening ⟨"svg", [⟨"inkscape:label", "A"⟩], none⟩, .text "a", .opening ⟨"title", [], none⟩,
        .text "T", .selfClosing ⟨"desc", [], none⟩, .closing "title", .text "b", .comment "c",
        .selfClosing ⟨"g", [⟨"id", "g"⟩], none⟩, .text " ", .closing "svg"], none⟩ := by
    decide +kernel
  refine ⟨?_, by decide +kernel⟩
  rw [hread]
  intro event hevent tag htag
  have htags : tag ∈ [⟨"svg", [⟨"inkscape:label", "A"⟩], none⟩, ⟨"title", [], none⟩,
      ⟨"desc", [], none⟩, ⟨"g", [⟨"id", "g"⟩], none⟩] := by
    have hmem := List.mem_filterMap.2 ⟨event, hevent, htag⟩
    exact hmem
  simp only [List.mem_cons, List.not_mem_nil, or_false] at htags
  rcases htags with rfl | rfl | rfl | rfl
  · exact ⟨⟨by decide, by decide⟩,
      List.forall_mem_singleton.2 ⟨⟨by decide, by decide⟩, by decide⟩⟩
  · exact ⟨⟨by decide, by decide⟩, by simp⟩
  · exact ⟨⟨by decide, by decide⟩, by simp⟩
  · exact ⟨⟨by decide, by decide⟩,
      List.forall_mem_singleton.2 ⟨⟨by decide, by decide⟩, by decide⟩⟩

/-- A title goes with all that is in it, and the texts around it become one. -/
theorem cleanup_leaves_shown_titled_drawing :
    Plain "<svg inkscape:label='A'>a<title>T<desc/></title>b<!--c--><g id='g'/> </svg>" ∧
      cleanup "<svg inkscape:label='A'>a<title>T<desc/></title>b<!--c--><g id='g'/> </svg>" =
        .ok "<svg>ab<g id=\"g\"/></svg>" ∧
      read "<svg>ab<g id=\"g\"/></svg>" =
        ⟨[.opening ⟨"svg", [], none⟩, .text "ab", .selfClosing ⟨"g", [⟨"id", "g"⟩], none⟩,
          .closing "svg"], none⟩ ∧
      cleanup "<svg>ab<g id=\"g\"/></svg>" = .ok "<svg>ab<g id=\"g\"/></svg>" := by
  have hcleaned : cleanup
      "<svg inkscape:label='A'>a<title>T<desc/></title>b<!--c--><g id='g'/> </svg>" =
        .ok "<svg>ab<g id=\"g\"/></svg>" := by
    decide +kernel
  obtain ⟨hread, -, hagain⟩ := cleanup_leaves_shown plain_titled_drawing hcleaned
  refine ⟨plain_titled_drawing, hcleaned, hread.trans ?_, hagain⟩
  decide +kernel

end Pictogram.Markup
