import Pictogram.Proofs.Markup.Content
import Pictogram.Proofs.Markup.Reading

/-!
What becomes of a reading. Either it is broken, in one of a few ways that its events show, or its
events are the content of a forest and the drawing is the first of the forest.
-/

namespace Pictogram.Markup

/-- Whether a tag begins no element: its attribute list has a fault, or a value in front of the fault
cannot be decoded. -/
def Tag.Faulty (tag : Tag) : Prop :=
  tag.fault? ≠ none ∨ ∃ a ∈ tag.attributes, ∃ fault, decode a.raw = .error fault

/-- Whether an event cannot be taken in while the given elements are open: a faulty tag, or a text
inside an element that cannot be decoded. -/
def Event.Refused (names : List String) : Event → Prop
  | opening tag => tag.Faulty
  | selfClosing tag => tag.Faulty
  | text raw => names ≠ [] ∧ ∃ fault, decode raw = .error fault
  | _ => False

/-- Whether a reading has no forest: the text could not be read to its end, an event is refused
where it stands, or an element is still open at the end. -/
inductive Reading.Broken (reading : Reading) : Prop
  | unreadable (h : reading.error? ≠ none)
  | refused {before after : List Event} {event : Event}
    (h : reading.events = before ++ event :: after)
    (hrefused : event.Refused (openAfterAll [] before))
  | unclosed (h : openAfterAll [] reading.events ≠ [])

/-- Whether an element is the first drawing of a forest, parents before children. -/
def IsFirstDrawing (forest : List Element) (e : Element) : Prop :=
  ∃ before after, Element.preorderAll forest = before ++ e :: after ∧ isDrawing e ∧
    ∀ d ∈ before, isDrawing d = false

theorem drawing?_eq_some_iff {forest : List Element} {e : Element} :
    drawing? forest = some e ↔ IsFirstDrawing forest e := by
  rw [drawing?, List.find?_eq_some_iff_append]
  constructor
  · rintro ⟨he, before, after, heq, hbefore⟩
    exact ⟨before, after, heq, he, fun d hd => by simpa using hbefore d hd⟩
  · rintro ⟨before, after, heq, he, hbefore⟩
    exact ⟨he, before, after, heq, fun d hd => by simpa using hbefore d hd⟩

theorem drawing?_eq_none_iff {forest : List Element} :
    drawing? forest = none ↔ ∀ e ∈ Element.preorderAll forest, isDrawing e = false := by
  rw [drawing?, List.find?_eq_none]
  simp

theorem decodeAttributes_eq_error_iff {fault? : Option AttributeFault}
    {written : List RawAttribute} :
    (∃ error, decodeAttributes fault? written = .error error) ↔
      fault? ≠ none ∨ ∃ a ∈ written, ∃ fault, decode a.raw = .error fault := by
  induction written with
  | nil => cases fault? <;> simp [decodeAttributes]
  | cons a written ih =>
    rw [decodeAttributes, List.exists_mem_cons_iff, or_left_comm, ← ih]
    cases decode a.raw with
    | error fault => simp
    | ok value => cases decodeAttributes fault? written <;> simp [Except.map]

theorem element_eq_error_iff {tag : Tag} : (∃ error, tag.element = .error error) ↔ tag.Faulty := by
  rw [Tag.Faulty, ← decodeAttributes_eq_error_iff, Tag.element]
  cases decodeAttributes tag.fault? tag.attributes <;> simp [Except.map]

namespace Growth

variable {g next : Growth} {event : Event} {events : List Event}

/-- The names of the open elements, innermost first. -/
def tags (g : Growth) : List String :=
  g.enclosing.map (·.tag)

theorem tags_absorb (g : Growth) (es : List Element) (text : Option String) :
    (g.absorb es text).tags = g.tags := by
  cases h : g.enclosing <;> simp [tags, absorb, h]

theorem step_eq_error_iff : (∃ error, g.step event = .error error) ↔ event.Refused g.tags := by
  cases event with
  | opening tag =>
    rw [Event.Refused, ← element_eq_error_iff, step]
    cases tag.element <;> simp [Except.map]
  | selfClosing tag =>
    rw [Event.Refused, ← element_eq_error_iff, step]
    cases tag.element <;> simp [Except.map]
  | closing name => cases h : g.enclosing <;> simp [step, h, Event.Refused]
  | text raw =>
    rw [Event.Refused, step]
    cases h : g.enclosing with
    | nil => simp [tags, h]
    | cons parent outer => cases decode raw <;> simp [tags, h]
  | cdata raw | comment raw | doctype raw | instruction raw => simp [step, Event.Refused]

/-- The open elements are those that the tags have left open. -/
theorem tags_step (h : g.step event = .ok next) : next.tags = event.openAfter g.tags := by
  cases event with
  | opening tag =>
    obtain ⟨e, he, rfl⟩ := step_opening_eq_ok_iff.1 h
    exact congrArg (· :: g.tags) (of_element he).1
  | selfClosing tag =>
    obtain ⟨e, -, rfl⟩ := step_selfClosing_eq_ok_iff.1 h
    rw [attach_eq_absorb, tags_absorb]
    rfl
  | closing name =>
    cases henclosing : g.enclosing with
    | nil =>
      rw [step_closing_of_nil henclosing] at h
      obtain rfl := Except.ok.inj h
      simp [tags, henclosing, Event.openAfter]
    | cons parent outer =>
      rw [step_closing_of_cons henclosing] at h
      obtain rfl := Except.ok.inj h
      rw [attach_eq_absorb, tags_absorb]
      simp [tags, henclosing, Event.openAfter]
  | text raw =>
    rcases step_text_eq_ok_iff.1 h with ⟨-, rfl⟩ | ⟨-, text, -, rfl⟩
    · rfl
    · rw [addText_eq_absorb, tags_absorb]
      rfl
  | cdata raw =>
    obtain rfl := Except.ok.inj h
    rw [addText_eq_absorb, tags_absorb]
    rfl
  | comment raw | doctype raw | instruction raw =>
    obtain rfl := Except.ok.inj h
    rfl

theorem tags_run (h : g.run events = .ok next) : next.tags = openAfterAll g.tags events := by
  induction events generalizing g with
  | nil =>
    obtain rfl := Except.ok.inj h
    rfl
  | cons event events ih =>
    rw [run_cons] at h
    cases hstep : g.step event with
    | error error =>
      rw [hstep] at h
      cases h
    | ok middle =>
      rw [hstep] at h
      rw [ih h, tags_step hstep]
      rfl

/-- A run fails exactly where an event is refused. -/
theorem run_eq_error_iff : (∃ error, g.run events = .error error) ↔
    ∃ before event after, events = before ++ event :: after ∧
      event.Refused (openAfterAll g.tags before) := by
  induction events generalizing g with
  | nil => simp [run]
  | cons first events ih =>
    rw [run_cons]
    cases hstep : g.step first with
    | error error =>
      have hrefused := step_eq_error_iff.1 ⟨error, hstep⟩
      simp only [Except.bind, Except.error.injEq, exists_eq', true_iff]
      exact ⟨[], first, events, rfl, hrefused⟩
    | ok middle =>
      have htags := tags_step hstep
      simp only [Except.bind]
      rw [ih]
      constructor
      · rintro ⟨before, event, after, rfl, hrefused⟩
        rw [htags] at hrefused
        exact ⟨first :: before, event, after, rfl, hrefused⟩
      · rintro ⟨before, event, after, heq, hrefused⟩
        cases before with
        | nil =>
          obtain ⟨rfl, rfl⟩ := List.cons.inj heq
          obtain ⟨error, herror⟩ := step_eq_error_iff.2 hrefused
          rw [hstep] at herror
          cases herror
        | cons second before =>
          obtain ⟨rfl, rfl⟩ := List.cons.inj heq
          refine ⟨before, event, after, rfl, ?_⟩
          rw [htags]
          exact hrefused

end Growth

/-- A reading has no forest exactly if it is broken. -/
theorem forest_eq_error_iff {reading : Reading} :
    (∃ error, reading.forest = .error error) ↔ reading.Broken := by
  constructor
  · rintro ⟨error, h⟩
    cases hrun : Growth.run {} reading.events with
    | error error =>
      obtain ⟨before, event, after, heq, hrefused⟩ := Growth.run_eq_error_iff.1 ⟨error, hrun⟩
      exact .refused heq hrefused
    | ok g =>
      by_cases herror : reading.error? = none
      · refine .unclosed fun hopen => ?_
        have htags : g.tags = [] := (Growth.tags_run hrun).trans hopen
        obtain ⟨enclosing, complete⟩ := g
        obtain rfl : enclosing = [] := List.map_eq_nil_iff.1 htags
        rw [forest_eq_ok_iff.2 ⟨herror, hrun⟩] at h
        cases h
      · exact .unreadable herror
  · intro hbroken
    cases hforest : reading.forest with
    | error error => exact ⟨error, rfl⟩
    | ok forest =>
      obtain ⟨herror, hrun⟩ := forest_eq_ok_iff.1 hforest
      cases hbroken with
      | unreadable h => exact absurd herror h
      | refused heq hrefused =>
        obtain ⟨error, hfail⟩ :=
          (Growth.run_eq_error_iff (g := {})).2 ⟨_, _, _, heq, hrefused⟩
        rw [hrun] at hfail
        cases hfail
      | unclosed h => exact absurd (Growth.tags_run hrun).symm h

/-- What has been begun: the content of the top level, and for every open element its tag and the
content behind it. -/
inductive Begun : List Event → Growth → Prop
  | top {events : List Event} {complete : List Element} {own : Option String}
    (h : Content false events complete own) : Begun events { enclosing := [], complete }
  | inner {before events : List Event} {g : Growth} {tag : Tag} {attributes : List Attribute}
    {children : List Element} {text : Option String} (hbefore : Begun before g)
    (htag : tag.Decodes attributes) (h : Content true events children text) :
    Begun (before ++ .opening tag :: events)
      { g with enclosing := ⟨tag.name, attributes, children, text⟩ :: g.enclosing }

namespace Begun

variable {before events : List Event} {g next : Growth}

/-- What is content of the innermost element is taken in there. -/
theorem absorb {es : List Element} {own : Option String} (h : Begun before g)
    (hevents : ∀ inside : Bool, (g.enclosing = [] → inside = false) → Content inside events es own) :
    Begun (before ++ events) (g.absorb es own) := by
  cases h with
  | top hcontent => exact .top (hcontent.append (hevents false fun _ => rfl))
  | inner hbefore htag hcontent =>
    rw [List.append_assoc, List.cons_append]
    exact .inner hbefore htag (hcontent.append (hevents true (by simp)))

/-- A closing tag makes an element of what has been begun last. -/
theorem step_closing {name : String} (h : Begun before g) (hname : g.tags.head? = some name)
    (hstep : g.step (.closing name) = .ok next) : Begun (before ++ [.closing name]) next := by
  cases h with
  | top => cases hname
  | @inner before events g tag attributes children text hbefore htag hcontent =>
    obtain rfl : tag.name = name := by simpa [Growth.tags] using hname
    rw [Growth.step_closing_of_cons rfl] at hstep
    obtain rfl := Except.ok.inj hstep
    rw [Growth.attach_eq_absorb, List.append_assoc, List.cons_append]
    exact hbefore.absorb fun _ _ => .element htag hcontent .nil

theorem step {event : Event} (h : Begun before g) (hstep : g.step event = .ok next)
    (hclosing : ∀ name, event = .closing name → g.tags.head? = some name) :
    Begun (before ++ [event]) next := by
  cases event with
  | opening tag =>
    obtain ⟨e, he, rfl⟩ := Growth.step_opening_eq_ok_iff.1 hstep
    obtain ⟨attributes, htag, rfl⟩ := element_eq_ok_iff_decodes.1 he
    exact .inner h htag .nil
  | selfClosing tag =>
    obtain ⟨e, he, rfl⟩ := Growth.step_selfClosing_eq_ok_iff.1 hstep
    obtain ⟨attributes, htag, rfl⟩ := element_eq_ok_iff_decodes.1 he
    rw [Growth.attach_eq_absorb]
    exact h.absorb fun _ _ => .selfClosing htag .nil
  | closing name => exact h.step_closing (hclosing name rfl) hstep
  | text raw =>
    rcases Growth.step_text_eq_ok_iff.1 hstep with ⟨htop, rfl⟩ | ⟨-, text, hdecode, rfl⟩
    · have hraw : ∀ inside : Bool, (next.enclosing = [] → inside = false) →
          Content inside [.text raw] [] (some "") := fun inside hinside =>
        .text (by simp [hinside htop]) .nil
      have hkept := h.absorb hraw
      rwa [Growth.absorb_of_nil htop, List.append_nil] at hkept
    · rw [Growth.addText_eq_absorb]
      exact h.absorb fun _ _ => .text (fun _ => hdecode) .nil
  | cdata raw =>
    obtain rfl := Except.ok.inj hstep
    rw [Growth.addText_eq_absorb]
    exact h.absorb fun _ _ => .cdata .nil
  | comment raw =>
    obtain rfl := Except.ok.inj hstep
    exact g.absorb_nil ▸ h.absorb fun _ _ => .comment .nil
  | doctype raw =>
    obtain rfl := Except.ok.inj hstep
    exact g.absorb_nil ▸ h.absorb fun _ _ => .doctype .nil
  | instruction raw =>
    obtain rfl := Except.ok.inj hstep
    exact g.absorb_nil ▸ h.absorb fun _ _ => .instruction .nil

/-- At every moment of a run, what stands on the stack has been begun by the events so far. -/
theorem run (h : Begun before g) (hnested : Nested g.tags events) (hrun : g.run events = .ok next) :
    Begun (before ++ events) next := by
  induction events generalizing before g with
  | nil =>
    obtain rfl := Except.ok.inj hrun
    rwa [List.append_nil]
  | cons event events ih =>
    obtain ⟨hclosing, hrest⟩ := hnested
    rw [Growth.run_cons] at hrun
    cases hstep : g.step event with
    | error error =>
      rw [hstep] at hrun
      cases hrun
    | ok middle =>
      rw [hstep] at hrun
      rw [← Growth.tags_step hstep] at hrest
      have hbegun := ih (h.step hstep hclosing) hrest hrun
      rwa [List.append_assoc] at hbegun

theorem content {forest : List Element}
    (h : Begun events { enclosing := [], complete := forest }) :
    ∃ own, Content false events forest own := by
  cases h with
  | top hcontent => exact ⟨_, hcontent⟩

end Begun

/-- The events of a text that has a forest are the content of the forest. -/
theorem content_of_forest {text : String} {forest : List Element}
    (h : (read text).forest = .ok forest) : ∃ own, Content false (read text).events forest own := by
  obtain ⟨-, hrun⟩ := forest_eq_ok_iff.1 h
  have hstart : Begun [] {} := .top .nil
  exact (hstart.run (sound_read text).2 hrun).content

theorem parse_of_forest {text : String} {forest : List Element}
    (h : (read text).forest = .ok forest) :
    (∀ e, Element.parse text = .ok e ↔ IsFirstDrawing forest e) ∧
      (Element.parse text = .error .noRoot ↔
        ∀ e ∈ Element.preorderAll forest, isDrawing e = false) := by
  rw [← drawing?_eq_none_iff, Element.parse, h]
  cases hdrawing : drawing? forest with
  | none => simp [← drawing?_eq_some_iff, hdrawing]
  | some e => simp [← drawing?_eq_some_iff, hdrawing]

/-- A text is malformed exactly if its reading is broken. -/
theorem parse_eq_malformed_iff {text : String} :
    (∃ error, Element.parse text = .error (.malformed error)) ↔ (read text).Broken := by
  rw [← forest_eq_error_iff, Element.parse]
  cases (read text).forest with
  | error error => simp
  | ok forest => cases h : drawing? forest <;> simp [h]

/-- A text is malformed exactly if its reading is broken. Any other text has a forest: its events are
the content of the forest, the elements of the forest are begun by the tags in their order, and what
is read is the first drawing with everything in it, or that there is none. -/
theorem parse_settled_by_events (text : String) :
    ((∃ error, Element.parse text = .error (.malformed error)) ↔ (read text).Broken) ∧
      (¬ (read text).Broken → ∃ forest own, (read text).forest = .ok forest ∧
        Content false (read text).events forest own ∧
        List.Forall₂ Tag.Begins ((read text).events.filterMap Event.tag?)
          (Element.preorderAll forest) ∧
        (∀ e, Element.parse text = .ok e ↔ IsFirstDrawing forest e) ∧
        (Element.parse text = .error .noRoot ↔
          ∀ e ∈ Element.preorderAll forest, isDrawing e = false)) := by
  refine ⟨parse_eq_malformed_iff, fun hbroken => ?_⟩
  cases hforest : (read text).forest with
  | error error => exact absurd (forest_eq_error_iff.1 ⟨error, hforest⟩) hbroken
  | ok forest =>
    obtain ⟨own, hcontent⟩ := content_of_forest hforest
    exact ⟨forest, own, rfl, hcontent, hcontent.preorder, parse_of_forest hforest⟩

end Pictogram.Markup
