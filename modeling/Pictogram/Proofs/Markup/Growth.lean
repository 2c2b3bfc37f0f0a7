import Mathlib.Data.List.Basic
import Pictogram.Markup.Forest

/-!
Growing trees from events, one event at a time: what becomes of the innermost open element, and when
an event can be taken in.
-/

namespace Pictogram.Markup

theorem decodeAttributes_cons_eq_ok_iff {fault? : Option AttributeFault} {a : RawAttribute}
    {attributes : List RawAttribute} {decoded : List Attribute} :
    decodeAttributes fault? (a :: attributes) = .ok decoded ↔
      ∃ value more, decode a.raw = .ok value ∧ decodeAttributes fault? attributes = .ok more ∧
        decoded = ⟨a.key, value⟩ :: more := by
  rw [decodeAttributes]
  cases decode a.raw with
  | error fault => simp
  | ok value => cases decodeAttributes fault? attributes <;> simp [Except.map, eq_comm]

theorem fault_of_decodeAttributes {fault? : Option AttributeFault} {attributes : List RawAttribute}
    {decoded : List Attribute} (h : decodeAttributes fault? attributes = .ok decoded) :
    fault? = none := by
  induction attributes generalizing decoded with
  | nil =>
    simp only [decodeAttributes] at h
    split at h
    · cases h
    · rfl
  | cons a attributes ih =>
    obtain ⟨value, more, -, hmore, -⟩ := decodeAttributes_cons_eq_ok_iff.1 h
    exact ih hmore

theorem element_eq_ok_iff {tag : Tag} {e : Element} :
    tag.element = .ok e ↔
      ∃ attributes, decodeAttributes tag.fault? tag.attributes = .ok attributes ∧
        e = { tag := tag.name, attributes } := by
  rw [Tag.element]
  cases decodeAttributes tag.fault? tag.attributes <;> simp [Except.map, eq_comm]

/-- A tag that begins an element is named as the element and has no fault. -/
theorem of_element {tag : Tag} {e : Element} (h : tag.element = .ok e) :
    e.tag = tag.name ∧ tag.fault? = none := by
  obtain ⟨attributes, hdecode, rfl⟩ := element_eq_ok_iff.1 h
  exact ⟨rfl, fault_of_decodeAttributes hdecode⟩

namespace Growth

variable {g next : Growth} {e parent : Element} {outer : List Element} {tag : Tag}

theorem attach_of_nil (h : g.enclosing = []) :
    g.attach e = { g with complete := g.complete ++ [e] } := by
  rw [attach, h]

theorem attach_of_cons (h : g.enclosing = parent :: outer) :
    g.attach e = { g with enclosing := parent.addChild e :: outer } := by
  rw [attach, h]

theorem addText_of_nil (h : g.enclosing = []) (text : String) : g.addText text = g := by
  rw [addText, h]

theorem addText_of_cons (h : g.enclosing = parent :: outer) (text : String) :
    g.addText text = { g with enclosing := parent.appendText text :: outer } := by
  rw [addText, h]

theorem run_cons (g : Growth) (event : Event) (events : List Event) :
    g.run (event :: events) = (g.step event).bind (·.run events) := by
  rw [run]
  cases g.step event <;> rfl

theorem run_cons_of_step {event : Event} (h : g.step event = .ok next) (events : List Event) :
    g.run (event :: events) = next.run events := by
  rw [run_cons, h]
  rfl

theorem addText_addText (g : Growth) (a b : String) :
    (g.addText a).addText b = g.addText (a ++ b) := by
  cases h : g.enclosing with
  | nil => simp [addText, h]
  | cons e outer => simp [addText, h, Element.appendText, String.append_assoc]

theorem enclosing_addText (g : Growth) (text : String) :
    (g.addText text).enclosing.isEmpty = g.enclosing.isEmpty := by
  cases h : g.enclosing with
  | nil => simp [addText, h]
  | cons e outer => simp [addText, h]

/-- Inside an element a text is decoded and added. -/
theorem step_text_eq_ok_iff {g next : Growth} {raw : String} :
    g.step (.text raw) = .ok next ↔
      (g.enclosing = [] ∧ next = g) ∨
        (g.enclosing ≠ [] ∧ ∃ text, decode raw = .ok text ∧ next = g.addText text) := by
  rw [step]
  cases h : g.enclosing with
  | nil =>
    simp only [List.isEmpty_nil, if_true, Except.ok.injEq, true_and, ne_eq, not_true_eq_false,
      false_and, or_false]
    exact eq_comm
  | cons e outer =>
    cases hd : decode raw with
    | error fault => simp
    | ok text =>
      simp only [List.isEmpty_cons, Bool.false_eq_true, if_false, Except.ok.injEq, reduceCtorEq,
        false_and, ne_eq, not_false_eq_true, true_and, false_or, exists_eq_left']
      exact eq_comm

/-- A text that can be decoded is added, or it stands outside all elements. -/
theorem step_text_of_decode {raw text : String} (h : decode raw = .ok text) :
    g.step (.text raw) = .ok (g.addText text) := by
  cases henclosing : g.enclosing with
  | nil =>
    rw [addText_of_nil henclosing]
    exact step_text_eq_ok_iff.2 (.inl ⟨henclosing, rfl⟩)
  | cons parent outer =>
    exact step_text_eq_ok_iff.2 (.inr ⟨by simp [henclosing], text, h, rfl⟩)

theorem step_opening_eq_ok_iff :
    g.step (.opening tag) = .ok next ↔
      ∃ e, tag.element = .ok e ∧ next = { g with enclosing := e :: g.enclosing } := by
  rw [step]
  cases tag.element <;> simp [Except.map, eq_comm]

theorem step_selfClosing_eq_ok_iff :
    g.step (.selfClosing tag) = .ok next ↔ ∃ e, tag.element = .ok e ∧ next = g.attach e := by
  rw [step]
  cases tag.element <;> simp [Except.map, eq_comm]

theorem run_singleton {event : Event} (h : g.step event = .ok next) : g.run [event] = .ok next :=
  run_cons_of_step h []

theorem step_closing_of_cons (h : g.enclosing = e :: outer) (name : String) :
    g.step (.closing name) = .ok ({ g with enclosing := outer }.attach e) := by
  rw [step, h]

theorem step_closing_of_nil (h : g.enclosing = []) (name : String) :
    g.step (.closing name) = .ok g := by
  rw [step, h]

/-- Where the first events can be taken in, the rest follows them. -/
theorem run_append {events : List Event} (h : g.run events = .ok next) (more : List Event) :
    g.run (events ++ more) = next.run more := by
  induction events generalizing g with
  | nil =>
    obtain rfl := Except.ok.inj h
    rfl
  | cons event events ih =>
    rw [run_cons] at h
    cases hstep : g.step event with
    | error e =>
      rw [hstep] at h
      cases h
    | ok g' =>
      rw [hstep] at h
      rw [List.cons_append, run_cons, hstep]
      exact ih h

theorem exists_run_of_append {events more : List Event} (h : g.run (events ++ more) = .ok next) :
    ∃ middle, g.run events = .ok middle ∧ middle.run more = .ok next := by
  induction events generalizing g with
  | nil => exact ⟨g, rfl, h⟩
  | cons event events ih =>
    rw [List.cons_append, run_cons] at h
    cases hstep : g.step event with
    | error e =>
      rw [hstep] at h
      cases h
    | ok g' =>
      rw [hstep] at h
      obtain ⟨middle, hmiddle, hnext⟩ := ih h
      refine ⟨middle, ?_, hnext⟩
      rw [run_cons, hstep]
      exact hmiddle

/-- Text outside all elements is lost. -/
theorem run_text_of_top (raw : String) (events : List Event) :
    run {} (.text raw :: events) = run {} events :=
  rfl

end Growth

theorem forest_eq_ok_iff {reading : Reading} {forest : List Element} :
    reading.forest = .ok forest ↔
      reading.error? = none ∧
        Growth.run {} reading.events = .ok { enclosing := [], complete := forest } := by
  rw [Reading.forest]
  cases hrun : Growth.run {} reading.events with
  | error e => simp
  | ok g =>
    obtain ⟨enclosing, complete⟩ := g
    cases herror : reading.error? <;> cases enclosing <;> simp

end Pictogram.Markup
