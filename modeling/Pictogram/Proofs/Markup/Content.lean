import Mathlib.Data.List.Forall2
import Pictogram.Proofs.Markup.Growth

/-!
What events stand for as the content of an element: the elements between matching tags, one after
the other, and the text beside them. Growing trees on a stack comes to the same.
-/

namespace Pictogram

/-- Two texts of one element made one. Having no text is not the same as having an empty one. -/
def joinText : Option String → Option String → Option String
  | none, later => later
  | some first, none => some first
  | some first, some later => some (first ++ later)

theorem joinText_none (text : Option String) : joinText text none = text := by
  cases text <;> rfl

theorem joinText_assoc (a b c : Option String) :
    joinText (joinText a b) c = joinText a (joinText b c) := by
  cases a <;> cases b <;> cases c <;> simp [joinText, String.append_assoc]

namespace Markup

/-- Whether attributes are those of a tag with their values decoded. A tag with a fault has none. -/
structure Tag.Decodes (tag : Tag) (attributes : List Attribute) : Prop where
  flawless : tag.fault? = none
  values : List.Forall₂ (fun written a => a.name = written.key ∧ decode written.raw = .ok a.value)
    tag.attributes attributes

theorem decodeAttributes_eq_ok_iff {fault? : Option AttributeFault}
    {written : List RawAttribute} {attributes : List Attribute} :
    decodeAttributes fault? written = .ok attributes ↔ fault? = none ∧
      List.Forall₂ (fun written a => a.name = written.key ∧ decode written.raw = .ok a.value)
        written attributes := by
  induction written generalizing attributes with
  | nil => cases fault? <;> simp [decodeAttributes, eq_comm]
  | cons first written ih =>
    rw [decodeAttributes_cons_eq_ok_iff, List.forall₂_cons_left_iff]
    constructor
    · rintro ⟨value, more, hvalue, hmore, rfl⟩
      obtain ⟨hfault, hall⟩ := ih.1 hmore
      exact ⟨hfault, _, more, ⟨rfl, hvalue⟩, hall, rfl⟩
    · rintro ⟨hfault, a, more, ⟨hname, hvalue⟩, hall, rfl⟩
      obtain ⟨name, value⟩ := a
      obtain rfl : name = first.key := hname
      exact ⟨value, more, hvalue, ih.2 ⟨hfault, hall⟩, rfl⟩

theorem element_eq_ok_iff_decodes {tag : Tag} {e : Element} :
    tag.element = .ok e ↔
      ∃ attributes, tag.Decodes attributes ∧ e = { tag := tag.name, attributes } := by
  simp only [element_eq_ok_iff, decodeAttributes_eq_ok_iff]
  constructor
  · rintro ⟨attributes, ⟨hfault, hall⟩, rfl⟩
    exact ⟨attributes, ⟨hfault, hall⟩, rfl⟩
  · rintro ⟨attributes, ⟨hfault, hall⟩, rfl⟩
    exact ⟨attributes, ⟨hfault, hall⟩, rfl⟩

/-- The elements that events stand for, and the text beside them. An element is what stands between
its tag and the closing tag that matches it. Outside all elements, where no text is kept, it does
not matter whether a text can be decoded. -/
inductive Content : Bool → List Event → List Element → Option String → Prop
  | nil {inside : Bool} : Content inside [] [] none
  | text {inside : Bool} {raw text : String} {events : List Event} {es : List Element}
    {own : Option String} (hdecode : inside → decode raw = .ok text)
    (hrest : Content inside events es own) :
    Content inside (.text raw :: events) es (joinText (some text) own)
  | cdata {inside : Bool} {raw : String} {events : List Event} {es : List Element}
    {own : Option String} (hrest : Content inside events es own) :
    Content inside (.cdata raw :: events) es (joinText (some raw) own)
  | comment {inside : Bool} {raw : String} {events : List Event} {es : List Element}
    {own : Option String} (hrest : Content inside events es own) :
    Content inside (.comment raw :: events) es own
  | doctype {inside : Bool} {raw : String} {events : List Event} {es : List Element}
    {own : Option String} (hrest : Content inside events es own) :
    Content inside (.doctype raw :: events) es own
  | instruction {inside : Bool} {raw : String} {events : List Event} {es : List Element}
    {own : Option String} (hrest : Content inside events es own) :
    Content inside (.instruction raw :: events) es own
  | selfClosing {inside : Bool} {tag : Tag} {attributes : List Attribute} {events : List Event}
    {es : List Element} {own : Option String} (htag : tag.Decodes attributes)
    (hrest : Content inside events es own) :
    Content inside (.selfClosing tag :: events) (⟨tag.name, attributes, [], none⟩ :: es) own
  | element {inside : Bool} {tag : Tag} {attributes : List Attribute} {within events : List Event}
    {children es : List Element} {text own : Option String} (htag : tag.Decodes attributes)
    (hwithin : Content true within children text) (hrest : Content inside events es own) :
    Content inside (.opening tag :: (within ++ .closing tag.name :: events))
      (⟨tag.name, attributes, children, text⟩ :: es) own

theorem Content.append {inside : Bool} {events more : List Event} {es fs : List Element}
    {text own : Option String} (h : Content inside events es text)
    (hmore : Content inside more fs own) :
    Content inside (events ++ more) (es ++ fs) (joinText text own) := by
  induction h with
  | nil => exact hmore
  | text hdecode _ ih =>
    rw [joinText_assoc]
    exact .text hdecode (ih hmore)
  | cdata _ ih =>
    rw [joinText_assoc]
    exact .cdata (ih hmore)
  | comment _ ih => exact .comment (ih hmore)
  | doctype _ ih => exact .doctype (ih hmore)
  | instruction _ ih => exact .instruction (ih hmore)
  | selfClosing htag _ ih => exact .selfClosing htag (ih hmore)
  | element htag hwithin _ _ ih =>
    rw [List.cons_append, List.append_assoc, List.cons_append]
    exact .element htag hwithin (ih hmore)

/-- The tag of an event that begins an element. -/
def Event.tag? : Event → Option Tag
  | opening tag => some tag
  | selfClosing tag => some tag
  | _ => none

/-- Whether an element is begun by a tag. -/
def Tag.Begins (tag : Tag) (e : Element) : Prop :=
  e.tag = tag.name ∧ tag.Decodes e.attributes

/-- Parents before children, the elements are those that the tags begin, in the order of the
tags. -/
theorem Content.preorder {inside : Bool} {events : List Event} {es : List Element}
    {own : Option String} (h : Content inside events es own) :
    List.Forall₂ Tag.Begins (events.filterMap Event.tag?) (Element.preorderAll es) := by
  induction h with
  | nil => exact .nil
  | text _ _ ih | cdata _ ih | comment _ ih | doctype _ ih | instruction _ ih => exact ih
  | selfClosing htag _ ih => exact .cons ⟨rfl, htag⟩ ih
  | @element inside tag attributes within events children es text own htag _ _ ihWithin ihRest =>
    have hbegins : tag.Begins ⟨tag.name, attributes, children, text⟩ := ⟨rfl, htag⟩
    have hbegun := List.Forall₂.cons hbegins (List.rel_append ihWithin ihRest)
    simpa [List.filterMap_cons, Event.tag?, Element.preorderAll, Element.preorder] using hbegun

namespace Growth

/-- Takes in complete elements and text all at once. -/
def absorb (g : Growth) (es : List Element) (text : Option String) : Growth :=
  match g.enclosing with
  | [] => { g with complete := g.complete ++ es }
  | parent :: outer => { g with
      enclosing := { parent with
        children := parent.children ++ es
        text := joinText parent.text text } :: outer }

variable {g : Growth} {e parent : Element} {outer es fs : List Element} {text own : Option String}

theorem absorb_of_nil (h : g.enclosing = []) :
    g.absorb es text = { g with complete := g.complete ++ es } := by
  rw [absorb, h]

theorem absorb_of_cons (h : g.enclosing = parent :: outer) :
    g.absorb es text = { g with
      enclosing := { parent with
        children := parent.children ++ es
        text := joinText parent.text text } :: outer } := by
  rw [absorb, h]

theorem absorb_nil (g : Growth) : g.absorb [] none = g := by
  cases h : g.enclosing with
  | nil => rw [absorb_of_nil h, List.append_nil]
  | cons parent outer =>
    rw [absorb_of_cons h, List.append_nil, joinText_none]
    obtain ⟨enclosing, complete⟩ := g
    obtain rfl : enclosing = parent :: outer := h
    cases parent
    rfl

theorem absorb_absorb (g : Growth) (es fs : List Element) (text own : Option String) :
    (g.absorb es text).absorb fs own = g.absorb (es ++ fs) (joinText text own) := by
  cases h : g.enclosing with
  | nil =>
    simp [absorb, h]
  | cons parent outer =>
    simp [absorb, h, joinText_assoc]

theorem attach_eq_absorb (g : Growth) (e : Element) : g.attach e = g.absorb [e] none := by
  cases h : g.enclosing with
  | nil => rw [attach_of_nil h, absorb_of_nil h]
  | cons parent outer =>
    rw [attach_of_cons h, absorb_of_cons h, joinText_none, Element.addChild]

theorem addText_eq_absorb (g : Growth) (text : String) : g.addText text = g.absorb [] (some text) := by
  cases h : g.enclosing with
  | nil => rw [addText_of_nil h, absorb_of_nil h, List.append_nil]
  | cons parent outer =>
    rw [addText_of_cons h, absorb_of_cons h, List.append_nil, Element.appendText]
    cases parent.text <;> simp [joinText]

theorem enclosing_absorb (h : g.enclosing = []) : (g.absorb es text).enclosing = [] := by
  rw [absorb_of_nil h, h]

end Growth

/-- Events grow what they stand for, at the top level or in the innermost element. -/
theorem Content.run {inside : Bool} {events : List Event} {es : List Element} {own : Option String}
    (h : Content inside events es own) {g : Growth} (hg : inside = false → g.enclosing = []) :
    g.run events = .ok (g.absorb es own) := by
  induction h generalizing g with
  | nil => rw [Growth.absorb_nil, Growth.run]
  | @text inside raw text events es own hdecode hrest ih =>
    cases inside with
    | true =>
      rw [Growth.run_cons_of_step (Growth.step_text_of_decode (hdecode rfl)), ih (by simp),
        Growth.addText_eq_absorb, Growth.absorb_absorb, List.nil_append]
    | false =>
      have htop := hg rfl
      rw [Growth.run_cons_of_step (Growth.step_text_eq_ok_iff.2 (.inl ⟨htop, rfl⟩)), ih hg,
        Growth.absorb_of_nil htop, Growth.absorb_of_nil htop]
  | cdata _ ih =>
    rw [Growth.run_cons_of_step rfl, Growth.addText_eq_absorb,
      ih fun hinside => Growth.enclosing_absorb (hg hinside), Growth.absorb_absorb, List.nil_append]
  | comment _ ih | doctype _ ih | instruction _ ih => exact ih hg
  | selfClosing htag _ ih =>
    have he := element_eq_ok_iff_decodes.2 ⟨_, htag, rfl⟩
    rw [Growth.run_cons_of_step (Growth.step_selfClosing_eq_ok_iff.2 ⟨_, he, rfl⟩),
      Growth.attach_eq_absorb, ih fun hinside => Growth.enclosing_absorb (hg hinside),
      Growth.absorb_absorb]
    rfl
  | element htag _ _ ihWithin ihRest =>
    have he := element_eq_ok_iff_decodes.2 ⟨_, htag, rfl⟩
    rw [Growth.run_cons_of_step (Growth.step_opening_eq_ok_iff.2 ⟨_, he, rfl⟩),
      Growth.run_append (ihWithin (by simp)), Growth.absorb_of_cons rfl,
      Growth.run_cons_of_step (Growth.step_closing_of_cons rfl _), Growth.attach_eq_absorb,
      ihRest fun hinside => Growth.enclosing_absorb (hg hinside), Growth.absorb_absorb]
    rfl

end Markup

end Pictogram
