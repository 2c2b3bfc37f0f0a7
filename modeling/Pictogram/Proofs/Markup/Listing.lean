import Pictogram.Proofs.Markup.Growth
import Pictogram.Proofs.Markup.Reading

/-!
Listings of trees under construction: every element with its depth and its attributes, parents
before children. What grows is listed at the end, so that two growths that end in trees with one
listing list the same elements at every step.
-/

namespace Pictogram

/-- An element as it is listed. -/
structure Listed where
  depth : Nat
  tag : String
  attributes : List Attribute
  deriving DecidableEq, Repr

mutual

/-- The element and everything below it, parents before children. -/
def Element.listing (depth : Nat) : Element → List Listed
  | ⟨tag, attributes, children, _⟩ =>
    ⟨depth, tag, attributes⟩ :: listingAll (depth + 1) children

/-- The listings of several elements one after the other. -/
def Element.listingAll (depth : Nat) : List Element → List Listed
  | [] => []
  | e :: es => e.listing depth ++ listingAll depth es

end

/-- The open elements with everything in them, from the outermost. -/
def Element.listingOpen : List Element → List Listed
  | [] => []
  | e :: outer => listingOpen outer ++ e.listing outer.length

namespace Element

theorem listingAll_append (depth : Nat) (es fs : List Element) :
    listingAll depth (es ++ fs) = listingAll depth es ++ listingAll depth fs := by
  induction es with
  | nil => rfl
  | cons e es ih => rw [List.cons_append, listingAll, listingAll, ih, List.append_assoc]

theorem listing_addChild (depth : Nat) (e child : Element) :
    (e.addChild child).listing depth = e.listing depth ++ child.listing (depth + 1) := by
  obtain ⟨tag, attributes, children, text⟩ := e
  simp [addChild, listing, listingAll_append, listingAll]

theorem listing_appendText (depth : Nat) (e : Element) (text : String) :
    (e.appendText text).listing depth = e.listing depth := by
  cases e
  rfl

/-- An element that has just begun is listed alone. -/
theorem listing_of_element {tag : Markup.Tag} {e : Element} (h : tag.element = .ok e)
    (depth : Nat) : e.listing depth = [⟨depth, tag.name, e.attributes⟩] := by
  obtain ⟨attributes, -, rfl⟩ := Markup.element_eq_ok_iff.1 h
  rfl

end Element

namespace Markup.Growth

/-- Everything that has been begun. -/
def listing (g : Growth) : List Listed :=
  Element.listingAll 0 g.complete ++ Element.listingOpen g.enclosing

variable {g next : Growth} {e : Element} {event : Event}

theorem listing_attach (g : Growth) (e : Element) :
    (g.attach e).listing = g.listing ++ e.listing g.enclosing.length := by
  cases h : g.enclosing with
  | nil =>
    rw [attach_of_nil h]
    simp [listing, h, Element.listingAll_append, Element.listingAll, Element.listingOpen]
  | cons parent outer =>
    rw [attach_of_cons h]
    simp [listing, h, Element.listingOpen, Element.listing_addChild]

theorem listing_addText (g : Growth) (text : String) : (g.addText text).listing = g.listing := by
  cases h : g.enclosing with
  | nil => rw [addText_of_nil h]
  | cons parent outer =>
    rw [addText_of_cons h]
    simp [listing, h, Element.listingOpen, Element.listing_appendText]

theorem length_attach (g : Growth) (e : Element) :
    (g.attach e).enclosing.length = g.enclosing.length := by
  cases h : g.enclosing with
  | nil => rw [attach_of_nil h, h]
  | cons parent outer =>
    rw [attach_of_cons h]
    rfl

theorem length_addText (g : Growth) (text : String) :
    (g.addText text).enclosing.length = g.enclosing.length := by
  cases h : g.enclosing with
  | nil => rw [addText_of_nil h, h]
  | cons parent outer =>
    rw [addText_of_cons h]
    rfl

theorem listing_opening {tag : Tag} (h : g.step (.opening tag) = .ok next) :
    ∃ e, tag.element = .ok e ∧
      next.listing = g.listing ++ [⟨g.enclosing.length, tag.name, e.attributes⟩] ∧
      next.enclosing.length = g.enclosing.length + 1 := by
  obtain ⟨e, he, rfl⟩ := step_opening_eq_ok_iff.1 h
  refine ⟨e, he, ?_, rfl⟩
  simp [listing, Element.listingOpen, Element.listing_of_element he]

theorem listing_selfClosing {tag : Tag} (h : g.step (.selfClosing tag) = .ok next) :
    ∃ e, tag.element = .ok e ∧
      next.listing = g.listing ++ [⟨g.enclosing.length, tag.name, e.attributes⟩] ∧
      next.enclosing.length = g.enclosing.length := by
  obtain ⟨e, he, rfl⟩ := step_selfClosing_eq_ok_iff.1 h
  refine ⟨e, he, ?_, length_attach g e⟩
  rw [listing_attach, Element.listing_of_element he]

theorem listing_closing {name : String} (h : g.step (.closing name) = .ok next) :
    next.listing = g.listing ∧ next.enclosing.length = g.enclosing.length - 1 := by
  cases henclosing : g.enclosing with
  | nil =>
    rw [step_closing_of_nil henclosing] at h
    obtain rfl := Except.ok.inj h
    exact ⟨rfl, by rw [henclosing]; rfl⟩
  | cons parent outer =>
    rw [step_closing_of_cons henclosing] at h
    obtain rfl := Except.ok.inj h
    refine ⟨?_, length_attach _ parent⟩
    rw [listing_attach]
    simp [listing, henclosing, Element.listingOpen]

/-- Nothing but tags is listed. -/
theorem listing_other (htag : ∀ tag, event ≠ .opening tag ∧ event ≠ .selfClosing tag)
    (hclosing : ∀ name, event ≠ .closing name) (h : g.step event = .ok next) :
    next.listing = g.listing ∧ next.enclosing.length = g.enclosing.length := by
  cases event with
  | opening tag => exact absurd rfl (htag tag).1
  | selfClosing tag => exact absurd rfl (htag tag).2
  | closing name => exact absurd rfl (hclosing name)
  | text raw =>
    rcases step_text_eq_ok_iff.1 h with ⟨-, rfl⟩ | ⟨-, text, -, rfl⟩
    · exact ⟨rfl, rfl⟩
    · exact ⟨listing_addText g text, length_addText g text⟩
  | cdata raw =>
    obtain rfl := Except.ok.inj h
    exact ⟨listing_addText g raw, length_addText g raw⟩
  | comment raw | doctype raw | instruction raw =>
    obtain rfl := Except.ok.inj h
    exact ⟨rfl, rfl⟩

/-- One event lists at most one element, at the depth where it is begun. -/
theorem listing_step (h : g.step event = .ok next) :
    (∃ tag e, (event = .opening tag ∨ event = .selfClosing tag) ∧ tag.element = .ok e ∧
      next.listing = g.listing ++ [⟨g.enclosing.length, tag.name, e.attributes⟩]) ∨
      next.listing = g.listing ∧ next.enclosing.length ≤ g.enclosing.length := by
  cases event with
  | opening tag =>
    obtain ⟨e, he, hlisting, -⟩ := listing_opening h
    exact .inl ⟨tag, e, .inl rfl, he, hlisting⟩
  | selfClosing tag =>
    obtain ⟨e, he, hlisting, -⟩ := listing_selfClosing h
    exact .inl ⟨tag, e, .inr rfl, he, hlisting⟩
  | closing name =>
    obtain ⟨hlisting, hlength⟩ := listing_closing h
    exact .inr ⟨hlisting, hlength ▸ Nat.sub_le _ _⟩
  | text raw | cdata raw | comment raw | doctype raw | instruction raw =>
    obtain ⟨hlisting, hlength⟩ := listing_other (by simp) (by simp) h
    exact .inr ⟨hlisting, Nat.le_of_eq hlength⟩

/-- As many elements are open as there are names to be closed. -/
theorem length_step {names : List String} (h : g.step event = .ok next)
    (hlength : g.enclosing.length = names.length) :
    next.enclosing.length = (event.openAfter names).length := by
  cases event with
  | opening tag =>
    obtain ⟨e, -, -, hnext⟩ := listing_opening h
    rw [hnext, hlength]
    rfl
  | selfClosing tag =>
    obtain ⟨e, -, -, hnext⟩ := listing_selfClosing h
    rw [hnext, hlength]
    rfl
  | closing name =>
    rw [(listing_closing h).2, hlength]
    exact List.length_tail.symm
  | text raw | cdata raw | comment raw | doctype raw | instruction raw =>
    rw [(listing_other (by simp) (by simp) h).2, hlength]
    rfl

theorem length_run {events : List Event} {names : List String} (h : g.run events = .ok next)
    (hlength : g.enclosing.length = names.length) :
    next.enclosing.length = (openAfterAll names events).length := by
  induction events generalizing g names with
  | nil =>
    obtain rfl := Except.ok.inj h
    exact hlength
  | cons event events ih =>
    rw [run_cons] at h
    cases hstep : g.step event with
    | error e =>
      rw [hstep] at h
      cases h
    | ok middle =>
      rw [hstep] at h
      exact ih h (length_step hstep hlength)

/-- A run lists what it begins behind what has been begun, and begins at most as deep as it
stands. -/
theorem listing_run {events : List Event} (h : g.run events = .ok next) :
    ∃ begun, next.listing = g.listing ++ begun ∧
      ∀ first more, begun = first :: more → first.depth ≤ g.enclosing.length := by
  induction events generalizing g with
  | nil =>
    obtain rfl := Except.ok.inj h
    exact ⟨[], by simp, by simp⟩
  | cons event events ih =>
    rw [run_cons] at h
    cases hstep : g.step event with
    | error e =>
      rw [hstep] at h
      cases h
    | ok middle =>
      rw [hstep] at h
      obtain ⟨begun, hbegun, hdepth⟩ := ih h
      rcases listing_step hstep with ⟨tag, e, -, -, hlisting⟩ | ⟨hlisting, hlength⟩
      · refine ⟨⟨g.enclosing.length, tag.name, e.attributes⟩ :: begun, ?_, ?_⟩
        · rw [hbegun, hlisting, List.append_assoc, List.singleton_append]
        · intro first more heq
          obtain ⟨rfl, -⟩ := List.cons.inj heq
          exact Nat.le_refl _
      · refine ⟨begun, by rw [hbegun, hlisting], ?_⟩
        intro first more heq
        exact Nat.le_trans (hdepth first more heq) hlength

end Markup.Growth

end Pictogram
