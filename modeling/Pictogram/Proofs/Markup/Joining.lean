import Pictogram.Proofs.Markup.Decoding
import Pictogram.Proofs.Markup.Growth
import Pictogram.Proofs.Markup.Reading

/-!
Texts that stand next to each other are read as one when they are written. Joining them changes
neither what is written nor the trees that grow from the events.
-/

namespace Pictogram.Markup

/-- An event in front of others; two texts become one. -/
def Event.join (event : Event) (events : List Event) : List Event :=
  match event, events with
  | text a, text b :: rest => text (a ++ b) :: rest
  | event, rest => event :: rest

/-- The events with neighbouring texts made one. -/
def joinTexts (events : List Event) : List Event :=
  events.foldr Event.join []

/-- Joining either puts the event in front or merges two texts. -/
theorem join_cases (event : Event) (events : List Event) :
    event.join events = event :: events ∧ Separated (event :: events.take 1) ∨
      ∃ a b rest, event = .text a ∧ events = .text b :: rest ∧
        event.join events = .text (a ++ b) :: rest := by
  cases events with
  | nil => exact .inl ⟨by cases event <;> rfl, by simp [Separated]⟩
  | cons next events =>
    cases event with
    | text a =>
      cases next with
      | text b => exact .inr ⟨a, b, events, rfl, rfl, rfl⟩
      | _ => exact .inl ⟨rfl, by simp [Separated, Event.isText]⟩
    | _ => exact .inl ⟨rfl, by simp [Separated, Event.isText]⟩

theorem chars_join (event : Event) (events : List Event) :
    (event.join events).flatMap (·.chars) = event.chars ++ events.flatMap (·.chars) := by
  rcases join_cases event events with ⟨hjoin, -⟩ | ⟨a, b, rest, rfl, rfl, hjoin⟩
  · rw [hjoin, List.flatMap_cons]
  · rw [hjoin, List.flatMap_cons, List.flatMap_cons]
    change (a ++ b).toList ++ _ = a.toList ++ (b.toList ++ _)
    rw [String.toList_append, List.append_assoc]

theorem chars_joinTexts (events : List Event) :
    (joinTexts events).flatMap (·.chars) = events.flatMap (·.chars) := by
  induction events with
  | nil => rfl
  | cons event events ih =>
    change (event.join (joinTexts events)).flatMap (·.chars) = _
    rw [chars_join, ih, List.flatMap_cons]

theorem separated_joinTexts (events : List Event) : Separated (joinTexts events) := by
  induction events with
  | nil => exact List.isChain_nil
  | cons event events ih =>
    change Separated (event.join (joinTexts events))
    rcases join_cases event (joinTexts events) with ⟨hjoin, hfront⟩ | ⟨a, b, rest, -, hrest, hjoin⟩
    · rw [hjoin]
      cases hevents : joinTexts events with
      | nil => exact List.isChain_singleton _
      | cons next more =>
        rw [hevents] at hfront ih
        exact List.isChain_cons_cons.2 ⟨(List.isChain_cons_cons.1 hfront).1, ih⟩
    · rw [hjoin]
      rw [hrest] at ih
      cases rest with
      | nil => exact List.isChain_singleton _
      | cons next more =>
        obtain ⟨hpair, hmore⟩ := List.isChain_cons_cons.1 ih
        exact List.isChain_cons_cons.2 ⟨hpair, hmore⟩

theorem nested_joinTexts {names : List String} {events : List Event} (h : Nested names events) :
    Nested names (joinTexts events) := by
  induction events generalizing names with
  | nil => exact h
  | cons event events ih =>
    obtain ⟨hclosing, hnested⟩ := h
    have hrest := ih hnested
    change Nested names (event.join (joinTexts events))
    rcases join_cases event (joinTexts events) with ⟨hjoin, -⟩ | ⟨a, b, rest, rfl, heq, hjoin⟩
    · rw [hjoin]
      exact ⟨hclosing, hrest⟩
    · rw [hjoin]
      rw [heq] at hrest
      exact ⟨by simp, hrest.2⟩

/-- What is true of events and of two texts made one is true of joined events. -/
theorem forall_joinTexts {P : Event → Prop} {events : List Event}
    (hjoin : ∀ a b, P (.text a) → P (.text b) → P (.text (a ++ b)))
    (h : ∀ event ∈ events, P event) : ∀ event ∈ joinTexts events, P event := by
  induction events with
  | nil => simp [joinTexts]
  | cons first events ih =>
    obtain ⟨hfirst, hevents⟩ := List.forall_mem_cons.1 h
    have hrest := ih hevents
    change ∀ event ∈ first.join (joinTexts events), P event
    rcases join_cases first (joinTexts events) with ⟨heq, -⟩ | ⟨a, b, rest, rfl, hnext, heq⟩
    · rw [heq]
      exact List.forall_mem_cons.2 ⟨hfirst, hrest⟩
    · rw [heq]
      rw [hnext] at hrest
      obtain ⟨hb, hrest⟩ := List.forall_mem_cons.1 hrest
      exact List.forall_mem_cons.2 ⟨hjoin a b hfirst hb, hrest⟩

theorem legible_joinTexts {events : List Event} (h : ∀ event ∈ events, event.Legible) :
    ∀ event ∈ joinTexts events, event.Legible := by
  refine forall_joinTexts ?_ h
  rintro a b ⟨hne, ha⟩ ⟨-, hb⟩
  exact ⟨by simp [hne], by simp [ha, hb]⟩

namespace Growth

/-- Two texts add what their junction adds. -/
theorem step_text_append {g g' next : Growth} {a b : String} (ha : g.step (.text a) = .ok g')
    (hb : g'.step (.text b) = .ok next) : g.step (.text (a ++ b)) = .ok next := by
  rcases step_text_eq_ok_iff.1 ha with ⟨hempty, rfl⟩ | ⟨hopen, textA, hdecodeA, rfl⟩
  · rcases step_text_eq_ok_iff.1 hb with ⟨-, rfl⟩ | ⟨hopen, -⟩
    · exact step_text_eq_ok_iff.2 (.inl ⟨hempty, rfl⟩)
    · exact absurd hempty hopen
  · have hstill : (g.addText textA).enclosing ≠ [] := by
      intro hempty
      apply hopen
      rw [← List.isEmpty_iff, ← enclosing_addText g textA, hempty, List.isEmpty_nil]
    rcases step_text_eq_ok_iff.1 hb with ⟨hempty, -⟩ | ⟨-, textB, hdecodeB, rfl⟩
    · exact absurd hempty hstill
    · refine step_text_eq_ok_iff.2 (.inr ⟨hopen, textA ++ textB, decode_append hdecodeA hdecodeB, ?_⟩)
      exact addText_addText g textA textB

/-- The same trees grow when neighbouring texts are made one. -/
theorem run_joinTexts {g next : Growth} {events : List Event} (h : g.run events = .ok next) :
    g.run (joinTexts events) = .ok next := by
  induction events generalizing g with
  | nil => exact h
  | cons event events ih =>
    rw [run_cons] at h
    cases hstep : g.step event with
    | error e =>
      rw [hstep] at h
      cases h
    | ok g' =>
      rw [hstep] at h
      have hrest := ih h
      change g.run (event.join (joinTexts events)) = .ok next
      rcases join_cases event (joinTexts events) with ⟨hjoin, -⟩ | ⟨a, b, rest, rfl, heq, hjoin⟩
      · rw [hjoin, run_cons, hstep]
        exact hrest
      · rw [heq, run_cons] at hrest
        cases hnext : g'.step (.text b) with
        | error e =>
          rw [hnext] at hrest
          cases hrest
        | ok g'' =>
          rw [hnext] at hrest
          rw [hjoin, run_cons, step_text_append hstep hnext]
          exact hrest

end Growth

end Pictogram.Markup
