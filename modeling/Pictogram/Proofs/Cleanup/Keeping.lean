import Pictogram.Proofs.Cleanup.Pruning
import Pictogram.Proofs.Markup.Joining

/-!
A cleanup event by event: what is kept of one event, and what this means for the trees that grow
from the events. The kept events grow the pruned trees.
-/

namespace Pictogram.Markup

namespace Cleanup

/-- What a cleanup keeps of one event at a depth in elements that are left out, and the depth behind
the event. -/
inductive Keeps : Nat → Event → List Event → Nat → Prop
  | enter {depth : Nat} {tag : Tag} (h : 0 < depth ∨ isDroppedElement tag.name) :
    Keeps depth (.opening tag) [] (depth + 1)
  | opening {tag cleaned : Tag} (h : isDroppedElement tag.name = false)
    (hclean : cleanTag tag = .ok cleaned) : Keeps 0 (.opening tag) [.opening cleaned] 0
  | skip {depth : Nat} {tag : Tag} (h : 0 < depth ∨ isDroppedElement tag.name) :
    Keeps depth (.selfClosing tag) [] depth
  | selfClosing {tag cleaned : Tag} (h : isDroppedElement tag.name = false)
    (hclean : cleanTag tag = .ok cleaned) : Keeps 0 (.selfClosing tag) [.selfClosing cleaned] 0
  | leave {depth : Nat} {name : String} : Keeps (depth + 1) (.closing name) [] depth
  | closing {name : String} : Keeps 0 (.closing name) [.closing name] 0
  | hideText {depth : Nat} {raw : String} (h : 0 < depth ∨ raw.toList.all Text.isAsciiBlank) :
    Keeps depth (.text raw) [] depth
  | text {raw : String} (h : raw.toList.all Text.isAsciiBlank = false) :
    Keeps 0 (.text raw) [.text raw] 0
  | hideData {depth : Nat} {raw : String} (h : 0 < depth) : Keeps depth (.cdata raw) [] depth
  | data {raw : String} : Keeps 0 (.cdata raw) [.cdata raw] 0
  | comment {depth : Nat} {raw : String} : Keeps depth (.comment raw) [] depth
  | doctype {depth : Nat} {raw : String} : Keeps depth (.doctype raw) [] depth
  | instruction {depth : Nat} {raw : String} : Keeps depth (.instruction raw) [] depth

theorem cleanTag_eq_ok_iff {tag cleaned : Tag} :
    cleanTag tag = .ok cleaned ↔
      tag.fault? = none ∧
        cleaned = { tag with attributes := tag.attributes.filter (!isDroppedAttribute ·.key) } := by
  rw [cleanTag]
  cases tag.fault? with
  | none => simp [eq_comm]
  | some fault => simp

private theorem map_nil_append (x : Except Error (List Event)) : x.map ([] ++ ·) = x := by
  cases x <;> rfl

/-- Where tags that are not left out have no fault, something is kept of every event, and the rest
follows. -/
theorem exists_keeps {event : Event} (depth : Nat)
    (hfault : ∀ tag, event = .opening tag ∨ event = .selfClosing tag →
      (0 < depth ∨ isDroppedElement tag.name) ∨ tag.fault? = none) :
    ∃ front depth', Keeps depth event front depth' ∧
      ∀ events, keep depth (event :: events) = (keep depth' events).map (front ++ ·) := by
  cases event with
  | opening tag =>
    by_cases h : 0 < depth ∨ isDroppedElement tag.name
    · refine ⟨[], depth + 1, .enter h, fun events => ?_⟩
      rw [keep, if_pos (by simpa using h), map_nil_append]
    · have hclean := cleanTag_eq_ok_iff.2 ⟨(hfault tag (.inl rfl)).resolve_left h, rfl⟩
      obtain ⟨hdepth, hname⟩ := not_or.1 h
      obtain rfl := Nat.eq_zero_of_not_pos hdepth
      refine ⟨_, 0, .opening (by simpa using hname) hclean, fun events => ?_⟩
      rw [keep, if_neg (by simpa using hname), hclean]
      rfl
  | selfClosing tag =>
    by_cases h : 0 < depth ∨ isDroppedElement tag.name
    · refine ⟨[], depth, .skip h, fun events => ?_⟩
      rw [keep, if_pos (by simpa using h), map_nil_append]
    · have hclean := cleanTag_eq_ok_iff.2 ⟨(hfault tag (.inr rfl)).resolve_left h, rfl⟩
      obtain ⟨hdepth, hname⟩ := not_or.1 h
      obtain rfl := Nat.eq_zero_of_not_pos hdepth
      refine ⟨_, 0, .selfClosing (by simpa using hname) hclean, fun events => ?_⟩
      rw [keep, if_neg (by simpa using hname), hclean]
      rfl
  | closing name =>
    cases depth with
    | zero => exact ⟨_, 0, .closing, fun events => rfl⟩
    | succ depth =>
      refine ⟨_, depth, .leave, fun events => ?_⟩
      rw [keep, if_pos (Nat.succ_pos depth), map_nil_append, Nat.add_sub_cancel]
  | text raw =>
    by_cases h : 0 < depth ∨ raw.toList.all Text.isAsciiBlank
    · refine ⟨[], depth, .hideText h, fun events => ?_⟩
      rw [keep, if_pos (by simpa using h), map_nil_append]
    · obtain ⟨hdepth, hraw⟩ := not_or.1 h
      obtain rfl := Nat.eq_zero_of_not_pos hdepth
      refine ⟨_, 0, .text (by simpa using hraw), fun events => ?_⟩
      rw [keep, if_neg (by simpa using hraw)]
      rfl
  | cdata raw =>
    cases depth with
    | zero => exact ⟨_, 0, .data, fun events => rfl⟩
    | succ depth =>
      refine ⟨[], depth + 1, .hideData (Nat.succ_pos depth), fun events => ?_⟩
      rw [keep, if_pos (Nat.succ_pos depth), map_nil_append]
  | comment raw => exact ⟨[], depth, .comment, fun events => (map_nil_append _).symm⟩
  | doctype raw => exact ⟨[], depth, .doctype, fun events => (map_nil_append _).symm⟩
  | instruction raw => exact ⟨[], depth, .instruction, fun events => (map_nil_append _).symm⟩

/-- A cleanup that comes to an end has found no fault in a tag that it did not leave out. -/
theorem fault_of_keep {depth : Nat} {event : Event} {events kept : List Event}
    (h : keep depth (event :: events) = .ok kept) {tag : Tag}
    (htag : event = .opening tag ∨ event = .selfClosing tag) :
    (0 < depth ∨ isDroppedElement tag.name) ∨ tag.fault? = none := by
  by_cases hhidden : 0 < depth ∨ isDroppedElement tag.name
  · exact .inl hhidden
  · rcases htag with rfl | rfl
    all_goals
      rw [keep, if_neg (by simpa using hhidden), cleanTag] at h
      cases hfault : tag.fault? with
      | none => exact .inr rfl
      | some fault =>
        rw [hfault] at h
        cases h

/-- Something is kept of the first event, and the rest follows. -/
theorem keeps_of_keep {depth : Nat} {event : Event} {events kept : List Event}
    (h : keep depth (event :: events) = .ok kept) :
    ∃ front depth' rest, Keeps depth event front depth' ∧ keep depth' events = .ok rest ∧
      kept = front ++ rest := by
  obtain ⟨front, depth', hkeeps, hkeep⟩ := exists_keeps depth fun tag => fault_of_keep h
  rw [hkeep] at h
  cases hrest : keep depth' events with
  | error e =>
    rw [hrest] at h
    cases h
  | ok rest =>
    rw [hrest] at h
    exact ⟨front, depth', rest, hkeeps, hrest, (Except.ok.inj h).symm⟩

end Cleanup

open Cleanup

/-- What is true of every event that a cleanup keeps. -/
def Event.Kept : Event → Prop
  | opening tag => tag.Sound ∧ tag.fault? = none
  | selfClosing tag => tag.Sound ∧ tag.fault? = none
  | comment _ | doctype _ | instruction _ => False
  | event => event.Sound

/-- Whether an event that is kept can be read again when it is written: no value of a tag holds a
double quote, the tag ends at the bracket that is written for it, and the slash that decides between
a tag that opens an element and one that is a whole element is where it belongs. -/
def Event.Rewritable : Event → Prop
  | opening tag =>
    Unquoted tag.attributes ∧ Delimited tag.chars ∧ tag.chars.getLast? ≠ some '/'
  | selfClosing tag => Unquoted tag.attributes ∧ Delimited tag.chars ∧ tag.chars ≠ []
  | _ => True

/-- Of the events that are kept, the legible ones are those that can be rewritten. -/
theorem Event.Kept.legible_iff {event : Event} (h : event.Kept) :
    event.Legible ↔ event.Rewritable := by
  cases event with
  | opening tag =>
    obtain ⟨hsound, hfault⟩ := h
    constructor
    · rintro ⟨-, -, hquotes, hcontent⟩
      exact ⟨hquotes, hcontent.delimited, hcontent.last⟩
    · rintro ⟨hquotes, hdelimited, hlast⟩
      exact ⟨hsound, hfault, hquotes, hdelimited, beginsTag_chars hsound, hlast⟩
  | selfClosing tag =>
    obtain ⟨hsound, hfault⟩ := h
    constructor
    · rintro ⟨-, -, hquotes, hcontent⟩
      exact ⟨hquotes, hcontent.delimited, hcontent.nonempty⟩
    · rintro ⟨hquotes, hdelimited, hnonempty⟩
      exact ⟨hsound, hfault, hquotes, hdelimited, beginsTag_chars hsound, hnonempty⟩
  | closing name => exact ⟨fun _ => trivial, fun _ => h⟩
  | text raw => exact ⟨fun _ => trivial, fun _ => h⟩
  | cdata raw => exact ⟨fun _ => trivial, fun _ => h⟩
  | comment raw => exact h.elim
  | doctype raw => exact h.elim
  | instruction raw => exact h.elim

theorem sound_cleanTag {tag cleaned : Tag} (h : tag.Sound) (hclean : cleanTag tag = .ok cleaned) :
    cleaned.Sound ∧ cleaned.fault? = none := by
  obtain ⟨hfault, rfl⟩ := cleanTag_eq_ok_iff.1 hclean
  refine ⟨⟨h.solid, h.begins, ?_, ?_⟩, hfault⟩
  · exact h.keys.1.sublist (List.filter_sublist.map _)
  · intro a ha
    exact h.keys.2 a (List.mem_of_mem_filter ha)

/-- What is kept of a sound event can be written. -/
theorem Cleanup.Keeps.kept {depth depth' : Nat} {event : Event} {front : List Event}
    (h : Keeps depth event front depth') (hsound : event.Sound) : ∀ e ∈ front, e.Kept := by
  cases h with
  | opening hname hclean =>
    exact List.forall_mem_singleton.2 (sound_cleanTag hsound hclean)
  | selfClosing hname hclean =>
    exact List.forall_mem_singleton.2 (sound_cleanTag hsound hclean)
  | closing => exact List.forall_mem_singleton.2 hsound
  | text => exact List.forall_mem_singleton.2 hsound
  | data => exact List.forall_mem_singleton.2 hsound
  | enter | skip | leave | hideText | hideData | comment | doctype | instruction => simp

/-- The open elements are those that are left out, from the outermost of them, and those around
them; the kept events close the latter as they were closed. -/
theorem Cleanup.Keeps.nested {depth depth' : Nat} {event : Event} {front : List Event}
    {dropped live : List String} (h : Keeps depth event front depth')
    (hdepth : dropped.length = depth)
    (hclosing : ∀ name, event = .closing name → (dropped ++ live).head? = some name) :
    ∃ dropped' live', event.openAfter (dropped ++ live) = dropped' ++ live' ∧
      dropped'.length = depth' ∧
        ∀ back, Nested live' back → Nested live (front ++ back) := by
  cases h with
  | enter hname => exact ⟨_ :: dropped, live, rfl, by simp [hdepth], fun _ h => h⟩
  | opening hname hclean =>
    obtain rfl := List.eq_nil_of_length_eq_zero hdepth
    obtain ⟨-, rfl⟩ := cleanTag_eq_ok_iff.1 hclean
    exact ⟨[], _ :: live, rfl, rfl, fun _ h => ⟨by simp, h⟩⟩
  | selfClosing hname hclean =>
    obtain rfl := List.eq_nil_of_length_eq_zero hdepth
    exact ⟨[], live, rfl, rfl, fun _ h => ⟨by simp, h⟩⟩
  | leave =>
    cases dropped with
    | nil => cases hdepth
    | cons name dropped =>
      exact ⟨dropped, live, rfl, by simpa using hdepth, fun _ h => h⟩
  | closing =>
    obtain rfl := List.eq_nil_of_length_eq_zero hdepth
    refine ⟨[], live.tail, rfl, rfl, fun _ h => ⟨?_, h⟩⟩
    intro name heq
    exact hclosing name heq
  | text =>
    obtain rfl := List.eq_nil_of_length_eq_zero hdepth
    exact ⟨[], live, rfl, rfl, fun _ h => ⟨by simp, h⟩⟩
  | data =>
    obtain rfl := List.eq_nil_of_length_eq_zero hdepth
    exact ⟨[], live, rfl, rfl, fun _ h => ⟨by simp, h⟩⟩
  | skip | hideText | hideData | comment | doctype | instruction =>
    exact ⟨dropped, live, rfl, hdepth, fun _ h => h⟩

/-- What is kept of sound events can be written, one nested in the other as before. -/
theorem kept_of_keep {depth : Nat} {dropped live : List String} {events kept : List Event}
    (hsound : ∀ event ∈ events, event.Sound) (hnested : Nested (dropped ++ live) events)
    (hdropped : dropped.length = depth) (h : keep depth events = .ok kept) :
    (∀ event ∈ kept, event.Kept) ∧ Nested live kept := by
  induction events generalizing depth dropped live kept with
  | nil =>
    obtain rfl := Except.ok.inj h
    exact ⟨by simp, trivial⟩
  | cons event events ih =>
    obtain ⟨hevent, hevents⟩ := List.forall_mem_cons.1 hsound
    obtain ⟨hclosing, hrest⟩ := hnested
    obtain ⟨front, depth', rest, hkeeps, hkeep, rfl⟩ := keeps_of_keep h
    obtain ⟨dropped', live', hopen, hdropped', hback⟩ := hkeeps.nested hdropped hclosing
    rw [hopen] at hrest
    obtain ⟨hkept, hkeptNested⟩ := ih hevents hrest hdropped' hkeep
    exact ⟨List.forall_mem_append.2 ⟨hkeeps.kept hevent, hkept⟩, hback rest hkeptNested⟩

theorem cleaned_eq_ok_iff {reading : Reading} {kept : List Event} :
    reading.cleaned = .ok kept ↔ reading.error? = none ∧ keep 0 reading.events = .ok kept := by
  rw [Reading.cleaned]
  cases keep 0 reading.events with
  | error e => simp
  | ok events => cases reading.error? <;> simp

/-- Nothing that is kept of a text stands in the way of writing it down. -/
theorem kept_of_cleaned {text : String} {kept : List Event} (h : (read text).cleaned = .ok kept) :
    (∀ event ∈ kept, event.Kept) ∧ Nested [] kept := by
  obtain ⟨hsound, hnested⟩ := sound_read text
  have hopen : Nested ([] ++ []) (read text).events := hnested
  exact kept_of_keep hsound hopen rfl (cleaned_eq_ok_iff.1 h).2

end Pictogram.Markup
