import Pictogram.Proofs.Cleanup.Keeping
import Pictogram.Proofs.Markup.Growth

/-!
The trees that grow from the events a cleanup keeps are the pruned trees. Elements that are left out
grow on top of those that are kept, from the outermost of them, and vanish when it closes.
-/

namespace Pictogram.Markup

open Cleanup

/-- One growth beside another of which only the kept events are taken in: `dropped` are the open
elements from the outermost that is left out, `live` those around it. -/
structure Trimmed (dropped live : List Element) (g g' : Growth) : Prop where
  enclosing : g.enclosing = dropped ++ live
  outermost : ∀ e, dropped.getLast? = some e → isDroppedElement e.tag
  around : ∀ e ∈ live, isDroppedElement e.tag = false
  same : g'.enclosing.map Element.condensed = live.map fun e => e.pruned.condensed
  complete : Element.condensedAll g'.complete =
    Element.condensedAll (Element.prunedAll g.complete)

theorem decodeAttributes_filter {attributes : List RawAttribute} {decoded : List Attribute}
    (h : decodeAttributes none attributes = .ok decoded) :
    decodeAttributes none (attributes.filter (!isDroppedAttribute ·.key)) =
      .ok (decoded.filter (!isDroppedAttribute ·.name)) := by
  induction attributes generalizing decoded with
  | nil =>
    obtain rfl := Except.ok.inj h
    rfl
  | cons a attributes ih =>
    obtain ⟨value, more, hvalue, hmore, rfl⟩ := decodeAttributes_cons_eq_ok_iff.1 h
    by_cases hkey : isDroppedAttribute a.key = true
    · simpa [hkey] using ih hmore
    · simp [hkey, decodeAttributes, hvalue, ih hmore, Except.map]

/-- The element of a cleaned tag is the pruned element of the tag. -/
theorem element_cleanTag {tag cleaned : Tag} {e : Element} (he : tag.element = .ok e)
    (hclean : cleanTag tag = .ok cleaned) : cleaned.element = .ok e.pruned := by
  obtain ⟨attributes, hdecode, rfl⟩ := element_eq_ok_iff.1 he
  obtain ⟨hfault, rfl⟩ := cleanTag_eq_ok_iff.1 hclean
  rw [hfault] at hdecode
  refine element_eq_ok_iff.2 ⟨_, ?_, rfl⟩
  simpa [hfault] using decodeAttributes_filter hdecode

namespace Trimmed

variable {dropped live outer : List Element} {g g' next : Growth} {e d parent : Element}
  {text : String}

/-- The outermost element that is left out stands on top where no other is around it. -/
theorem dropped_top (h : Trimmed (d :: dropped) live g g') :
    dropped ≠ [] ∨ isDroppedElement d.tag := by
  cases dropped with
  | nil => exact .inr (h.outermost d rfl)
  | cons next more => exact .inl (by simp)

/-- Inside an element that is left out any element is left out. -/
theorem enter (h : Trimmed dropped live g g') (htop : dropped ≠ [] ∨ isDroppedElement d.tag) :
    Trimmed (d :: dropped) live { g with enclosing := d :: g.enclosing } g' := by
  refine ⟨?_, ?_, h.around, h.same, h.complete⟩
  · rw [h.enclosing, List.cons_append]
  · intro top hlast
    cases dropped with
    | nil =>
      obtain rfl : d = top := by simpa using hlast
      exact htop.resolve_left (by simp)
    | cons next more => exact h.outermost top (by simpa using hlast)

theorem leave (h : Trimmed (d :: dropped) live g g') :
    Trimmed dropped live { g with enclosing := dropped ++ live } g' := by
  refine ⟨rfl, ?_, h.around, h.same, h.complete⟩
  intro top htop
  cases dropped with
  | nil => cases htop
  | cons next more => exact h.outermost top (by simpa using htop)

/-- The innermost element that is left out may become any other of its name. -/
theorem replace_dropped (h : Trimmed (d :: dropped) live g g') {d' : Element}
    (htag : d'.tag = d.tag) :
    Trimmed (d' :: dropped) live { g with enclosing := d' :: (dropped ++ live) } g' := by
  have htop := h.dropped_top
  rw [← htag] at htop
  exact h.leave.enter htop

/-- An element that is kept opens in both growths. -/
theorem enter_live (h : Trimmed [] live g g') {e' : Element} (htag : isDroppedElement e.tag = false)
    (he : e'.condensed = e.pruned.condensed) :
    Trimmed [] (e :: live) { g with enclosing := e :: g.enclosing }
      { g' with enclosing := e' :: g'.enclosing } := by
  refine ⟨?_, by simp, List.forall_mem_cons.2 ⟨htag, h.around⟩, ?_, h.complete⟩
  · rw [h.enclosing, List.nil_append, List.nil_append]
  · rw [List.map_cons, List.map_cons, he, h.same]

theorem close (h : Trimmed [] (parent :: outer) g g') :
    ∃ parent' outer', g'.enclosing = parent' :: outer' ∧
      parent'.condensed = parent.pruned.condensed ∧
      Trimmed [] outer { g with enclosing := outer } { g' with enclosing := outer' } := by
  have hsame := h.same
  cases henclosing' : g'.enclosing with
  | nil => simp [henclosing'] at hsame
  | cons parent' outer' =>
    rw [henclosing', List.map_cons, List.map_cons] at hsame
    obtain ⟨hparent, houter⟩ := List.cons.inj hsame
    exact ⟨parent', outer', rfl, hparent, rfl, by simp, (List.forall_mem_cons.1 h.around).2, houter,
      h.complete⟩

/-- The innermost element that is kept may change in what is left out of it. -/
theorem replace_hidden (h : Trimmed [] (parent :: outer) g g') {parent' : Element}
    (htag : parent'.tag = parent.tag)
    (hsame : parent'.pruned.condensed = parent.pruned.condensed) :
    Trimmed [] (parent' :: outer) { g with enclosing := parent' :: outer } g' := by
  obtain ⟨beside, outer', henclosing', hbeside, hpopped⟩ := h.close
  have hparent := h.around parent (by simp)
  rw [← htag] at hparent
  have hopened := hpopped.enter_live hparent (hbeside.trans hsame.symm)
  rw [← henclosing'] at hopened
  exact hopened

/-- The innermost elements of both growths may change in the same way. -/
theorem replace_live (h : Trimmed [] (parent :: outer) g g') (change change' : Element → Element)
    (htag : (change parent).tag = parent.tag)
    (hchange : ∀ e, e.condensed = parent.pruned.condensed →
      (change' e).condensed = (change parent).pruned.condensed) :
    ∃ parent' outer', g'.enclosing = parent' :: outer' ∧
      Trimmed [] (change parent :: outer) { g with enclosing := change parent :: outer }
        { g' with enclosing := change' parent' :: outer' } := by
  obtain ⟨parent', outer', henclosing', hsame, hpopped⟩ := h.close
  have hparent := h.around parent (by simp)
  rw [← htag] at hparent
  exact ⟨parent', outer', henclosing', hpopped.enter_live hparent (hchange parent' hsame)⟩

/-- Inside an element that is left out, an element changes nothing that is kept; nor does one that
is left out itself. -/
theorem attach_dropped (h : Trimmed dropped live g g')
    (hdropped : dropped ≠ [] ∨ isDroppedElement e.tag) :
    ∃ dropped' live', Trimmed dropped' live' (g.attach e) g' ∧
      dropped'.length = dropped.length := by
  cases dropped with
  | cons d more =>
    rw [Growth.attach_of_cons h.enclosing]
    exact ⟨_, live, h.replace_dropped (show (d.addChild e).tag = d.tag from rfl), rfl⟩
  | nil =>
    have htag : isDroppedElement e.tag = true := by simpa using hdropped
    cases live with
    | nil =>
      rw [Growth.attach_of_nil h.enclosing]
      refine ⟨[], [], ⟨h.enclosing, by simp, by simp, h.same, ?_⟩, rfl⟩
      rw [Element.prunedAll_append, Element.prunedAll, if_pos htag, Element.prunedAll,
        List.append_nil, h.complete]
    | cons parent outer =>
      rw [Growth.attach_of_cons h.enclosing]
      have hsame : (parent.addChild e).tag = parent.tag := rfl
      refine ⟨[], _, h.replace_hidden hsame ?_, rfl⟩
      rw [Element.pruned_addChild, if_pos htag]

/-- Where nothing is left out, an element that is kept is handed on as it would be. -/
theorem attach_live {e' : Element} (h : Trimmed [] live g g')
    (htag : isDroppedElement e.tag = false) (he : e'.condensed = e.pruned.condensed) :
    ∃ live', Trimmed [] live' (g.attach e) (g'.attach e') := by
  cases live with
  | nil =>
    have henclosing' : g'.enclosing = [] := by simpa using h.same
    rw [Growth.attach_of_nil h.enclosing, Growth.attach_of_nil henclosing']
    refine ⟨[], h.enclosing, by simp, by simp, h.same, ?_⟩
    have hcomplete := h.complete
    rw [Element.condensedAll_eq_map, Element.condensedAll_eq_map] at hcomplete ⊢
    rw [Element.prunedAll_append, Element.prunedAll, if_neg (by simp [htag]), List.map_append,
      List.map_append, hcomplete]
    simp [he, Element.prunedAll]
  | cons parent outer =>
    have hchange : ∀ p : Element, p.condensed = parent.pruned.condensed →
        (p.addChild e').condensed = (parent.addChild e).pruned.condensed := by
      intro p hp
      rw [Element.pruned_addChild, if_neg (by simp [htag]), Element.condensed_addChild,
        Element.condensed_addChild, hp, he]
    obtain ⟨parent', outer', henclosing', htrimmed⟩ :=
      h.replace_live (·.addChild e) (·.addChild e') rfl hchange
    rw [Growth.attach_of_cons h.enclosing, Growth.attach_of_cons henclosing']
    exact ⟨_, htrimmed⟩

/-- Text inside an element that is left out, and blank text, is not seen. -/
theorem addText_hidden (h : Trimmed dropped live g g')
    (hhidden : dropped ≠ [] ∨ text.toList.all Text.isAsciiBlank) :
    ∃ dropped' live', Trimmed dropped' live' (g.addText text) g' ∧
      dropped'.length = dropped.length := by
  cases dropped with
  | cons d more =>
    rw [Growth.addText_of_cons h.enclosing]
    exact ⟨_, live, h.replace_dropped (show (d.appendText text).tag = d.tag from rfl), rfl⟩
  | nil =>
    have hblank : text.toList.all Text.isAsciiBlank = true := by simpa using hhidden
    cases live with
    | nil =>
      rw [Growth.addText_of_nil h.enclosing]
      exact ⟨[], [], h, rfl⟩
    | cons parent outer =>
      rw [Growth.addText_of_cons h.enclosing]
      have hsame : (parent.appendText text).tag = parent.tag := rfl
      refine ⟨[], _, h.replace_hidden hsame ?_, rfl⟩
      rw [Element.pruned_appendText, Element.condensed_appendText_of_blank hblank]

theorem addText_live (h : Trimmed [] live g g') (text : String) :
    ∃ live', Trimmed [] live' (g.addText text) (g'.addText text) := by
  cases live with
  | nil =>
    have henclosing' : g'.enclosing = [] := by simpa using h.same
    rw [Growth.addText_of_nil h.enclosing, Growth.addText_of_nil henclosing']
    exact ⟨[], h⟩
  | cons parent outer =>
    have hchange : ∀ p : Element, p.condensed = parent.pruned.condensed →
        (p.appendText text).condensed = (parent.appendText text).pruned.condensed := by
      intro p hp
      rw [Element.pruned_appendText, Element.condensed_appendText, Element.condensed_appendText, hp]
    obtain ⟨parent', outer', henclosing', htrimmed⟩ :=
      h.replace_live (·.appendText text) (·.appendText text) rfl hchange
    rw [Growth.addText_of_cons h.enclosing, Growth.addText_of_cons henclosing']
    exact ⟨_, htrimmed⟩

theorem enclosing_eq_nil_iff (h : Trimmed [] live g g') :
    g'.enclosing = [] ↔ g.enclosing = [] := by
  have hsame := congrArg List.length h.same
  rw [List.length_map, List.length_map] at hsame
  have henclosing : g.enclosing = live := h.enclosing
  rw [henclosing, ← List.length_eq_zero_iff, hsame, List.length_eq_zero_iff]

/-- A closing tag closes the same element in both growths. -/
theorem step_closing {name : String} (h : Trimmed [] live g g')
    (hstep : g.step (.closing name) = .ok next) :
    ∃ live' next', g'.step (.closing name) = .ok next' ∧ Trimmed [] live' next next' := by
  cases live with
  | nil =>
    rw [Growth.step_closing_of_nil h.enclosing] at hstep
    obtain rfl := Except.ok.inj hstep
    have henclosing' := h.enclosing_eq_nil_iff.2 h.enclosing
    exact ⟨[], g', Growth.step_closing_of_nil henclosing' name, h⟩
  | cons parent outer =>
    rw [Growth.step_closing_of_cons h.enclosing] at hstep
    obtain rfl := Except.ok.inj hstep
    obtain ⟨parent', outer', henclosing', hparent, hpopped⟩ := h.close
    obtain ⟨live', hattached⟩ := hpopped.attach_live (h.around parent (by simp)) hparent
    exact ⟨live', _, Growth.step_closing_of_cons henclosing' name, hattached⟩

/-- A text that is not hidden is added in both growths, or lost in both. -/
theorem step_text {raw : String} (h : Trimmed [] live g g')
    (hstep : g.step (.text raw) = .ok next) :
    ∃ live' next', g'.step (.text raw) = .ok next' ∧ Trimmed [] live' next next' := by
  rcases Growth.step_text_eq_ok_iff.1 hstep with ⟨hempty, rfl⟩ | ⟨hopen, text, hdecode, rfl⟩
  · exact ⟨live, g', Growth.step_text_eq_ok_iff.2 (.inl ⟨h.enclosing_eq_nil_iff.2 hempty, rfl⟩), h⟩
  · obtain ⟨live', hadded⟩ := h.addText_live text
    have hopen' : g'.enclosing ≠ [] := fun hempty => hopen (h.enclosing_eq_nil_iff.1 hempty)
    exact ⟨live', _, Growth.step_text_eq_ok_iff.2 (.inr ⟨hopen', text, hdecode, rfl⟩), hadded⟩

end Trimmed

/-- Blank text stands for itself. -/
theorem decode_of_blank {raw : String} (h : raw.toList.all Text.isAsciiBlank) :
    decode raw = .ok raw := by
  have hand : '&' ∉ raw.toList := by
    intro hmem
    have := List.all_eq_true.1 h '&' hmem
    contradiction
  rw [decode, decodeFrom_of_no_ampersand 0 hand]
  simp [Except.map]

theorem fault_of_step {event : Event} {g next : Growth} (h : g.step event = .ok next) :
    ∀ tag, event = .opening tag ∨ event = .selfClosing tag → tag.fault? = none := by
  rintro tag (rfl | rfl)
  · obtain ⟨e, he, -⟩ := Growth.step_opening_eq_ok_iff.1 h
    exact (of_element he).2
  · obtain ⟨e, he, -⟩ := Growth.step_selfClosing_eq_ok_iff.1 h
    exact (of_element he).2

/-- What one event does to the trees, the kept part of it does to the pruned trees. -/
theorem Cleanup.Keeps.step {depth depth' : Nat} {event : Event} {front : List Event}
    {dropped live : List Element} {g g' next : Growth} (h : Keeps depth event front depth')
    (htrimmed : Trimmed dropped live g g') (hdepth : dropped.length = depth)
    (hstep : g.step event = .ok next) :
    ∃ dropped' live' next', g'.run front = .ok next' ∧ Trimmed dropped' live' next next' ∧
      dropped'.length = depth' := by
  have hnil : ∀ {P : Prop}, (0 < depth ∨ P) → dropped ≠ [] ∨ P := by
    rintro P (hpos | hP)
    · exact .inl (List.ne_nil_of_length_pos (hdepth ▸ hpos))
    · exact .inr hP
  cases h with
  | enter hname =>
    obtain ⟨e, he, rfl⟩ := Growth.step_opening_eq_ok_iff.1 hstep
    have hentered := htrimmed.enter (d := e) ((of_element he).1 ▸ hnil hname)
    exact ⟨e :: dropped, live, g', rfl, hentered, by simp [hdepth]⟩
  | opening hname hclean =>
    obtain rfl := List.eq_nil_of_length_eq_zero hdepth
    obtain ⟨e, he, rfl⟩ := Growth.step_opening_eq_ok_iff.1 hstep
    have hstep' : g'.step _ = .ok _ :=
      Growth.step_opening_eq_ok_iff.2 ⟨_, element_cleanTag he hclean, rfl⟩
    have hopened := htrimmed.enter_live ((of_element he).1 ▸ hname) rfl
    exact ⟨[], e :: live, _, Growth.run_singleton hstep', hopened, rfl⟩
  | skip hname =>
    obtain ⟨e, he, rfl⟩ := Growth.step_selfClosing_eq_ok_iff.1 hstep
    obtain ⟨dropped', live', htrimmed', hlength⟩ :=
      htrimmed.attach_dropped (e := e) ((of_element he).1 ▸ hnil hname)
    exact ⟨dropped', live', g', rfl, htrimmed', hlength.trans hdepth⟩
  | selfClosing hname hclean =>
    obtain rfl := List.eq_nil_of_length_eq_zero hdepth
    obtain ⟨e, he, rfl⟩ := Growth.step_selfClosing_eq_ok_iff.1 hstep
    have hstep' : g'.step _ = .ok _ :=
      Growth.step_selfClosing_eq_ok_iff.2 ⟨_, element_cleanTag he hclean, rfl⟩
    obtain ⟨live', htrimmed'⟩ := htrimmed.attach_live ((of_element he).1 ▸ hname) rfl
    exact ⟨[], live', _, Growth.run_singleton hstep', htrimmed', rfl⟩
  | leave =>
    cases dropped with
    | nil => cases hdepth
    | cons d more =>
      rw [Growth.step_closing_of_cons htrimmed.enclosing] at hstep
      obtain rfl := Except.ok.inj hstep
      obtain ⟨dropped', live', htrimmed', hlength⟩ :=
        htrimmed.leave.attach_dropped (e := d) htrimmed.dropped_top
      exact ⟨dropped', live', g', rfl, htrimmed', hlength.trans (by simpa using hdepth)⟩
  | closing =>
    obtain rfl := List.eq_nil_of_length_eq_zero hdepth
    obtain ⟨live', next', hstep', htrimmed'⟩ := htrimmed.step_closing hstep
    exact ⟨[], live', next', Growth.run_singleton hstep', htrimmed', rfl⟩
  | hideText hblank =>
    rcases Growth.step_text_eq_ok_iff.1 hstep with ⟨-, rfl⟩ | ⟨-, text, hdecode, rfl⟩
    · exact ⟨dropped, live, g', rfl, htrimmed, hdepth⟩
    · have hhidden : dropped ≠ [] ∨ text.toList.all Text.isAsciiBlank := by
        rcases hnil hblank with hne | hraw
        · exact .inl hne
        · rw [decode_of_blank hraw] at hdecode
          obtain rfl := Except.ok.inj hdecode
          exact .inr hraw
      obtain ⟨dropped', live', htrimmed', hlength⟩ := htrimmed.addText_hidden hhidden
      exact ⟨dropped', live', g', rfl, htrimmed', hlength.trans hdepth⟩
  | text =>
    obtain rfl := List.eq_nil_of_length_eq_zero hdepth
    obtain ⟨live', next', hstep', htrimmed'⟩ := htrimmed.step_text hstep
    exact ⟨[], live', next', Growth.run_singleton hstep', htrimmed', rfl⟩
  | hideData hpos =>
    obtain rfl := Except.ok.inj hstep
    obtain ⟨dropped', live', htrimmed', hlength⟩ := htrimmed.addText_hidden (hnil (.inl hpos))
    exact ⟨dropped', live', g', rfl, htrimmed', hlength.trans hdepth⟩
  | data =>
    obtain rfl := List.eq_nil_of_length_eq_zero hdepth
    obtain rfl := Except.ok.inj hstep
    obtain ⟨live', htrimmed'⟩ := htrimmed.addText_live _
    exact ⟨[], live', _, Growth.run_singleton rfl, htrimmed', rfl⟩
  | comment | doctype | instruction =>
    obtain rfl := Except.ok.inj hstep
    exact ⟨dropped, live, g', rfl, htrimmed, hdepth⟩

/-- What a run of events does to the trees, the kept events do to the pruned trees. -/
theorem keep_run {depth : Nat} {events : List Event} {dropped live : List Element}
    {g g' grown : Growth} (htrimmed : Trimmed dropped live g g') (hdepth : dropped.length = depth)
    (hrun : g.run events = .ok grown) :
    ∃ kept dropped' live' grown', keep depth events = .ok kept ∧ g'.run kept = .ok grown' ∧
      Trimmed dropped' live' grown grown' := by
  induction events generalizing depth dropped live g g' with
  | nil =>
    obtain rfl := Except.ok.inj hrun
    exact ⟨[], dropped, live, g', rfl, rfl, htrimmed⟩
  | cons event events ih =>
    rw [Growth.run_cons] at hrun
    cases hstep : g.step event with
    | error e =>
      rw [hstep] at hrun
      cases hrun
    | ok next =>
      rw [hstep] at hrun
      obtain ⟨front, depth', hkeeps, hkeep⟩ := exists_keeps depth fun tag htag =>
        .inr (fault_of_step hstep tag htag)
      obtain ⟨dropped', live', next', hfront, htrimmed', hdepth'⟩ :=
        hkeeps.step htrimmed hdepth hstep
      obtain ⟨kept, dropped'', live'', grown', hkept, hgrown, hfinal⟩ := ih htrimmed' hdepth' hrun
      refine ⟨front ++ kept, dropped'', live'', grown', ?_, ?_, hfinal⟩
      · rw [hkeep, hkept]
        rfl
      · rw [Growth.run_append hfront, hgrown]

end Pictogram.Markup
