import Mathlib.Data.List.DropRight
import Mathlib.Data.List.TakeWhile
import Pictogram.Text.Blank
import Pictogram.Text.Literal

/-!
Where an item stands in joined lists, where a run of characters of one kind ends, and where a fixed
piece first occurs. Readers of markup stop at such places, so that a text written with one of them in
it can be taken apart in one way only.
-/

namespace Pictogram

/-- Where an item stands in one list behind another. -/
theorem append_eq_append_cons {α : Type} {xs ys before after : List α} {x : α}
    (h : xs ++ ys = before ++ x :: after) :
    (∃ rest, xs = before ++ x :: rest ∧ after = rest ++ ys) ∨
      ∃ front, before = xs ++ front ∧ ys = front ++ x :: after := by
  rcases List.append_eq_append_iff.1 h with ⟨front, hbefore, hys⟩ | ⟨rest, hxs, hrest⟩
  · exact .inr ⟨front, hbefore, hys⟩
  · cases rest with
    | nil => exact .inr ⟨[], by simpa using hxs.symm, hrest.symm⟩
    | cons y rest =>
      obtain ⟨rfl, rfl⟩ := List.cons.inj hrest
      exact .inl ⟨rest, hxs, rfl⟩

namespace Text

variable {p : Char → Bool} {before before' rest rest' cs : List Char} {stop stop' : Char}

/-- What a character does not occur in is a run of others. -/
theorem run_of_not_mem (h : stop ∉ cs) : ∀ c ∈ cs, (c != stop) = true := by
  intro c hc
  simpa using ne_of_mem_of_not_mem hc h

theorem takeWhile_run (hrun : ∀ c ∈ before, p c) (hstop : p stop = false) :
    (before ++ stop :: rest).takeWhile p = before := by
  rw [List.takeWhile_append_of_pos hrun, List.takeWhile_cons_of_neg (by simp [hstop]),
    List.append_nil]

theorem dropWhile_run (hrun : ∀ c ∈ before, p c) (hstop : p stop = false) :
    (before ++ stop :: rest).dropWhile p = stop :: rest := by
  rw [List.dropWhile_append_of_pos hrun, List.dropWhile_cons_of_neg (by simp [hstop])]

/-- A run and the character that ends it are determined by the text they stand in. -/
theorem run_unique (hrun : ∀ c ∈ before, p c) (hstop : p stop = false)
    (hrun' : ∀ c ∈ before', p c) (hstop' : p stop' = false)
    (h : before ++ stop :: rest = before' ++ stop' :: rest') :
    before = before' ∧ stop = stop' ∧ rest = rest' := by
  have htake := congrArg (List.takeWhile p) h
  have hdrop := congrArg (List.dropWhile p) h
  rw [takeWhile_run hrun hstop, takeWhile_run hrun' hstop'] at htake
  rw [dropWhile_run hrun hstop, dropWhile_run hrun' hstop'] at hdrop
  exact ⟨htake, List.cons.inj hdrop⟩

/-- A text is a single run, or a run, the character that ends it and a rest. -/
theorem run_or_stop (p : Char → Bool) (cs : List Char) :
    (∀ c ∈ cs, p c) ∨
      ∃ before stop rest, cs = before ++ stop :: rest ∧ (∀ c ∈ before, p c) ∧ p stop = false := by
  induction cs with
  | nil => exact .inl (by simp)
  | cons c cs ih =>
    by_cases hc : p c = true
    · rcases ih with hall | ⟨before, stop, rest, rfl, hrun, hstop⟩
      · exact .inl (by simpa [hc] using hall)
      · refine .inr ⟨c :: before, stop, rest, rfl, ?_, hstop⟩
        simpa [hc] using hrun
    · exact .inr ⟨[], c, cs, rfl, by simp, by simpa using hc⟩

theorem dropWhile_eq_cons (h : cs.dropWhile p = stop :: rest) :
    ∃ before, cs = before ++ stop :: rest ∧ (∀ c ∈ before, p c) ∧ p stop = false := by
  rcases run_or_stop p cs with hall | ⟨before, stop', rest', rfl, hrun, hstop⟩
  · rw [List.dropWhile_eq_nil_iff.2 hall] at h
    cases h
  · rw [dropWhile_run hrun hstop] at h
    obtain ⟨rfl, rfl⟩ := List.cons.inj h
    exact ⟨before, rfl, hrun, hstop⟩

/-- What is left of a list is not dropped from its end. -/
theorem not_of_getLast?_rdropWhile {α : Type} {p : α → Bool} {xs : List α} {x : α}
    (h : (xs.rdropWhile p).getLast? = some x) : p x = false := by
  have hne : xs.rdropWhile p ≠ [] := by
    intro hnil
    rw [hnil] at h
    cases h
  rw [List.getLast?_eq_some_getLast hne, Option.some.injEq] at h
  subst h
  exact Bool.eq_false_iff.2 (List.rdropWhile_last_not p xs hne)

theorem takeWhile_append_of_stop (hrun : ∀ c ∈ before, p c)
    (hrest : ∀ c tail, rest = c :: tail → p c = false) :
    (before ++ rest).takeWhile p = before := by
  cases rest with
  | nil => simpa using List.takeWhile_eq_self_iff.2 hrun
  | cons c tail => exact takeWhile_run hrun (hrest c tail rfl)

theorem dropWhile_append_of_stop (hrun : ∀ c ∈ before, p c)
    (hrest : ∀ c tail, rest = c :: tail → p c = false) :
    (before ++ rest).dropWhile p = rest := by
  cases rest with
  | nil => simpa using List.dropWhile_eq_nil_iff.2 hrun
  | cons c tail => exact dropWhile_run hrun (hrest c tail rfl)

theorem dropLiteral?_append (literal rest : List Char) :
    dropLiteral? literal (literal ++ rest) = some rest :=
  dropLiteral?_eq_some_iff.2 rfl

theorem dropLiteral?_eq_none_iff {literal : List Char} :
    dropLiteral? literal cs = none ↔ ¬ literal <+: cs := by
  constructor
  · rintro h ⟨rest, rfl⟩
    rw [dropLiteral?_append] at h
    cases h
  · intro h
    cases hd : dropLiteral? literal cs with
    | none => rfl
    | some rest => exact absurd ⟨rest, (dropLiteral?_eq_some_iff.1 hd).symm⟩ h

/-- A piece is found where it first begins. -/
theorem splitAround?_of_first {literal : List Char}
    (hfirst : ∀ before' after, before = before' ++ after → after ≠ [] →
      ¬ literal <+: after ++ (literal ++ rest)) :
    splitAround? literal (before ++ (literal ++ rest)) = some (before, rest) := by
  induction before with
  | nil =>
    cases hl : literal ++ rest with
    | nil =>
      obtain ⟨rfl, rfl⟩ := List.append_eq_nil_iff.1 hl
      rfl
    | cons c tail =>
      have hd := dropLiteral?_append literal rest
      rw [hl] at hd
      simp [splitAround?, hd]
  | cons c before ih =>
    have hhead : dropLiteral? literal (c :: (before ++ (literal ++ rest))) = none :=
      dropLiteral?_eq_none_iff.2 (hfirst [] (c :: before) rfl (by simp))
    have htail := ih fun before' after heq hne =>
      hfirst (c :: before') after (by rw [heq, List.cons_append]) hne
    rw [List.cons_append, splitAround?, hhead]
    simp only [htail, Option.map_some]

/-- What stands before the first occurrence of a piece contains no earlier one. -/
theorem first_of_splitAround? {literal : List Char}
    (h : splitAround? literal cs = some (before, rest)) :
    ∀ before' after, before = before' ++ after → after ≠ [] →
      ¬ literal <+: after ++ (literal ++ rest) := by
  induction cs generalizing before with
  | nil =>
    obtain ⟨r, -, he⟩ := Option.map_eq_some_iff.1 h
    obtain ⟨rfl, rfl⟩ := Prod.mk.inj he
    intro before' after heq hne
    obtain ⟨rfl, rfl⟩ := List.append_eq_nil_iff.1 heq.symm
    exact absurd rfl hne
  | cons c cs ih =>
    rw [splitAround?] at h
    split at h
    next r hr =>
      obtain ⟨rfl, rfl⟩ := Prod.mk.inj (Option.some.inj h)
      intro before' after heq hne
      obtain ⟨rfl, rfl⟩ := List.append_eq_nil_iff.1 heq.symm
      exact absurd rfl hne
    next hnone =>
      obtain ⟨⟨b, r⟩, hr, he⟩ := Option.map_eq_some_iff.1 h
      obtain ⟨rfl, rfl⟩ := Prod.mk.inj he
      have hcs := eq_append_of_splitAround? hr
      intro before' after heq hne
      cases before' with
      | nil =>
        rw [List.nil_append] at heq
        rw [← heq, List.cons_append, ← List.append_assoc, ← hcs]
        exact dropLiteral?_eq_none_iff.1 hnone
      | cons d before' =>
        rw [List.cons_append] at heq
        exact ih hr before' after (List.cons.inj heq).2 hne

theorem not_mem_intercalate {c : Char} {separator : String} (hseparator : c ∉ separator.toList) :
    ∀ {texts : List String}, (∀ text ∈ texts, c ∉ text.toList) →
      c ∉ (separator.intercalate texts).toList
  | [], _ => by simp
  | [text], h => by simpa using h
  | text :: next :: texts, h => by
    obtain ⟨htext, hmore⟩ := List.forall_mem_cons.1 h
    have hrest := not_mem_intercalate hseparator hmore
    simp only [String.intercalate_cons_cons, String.toList_append, List.mem_append, not_or]
    exact ⟨⟨htext, hseparator⟩, hrest⟩

end Text

end Pictogram
