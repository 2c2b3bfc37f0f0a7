import Mathlib.Data.List.Basic
import Pictogram.Proofs.Text.Span
import Pictogram.Proofs.Text.Tidying

/-!
Padding: blanks right before a line break. Tidying takes the padding out of whatever is followed by
something else than a line break, and a text without padding it leaves as it is. What is trimmed at
both ends stays so without its padding.
-/

namespace Pictogram.Text

/-- The text without its padding. -/
def dropPadding : List Char → List Char
  | [] => []
  | c :: cs =>
    if isBlank c && c != '\n' && (dropPadding cs).head? == some '\n' then dropPadding cs
    else c :: dropPadding cs

/-- Whether a blank that is no line break itself stands right before a line break. -/
def Padded (cs : List Char) : Prop :=
  ∃ before c after, cs = before ++ c :: '\n' :: after ∧ isBlank c ∧ c ≠ '\n'

/-- Whether a text neither begins nor ends in a blank. -/
structure Trimmed (cs : List Char) : Prop where
  head : ∀ c, cs.head? = some c → isBlank c = false
  last : ∀ c, cs.getLast? = some c → isBlank c = false

variable {c d : Char} {cs rest : List Char}

theorem dropPadding_cons_of_not_blank (hc : isBlank c = false) (cs : List Char) :
    dropPadding (c :: cs) = c :: dropPadding cs := by
  rw [dropPadding, hc]
  rfl

theorem dropPadding_break (cs : List Char) : dropPadding ('\n' :: cs) = '\n' :: dropPadding cs := by
  rw [dropPadding]
  rfl

theorem dropPadding_cons (c : Char) (cs : List Char) :
    dropPadding (c :: cs) = dropPadding cs ∨ dropPadding (c :: cs) = c :: dropPadding cs := by
  rw [dropPadding]
  split
  · exact .inl rfl
  · exact .inr rfl

theorem dropPadding_sublist (cs : List Char) : (dropPadding cs).Sublist cs := by
  induction cs with
  | nil => exact .slnil
  | cons c cs ih =>
    rcases dropPadding_cons c cs with hdropped | hstays
    · rw [hdropped]
      exact ih.cons c
    · rw [hstays]
      exact ih.cons_cons c

/-- The last character is no padding. -/
theorem getLast?_dropPadding (cs : List Char) : (dropPadding cs).getLast? = cs.getLast? := by
  induction cs with
  | nil => rfl
  | cons c cs ih =>
    cases cs with
    | nil => simp [dropPadding]
    | cons d cs =>
      have hne : dropPadding (d :: cs) ≠ [] := by
        intro hnil
        rw [hnil, List.getLast?_cons] at ih
        cases ih
      rw [List.getLast?_cons_cons, ← ih]
      rcases dropPadding_cons c (d :: cs) with hdropped | hstays
      · rw [hdropped]
      · rw [hstays]
        obtain ⟨front, more, hfront⟩ := List.exists_cons_of_ne_nil hne
        rw [hfront, List.getLast?_cons_cons]

theorem dropPadding_eq_nil_iff : dropPadding cs = [] ↔ cs = [] := by
  rw [← List.getLast?_eq_none_iff, getLast?_dropPadding, List.getLast?_eq_none_iff]

theorem padded_cons_iff :
    Padded (c :: cs) ↔ (isBlank c ∧ c ≠ '\n' ∧ cs.head? = some '\n') ∨ Padded cs := by
  constructor
  · rintro ⟨_ | ⟨d, before⟩, b, after, heq, hb, hne⟩
    · obtain ⟨rfl, rfl⟩ := List.cons.inj heq
      exact .inl ⟨hb, hne, rfl⟩
    · obtain ⟨rfl, rfl⟩ := List.cons.inj heq
      exact .inr ⟨before, b, after, rfl, hb, hne⟩
  · rintro (⟨hc, hne, hbreak⟩ | ⟨before, b, after, rfl, hb, hne⟩)
    · obtain ⟨after, rfl⟩ := List.head?_eq_some_iff.1 hbreak
      exact ⟨[], c, after, rfl, hc, hne⟩
    · exact ⟨c :: before, b, after, rfl, hb, hne⟩

theorem length_dropPadding_of_padded (h : Padded cs) : (dropPadding cs).length < cs.length := by
  induction cs with
  | nil =>
    obtain ⟨before, c, after, heq, -⟩ := h
    simp at heq
  | cons c cs ih =>
    rcases padded_cons_iff.1 h with ⟨hc, hne, hbreak⟩ | hlater
    · obtain ⟨after, rfl⟩ := List.head?_eq_some_iff.1 hbreak
      rw [dropPadding, if_pos (by simp [hc, hne, dropPadding_break])]
      exact Nat.lt_succ_of_le (dropPadding_sublist _).length_le
    · rcases dropPadding_cons c cs with hdropped | hstays
      · rw [hdropped]
        exact Nat.lt_succ_of_lt (ih hlater)
      · rw [hstays]
        exact Nat.succ_lt_succ (ih hlater)

theorem dropPadding_eq_self_iff : dropPadding cs = cs ↔ ¬ Padded cs := by
  constructor
  · intro hself hpadded
    have hlt := length_dropPadding_of_padded hpadded
    rw [hself] at hlt
    exact Nat.lt_irrefl _ hlt
  · intro h
    induction cs with
    | nil => rfl
    | cons c cs ih =>
      rw [padded_cons_iff, not_or] at h
      obtain ⟨hfirst, hlater⟩ := h
      rw [dropPadding, ih hlater, if_neg]
      simpa [and_assoc] using hfirst

/-- Padding is dropped only where a line break stays. -/
theorem break_mem_of_dropPadding_ne (h : dropPadding cs ≠ cs) : '\n' ∈ dropPadding cs := by
  induction cs with
  | nil => exact absurd rfl h
  | cons c cs ih =>
    by_cases hsame : dropPadding cs = cs
    · rw [dropPadding, hsame] at h ⊢
      split at h
      next hpadding =>
        rw [Bool.and_eq_true, Bool.and_eq_true, beq_iff_eq] at hpadding
        obtain ⟨after, rfl⟩ := List.head?_eq_some_iff.1 hpadding.2
        rw [if_pos (by simpa using hpadding)]
        exact List.mem_cons_self
      next => exact absurd rfl h
    · rcases dropPadding_cons c cs with hdropped | hstays
      · rw [hdropped]
        exact ih hsame
      · rw [hstays]
        exact List.mem_cons_of_mem _ (ih hsame)

theorem Trimmed.dropPadding (h : Trimmed cs) : Trimmed (dropPadding cs) := by
  refine ⟨?_, by rw [getLast?_dropPadding]; exact h.last⟩
  cases cs with
  | nil => exact h.head
  | cons c cs =>
    have hc := h.head c rfl
    rw [dropPadding_cons_of_not_blank hc]
    exact h.head

theorem trim_eq_self (h : Trimmed cs) : trim cs = cs := by
  have hfront : cs.dropWhile isBlank = cs := by
    cases cs with
    | nil => rfl
    | cons c cs => exact List.dropWhile_cons_of_neg (by simp [h.head c rfl])
  rw [trim, hfront]
  refine List.rdropWhile_eq_self_iff.2 fun hne => ?_
  simp [h.last _ (List.getLast?_eq_some_getLast hne)]

theorem trimmed_trim (cs : List Char) : Trimmed (trim cs) := by
  refine ⟨fun c hc => ?_, fun c hc => not_of_getLast?_rdropWhile hc⟩
  have hprefix : trim cs <+: cs.dropWhile isBlank :=
    List.rdropWhile_prefix isBlank (cs.dropWhile isBlank)
  obtain ⟨tail, htail⟩ := List.head?_eq_some_iff.1 hc
  obtain ⟨back, hback⟩ := hprefix
  rw [htail, List.cons_append] at hback
  obtain ⟨-, -, -, hstop⟩ := dropWhile_eq_cons hback.symm
  exact hstop

/-- Tidying takes the padding out of a text in front of anything but a line break. A text may be
tidied in an escaped form, in which blanks stand for themselves. -/
theorem tidyBefore_flatMap {escape : Char → List Char} (hd : d ≠ '\n')
    (hblank : ∀ c, isBlank c → escape c = [c])
    (hother : ∀ c, isBlank c = false → escape c ≠ [] ∧ ∀ x ∈ escape c, isBlank x = false)
    (cs rest : List Char) :
    tidyBefore (cs.flatMap escape) (d :: rest) = (dropPadding cs).flatMap escape ++ d :: rest := by
  have hhead : ∀ xs : List Char,
      (xs.flatMap escape ++ d :: rest).head? = some '\n' ↔ xs.head? = some '\n' := by
    intro xs
    cases xs with
    | nil => simpa using hd
    | cons x xs =>
      rw [List.flatMap_cons, List.head?_cons]
      by_cases hx : isBlank x
      · rw [hblank x hx]
        rfl
      · obtain ⟨hne, hnone⟩ := hother x (by simpa using hx)
        obtain ⟨y, more, hy⟩ := List.exists_cons_of_ne_nil hne
        rw [hy] at hnone
        have hbreak : ∀ z, isBlank z = false → z ≠ '\n' := by
          rintro z hz rfl
          cases hz
        rw [hy]
        simp [hbreak x (by simpa using hx), hbreak y (hnone y (by simp))]
  induction cs with
  | nil => rfl
  | cons c cs ih =>
    rw [List.flatMap_cons, tidyBefore_append, ih]
    by_cases hc : isBlank c
    · rw [hblank c hc, tidyBefore_cons, dropPadding]
      cases hrest : (dropPadding cs).flatMap escape ++ d :: rest with
      | nil => simp at hrest
      | cons x more =>
        have hx : x = '\n' ↔ (dropPadding cs).head? = some '\n' := by
          rw [← hhead, hrest, List.head?_cons, Option.some.injEq]
        change tidyCons c (x :: more) = _
        by_cases hbreak : x = '\n'
        · by_cases hline : c = '\n'
          · subst hline
            rw [tidyCons_break, if_neg (by simp), List.flatMap_cons, hblank _ hc, ← hrest]
            rfl
          · rw [tidyCons, if_pos (by simp [hc, hline, hbreak]),
              if_pos (by simp [hc, hline, hx.1 hbreak]), hrest]
        · rw [tidyCons_of_ne hbreak, if_neg (by simp [mt hx.2 hbreak]), List.flatMap_cons,
            hblank c hc, ← hrest]
          rfl
    · have hc' : isBlank c = false := by simpa using hc
      rw [dropPadding_cons_of_not_blank hc', List.flatMap_cons,
        tidyBefore_of_not_blank (hother c hc').2, List.append_assoc]

/-- A text without padding is tidy in front of anything but a line break. -/
theorem tidyBefore_of_not_padded (h : ¬ Padded cs) (hd : d ≠ '\n') (rest : List Char) :
    tidyBefore cs (d :: rest) = cs ++ d :: rest := by
  have hplain : ∀ cs : List Char, cs.flatMap (fun c => [c]) = cs := List.flatMap_singleton'
  have htidy : tidyBefore (cs.flatMap fun c => [c]) (d :: rest) =
      (dropPadding cs).flatMap (fun c => [c]) ++ d :: rest :=
    tidyBefore_flatMap hd (fun _ _ => rfl) (fun c hc => ⟨by simp, by simpa using hc⟩) cs rest
  rwa [hplain, hplain, dropPadding_eq_self_iff.2 h] at htidy

theorem not_padded_of_break_not_mem (h : '\n' ∉ cs) : ¬ Padded cs := by
  rintro ⟨before, c, after, rfl, -⟩
  exact h (by simp)

/-- A line that does not end in a blank brings no padding with it. -/
theorem not_padded_line {line : List Char} (hline : '\n' ∉ line)
    (hlast : ∀ c, line.getLast? = some c → isBlank c = false) (hrest : ¬ Padded rest) :
    ¬ Padded (line ++ '\n' :: rest) := by
  induction line with
  | nil =>
    rw [List.nil_append, padded_cons_iff]
    rintro (⟨-, hne, -⟩ | hlater)
    · exact hne rfl
    · exact hrest hlater
  | cons c line ih =>
    rw [List.mem_cons, not_or] at hline
    rw [List.cons_append, padded_cons_iff]
    cases line with
    | nil =>
      rintro (⟨hc, -, -⟩ | hlater)
      · rw [hlast c rfl] at hc
        cases hc
      · exact ih hline.2 (by simp) hlater
    | cons d line =>
      rintro (⟨-, -, hbreak⟩ | hlater)
      · exact hline.2 (by simpa using Or.inl (Option.some.inj hbreak).symm)
      · exact ih hline.2 (fun x hx => hlast x (by simpa using hx)) hlater

end Pictogram.Text
