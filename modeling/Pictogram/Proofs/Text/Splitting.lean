import Mathlib.Data.List.Basic
import Pictogram.Text.Lines

/-!
Texts that are split at every separator. What separators join is taken apart again, so that the lines
of joined lines are these lines.
-/

namespace Pictogram.Text

variable {p : Char → Bool} {stop : Char} {cs : List Char}

theorem splitWhere_ne_nil (p : Char → Bool) (cs : List Char) : splitWhere p cs ≠ [] := by
  cases cs with
  | nil => simp [splitWhere]
  | cons c cs =>
    rw [splitWhere]
    split
    · simp
    · split <;> simp

theorem splitWhere_append (hstop : p stop) (cs rest : List Char) :
    splitWhere p (cs ++ stop :: rest) = splitWhere p cs ++ splitWhere p rest := by
  induction cs with
  | nil => simp [splitWhere, hstop]
  | cons c cs ih =>
    rw [List.cons_append, splitWhere, splitWhere, ih]
    by_cases hc : p c = true
    · rw [if_pos hc, if_pos hc, List.cons_append]
    · rw [if_neg hc, if_neg hc]
      obtain ⟨piece, pieces, hpieces⟩ := List.exists_cons_of_ne_nil (splitWhere_ne_nil p cs)
      rw [hpieces]
      rfl

theorem splitWhere_run (h : ∀ c ∈ cs, p c = false) : splitWhere p cs = [cs] := by
  induction cs with
  | nil => rfl
  | cons c cs ih =>
    obtain ⟨hc, hcs⟩ := List.forall_mem_cons.1 h
    rw [splitWhere, hc, ih hcs]
    rfl

theorem splitWhere_of_not_mem (h : stop ∉ cs) : splitWhere (· == stop) cs = [cs] := by
  refine splitWhere_run fun c hc => ?_
  simpa using ne_of_mem_of_not_mem hc h

theorem splitWhere_joinLines {ls : List (List Char)} (hne : ls ≠ [])
    (h : ∀ line ∈ ls, '\n' ∉ line) : splitWhere (· == '\n') (joinLines ls) = ls := by
  induction ls with
  | nil => exact absurd rfl hne
  | cons line ls ih =>
    obtain ⟨hline, hls⟩ := List.forall_mem_cons.1 h
    cases ls with
    | nil => exact splitWhere_of_not_mem hline
    | cons next ls =>
      rw [joinLines, splitWhere_append rfl, splitWhere_of_not_mem hline, ih (by simp) hls]
      rfl

end Pictogram.Text
