import Mathlib.Data.List.Basic
import Mathlib.Tactic.SplitIfs
import Pictogram.Component.Body
import Pictogram.Proofs.Text.Span

/-!
Escaping one character after the other. An escaped text holds none of the characters that are
escaped, and what stands in it unescaped stood in the text.
-/

namespace Pictogram

theorem not_mem_escape {escape : Char → List Char} {special : Char}
    (h : ∀ c, special ∉ escape c) (cs : List Char) : special ∉ cs.flatMap escape := by
  intro hmem
  obtain ⟨c, -, hc⟩ := List.mem_flatMap.1 hmem
  exact h c hc

theorem quote_not_mem_escapeChar (c : Char) : '"' ∉ PrintedAttribute.escapeChar c := by
  rw [PrintedAttribute.escapeChar]
  split
  · decide
  · split
    · decide
    next hquote => simpa using Ne.symm hquote

/-- An escaped text holds nothing that would be read as markup or as an expression. -/
theorem special_not_mem_escapeTextChar {special : Char}
    (h : special ∈ ['<', '>', '\x7b', '\x7d']) (c : Char) : special ∉ escapeTextChar c := by
  simp only [List.mem_cons, List.not_mem_nil, or_false] at h
  rw [escapeTextChar]
  rcases h with rfl | rfl | rfl | rfl
  all_goals
    split_ifs with h1 h2 h3 h4 h5
    all_goals first | decide | simpa [eq_comm] using by assumption

theorem escapeTextChar_ne_nil (c : Char) : escapeTextChar c ≠ [] := by
  rw [escapeTextChar]
  split_ifs <;> simp

theorem escapeChar_self {c : Char} (hand : c ≠ '&') (hquote : c ≠ '"') :
    PrintedAttribute.escapeChar c = [c] := by
  rw [PrintedAttribute.escapeChar, if_neg hand, if_neg hquote]

theorem escapeTextChar_self {c : Char} (h : c ∉ ['&', '<', '>', '\x7b', '\x7d']) :
    escapeTextChar c = [c] := by
  simp only [List.mem_cons, List.not_mem_nil, or_false, not_or] at h
  obtain ⟨hand, hless, hgreater, hopen, hclose⟩ := h
  rw [escapeTextChar, if_neg hand, if_neg hless, if_neg hgreater, if_neg hopen, if_neg hclose]

theorem escape_self {escape : Char → List Char} {cs : List Char} (h : ∀ c ∈ cs, escape c = [c]) :
    cs.flatMap escape = cs :=
  (List.flatMap_congr h).trans (List.flatMap_singleton' cs)

/-- Whether every character stands for itself or gives way to a reference. -/
def Escapes (escape : Char → List Char) : Prop :=
  ∀ c, escape c = [c] ∨ ∃ tail, escape c = '&' :: tail ∧ ∀ d ∈ tail, Text.isBlank d = false

theorem escapes_escapeChar : Escapes PrintedAttribute.escapeChar := by
  intro c
  rw [PrintedAttribute.escapeChar]
  split_ifs
  · exact .inr ⟨"amp;".toList, rfl, by decide⟩
  · exact .inr ⟨"quot;".toList, rfl, by decide⟩
  · exact .inl rfl

theorem escapes_escapeTextChar : Escapes escapeTextChar := by
  intro c
  rw [escapeTextChar]
  split_ifs
  · exact .inr ⟨"amp;".toList, rfl, by decide⟩
  · exact .inr ⟨"lt;".toList, rfl, by decide⟩
  · exact .inr ⟨"gt;".toList, rfl, by decide⟩
  · exact .inr ⟨"#123;".toList, rfl, by decide⟩
  · exact .inr ⟨"#125;".toList, rfl, by decide⟩
  · exact .inl rfl

variable {escape : Char → List Char} {cs before after : List Char}

theorem Escapes.eq_nil (h : Escapes escape) (heq : cs.flatMap escape = []) : cs = [] := by
  cases cs with
  | nil => rfl
  | cons c cs =>
    rw [List.flatMap_cons, List.append_eq_nil_iff] at heq
    rcases h c with hself | ⟨tail, hreference, -⟩
    · rw [hself] at heq
      cases heq.1
    · rw [hreference] at heq
      cases heq.1

/-- A blank in an escaped text stood in the text. -/
theorem Escapes.blank (h : Escapes escape) {b : Char} (hb : Text.isBlank b)
    (heq : cs.flatMap escape = before ++ b :: after) :
    ∃ before' after', cs = before' ++ b :: after' ∧ after'.flatMap escape = after := by
  induction cs generalizing before with
  | nil => simp at heq
  | cons c cs ih =>
    rw [List.flatMap_cons] at heq
    rcases append_eq_append_cons heq with ⟨extra, hc, rfl⟩ | ⟨front, -, hcs⟩
    · rcases h c with hself | ⟨tail, hreference, htail⟩
      · rw [hself] at hc
        cases before with
        | nil =>
          obtain ⟨rfl, rfl⟩ := List.cons.inj hc
          exact ⟨[], cs, rfl, rfl⟩
        | cons d before => simp at hc
      · have hmem : b ∈ '&' :: tail := by
          rw [← hreference, hc]
          simp
        rcases List.mem_cons.1 hmem with rfl | hmem
        · cases hb
        · rw [htail b hmem] at hb
          cases hb
    · obtain ⟨front, back, rfl, hback⟩ := ih hcs
      exact ⟨c :: front, back, rfl, hback⟩

/-- What stands unescaped behind the start of an escaped text stood there in the text. -/
theorem Escapes.literal (h : Escapes escape) {literal : List Char} (hliteral : '&' ∉ literal)
    (heq : cs.flatMap escape = literal ++ after) :
    ∃ rest, cs = literal ++ rest ∧ rest.flatMap escape = after := by
  induction literal generalizing cs with
  | nil => exact ⟨cs, rfl, heq⟩
  | cons l literal ih =>
    rw [List.mem_cons, not_or] at hliteral
    cases cs with
    | nil => cases heq
    | cons c cs =>
      rw [List.flatMap_cons] at heq
      rcases h c with hself | ⟨tail, hreference, -⟩
      · rw [hself] at heq
        obtain ⟨rfl, htail⟩ := List.cons.inj heq
        obtain ⟨rest, rfl, hrest⟩ := ih hliteral.2 htail
        exact ⟨rest, rfl, hrest⟩
      · rw [hreference] at heq
        exact absurd (List.cons.inj heq).1 hliteral.1

end Pictogram
