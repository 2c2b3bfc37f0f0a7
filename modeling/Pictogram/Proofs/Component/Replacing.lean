import Pictogram.Component.Templating
import Pictogram.Proofs.Text.Span

/-!
One pass of templating over a text: what it leaves alone and what it replaces. A pass stops at a
blank only if the name of its attribute, an equals sign and a quote follow.
-/

namespace Pictogram.Templating

/-- What stands between a blank and a value that is replaced. -/
def pattern (name : List Char) : List Char :=
  name ++ ['=', '"']

/-- Whether a pass goes over a text in front of another without a stop. -/
def Passed (name xs rest : List Char) : Prop :=
  ∀ before c after, xs = before ++ c :: after → Text.isBlank c → ¬ pattern name <+: after ++ rest

variable {name reference xs ys cs rest : List Char} {c stop : Char}

theorem afterAttribute_of_not_prefix (h : ¬ pattern name <+: rest) :
    afterAttribute name rest = none := by
  change (Text.dropLiteral? (pattern name) rest).bind afterQuote = none
  rw [Text.dropLiteral?_eq_none_iff.2 h]
  rfl

theorem afterQuote_append {raw : List Char} (hraw : '"' ∉ raw) (rest : List Char) :
    afterQuote (raw ++ '"' :: rest) = some rest := by
  induction raw with
  | nil => rfl
  | cons c raw ih =>
    rw [List.mem_cons, not_or] at hraw
    rw [List.cons_append, afterQuote, if_neg (Ne.symm hraw.1), ih hraw.2]

theorem eq_of_afterQuote (h : afterQuote cs = some rest) : ∃ raw, cs = raw ++ '"' :: rest := by
  fun_induction afterQuote cs with
  | case1 => cases h
  | case2 cs =>
    obtain rfl := Option.some.inj h
    exact ⟨[], rfl⟩
  | case3 c cs hc ih =>
    obtain ⟨raw, rfl⟩ := ih h
    exact ⟨c :: raw, rfl⟩

theorem exists_afterQuote (h : '"' ∈ cs) : ∃ rest, afterQuote cs = some rest := by
  induction cs with
  | nil => cases h
  | cons c cs ih =>
    rw [afterQuote]
    split
    · exact ⟨cs, rfl⟩
    next hc => exact ih ((List.mem_cons.1 h).resolve_left (Ne.symm hc))

/-- Where an attribute is found there are two quotes. -/
theorem count_of_afterAttribute (h : afterAttribute name cs = some rest) :
    1 < cs.count '"' := by
  obtain ⟨behind, hbehind, hquote⟩ := Option.bind_eq_some_iff.1 h
  obtain ⟨raw, rfl⟩ := eq_of_afterQuote hquote
  rw [Text.dropLiteral?_eq_some_iff.1 hbehind]
  simp only [List.count_append, List.count_cons_self, List.count_cons]
  simp
  omega

theorem afterAttribute_append (name rest : List Char) :
    afterAttribute name (name ++ '=' :: '"' :: rest) = afterQuote rest := by
  have hdrop := Text.dropLiteral?_append (name ++ ['=', '"']) rest
  rw [List.append_assoc] at hdrop
  rw [afterAttribute]
  exact congrArg (Option.bind · afterQuote) hdrop

theorem afterAttribute_value {raw : List Char} (name : List Char) (hraw : '"' ∉ raw)
    (rest : List Char) :
    afterAttribute name (name ++ '=' :: '"' :: (raw ++ '"' :: rest)) = some rest :=
  (afterAttribute_append name _).trans (afterQuote_append hraw rest)

theorem replaceBehindBlanks_nil (name reference : List Char) :
    replaceBehindBlanks name reference [] = [] := by
  rw [replaceBehindBlanks]

theorem replaceBehindBlanks_cons_of_none (h : Text.isBlank c → afterAttribute name rest = none) :
    replaceBehindBlanks name reference (c :: rest) =
      c :: replaceBehindBlanks name reference rest := by
  rw [replaceBehindBlanks]
  split
  next hc =>
    split
    next after hafter =>
      rw [h hc] at hafter
      cases hafter
    next => rfl
  next => rfl

theorem replaceBehindBlanks_cons_of_some {after : List Char} (hc : Text.isBlank c)
    (h : afterAttribute name rest = some after) :
    replaceBehindBlanks name reference (c :: rest) =
      c :: (name ++ '=' :: reference) ++ replaceBehindBlanks name reference after := by
  rw [replaceBehindBlanks, if_pos hc]
  split
  next after' hafter =>
    obtain rfl := Option.some.inj (h.symm.trans hafter)
    rfl
  next hnone =>
    rw [h] at hnone
    cases hnone

theorem replaceBehindBlanks_cons (h : Text.isBlank c → ¬ pattern name <+: rest) :
    replaceBehindBlanks name reference (c :: rest) =
      c :: replaceBehindBlanks name reference rest :=
  replaceBehindBlanks_cons_of_none fun hc => afterAttribute_of_not_prefix (h hc)

theorem exists_replaceBehindBlanks (name reference : List Char) (c : Char) (rest : List Char) :
    ∃ more, replaceBehindBlanks name reference (c :: rest) = c :: more := by
  rw [replaceBehindBlanks]
  split
  · split
    · exact ⟨_, rfl⟩
    · exact ⟨_, rfl⟩
  · exact ⟨_, rfl⟩

/-- The value behind a blank and the name is replaced. -/
theorem replaceBehindBlanks_value (name reference : List Char) {raw : List Char}
    (hc : Text.isBlank c) (hraw : '"' ∉ raw) (rest : List Char) :
    replaceBehindBlanks name reference (c :: (name ++ '=' :: '"' :: (raw ++ '"' :: rest))) =
      c :: (name ++ '=' :: reference) ++ replaceBehindBlanks name reference rest :=
  replaceBehindBlanks_cons_of_some hc (afterAttribute_value name hraw rest)

/-- With a single quote there is nothing to replace. -/
theorem replaceBehindBlanks_of_count (h : cs.count '"' ≤ 1) :
    replaceBehindBlanks name reference cs = cs := by
  induction cs with
  | nil => exact replaceBehindBlanks_nil name reference
  | cons c cs ih =>
    have hcs : cs.count '"' ≤ 1 := Nat.le_trans List.count_le_count_cons h
    rw [replaceBehindBlanks_cons_of_none, ih hcs]
    intro hc
    cases hafter : afterAttribute name cs with
    | none => rfl
    | some after => exact absurd (count_of_afterAttribute hafter) (Nat.not_lt.2 hcs)

/-- What is passed is left alone. -/
theorem replaceBehindBlanks_of_passed (reference : List Char) (h : Passed name xs rest) :
    replaceBehindBlanks name reference (xs ++ rest) =
      xs ++ replaceBehindBlanks name reference rest := by
  induction xs with
  | nil => rfl
  | cons c xs ih =>
    rw [List.cons_append, replaceBehindBlanks_cons (h [] c xs rfl), ih, List.cons_append]
    intro before d after heq
    exact h (c :: before) d after (by rw [heq, List.cons_append])

theorem passed_of_not_blank (h : ∀ c ∈ xs, Text.isBlank c = false) (rest : List Char) :
    Passed name xs rest := by
  intro before c after heq hc
  rw [h c (by simp [heq])] at hc
  cases hc

theorem passed_bracket (name rest : List Char) : Passed name ['>'] rest :=
  passed_of_not_blank (by decide) rest

theorem Passed.append (h : Passed name xs (ys ++ rest)) (h' : Passed name ys rest) :
    Passed name (xs ++ ys) rest := by
  intro before c after heq hc
  rcases append_eq_append_cons heq with ⟨more, hxs, rfl⟩ | ⟨front, -, hys⟩
  · have hpassed := h before c more hxs hc
    rw [← List.append_assoc] at hpassed
    exact hpassed
  · exact h' front c after hys hc

/-- A character that the pattern does not have ends every try to match it. -/
theorem prefix_of_stop (hstop : stop ∉ pattern name) (h : pattern name <+: xs ++ stop :: rest) :
    pattern name <+: xs := by
  obtain ⟨more, heq⟩ := h
  rcases append_eq_append_cons heq with ⟨rest, hpattern, -⟩ | ⟨front, rfl, -⟩
  · exact absurd (by simp [hpattern]) hstop
  · exact List.prefix_append _ _

theorem not_prefix_of_stop (hxs : '"' ∉ xs) (hstop : stop ∉ pattern name) (rest : List Char) :
    ¬ pattern name <+: xs ++ stop :: rest := by
  intro h
  exact hxs ((prefix_of_stop hstop h).mem (by simp [pattern]))

/-- In front of a quote the pattern is the name and an equals sign, and nothing else. -/
theorem prefix_quote_iff (hname : '"' ∉ name) (hxs : '"' ∉ xs) :
    pattern name <+: xs ++ '"' :: rest ↔ xs = name ++ ['='] := by
  have hpattern : pattern name = (name ++ ['=']) ++ ['"'] := by simp [pattern]
  rw [hpattern]
  constructor
  · rintro ⟨more, heq⟩
    rw [List.append_assoc, List.singleton_append] at heq
    have hfront : '"' ∉ name ++ ['='] := by simp [hname]
    exact (Text.run_unique (Text.run_of_not_mem hfront) (by simp) (Text.run_of_not_mem hxs) (by simp)
      heq).1.symm
  · rintro rfl
    exact ⟨rest, by simp⟩

/-- The passes for several attributes, one after the other. -/
def passes (usages : List Usage) (cs : List Char) : List Char :=
  usages.foldl (fun cs u => replaceBehindBlanks u.target.toList u.reference.toList cs) cs

theorem passes_nil (cs : List Char) : passes [] cs = cs :=
  rfl

theorem passes_cons (u : Usage) (usages : List Usage) (cs : List Char) :
    passes (u :: usages) cs =
      passes usages (replaceBehindBlanks u.target.toList u.reference.toList cs) :=
  rfl

theorem passes_append (done todo : List Usage) (cs : List Char) :
    passes (done ++ todo) cs = passes todo (passes done cs) :=
  List.foldl_append

/-- What every pass preserves, all of them preserve. -/
theorem passes_induct {p : List Char → Prop} {usages : List Usage}
    (hstep : ∀ u ∈ usages, ∀ cs, p cs →
      p (replaceBehindBlanks u.target.toList u.reference.toList cs))
    (h : p cs) : p (passes usages cs) := by
  induction usages generalizing cs with
  | nil => exact h
  | cons u usages ih =>
    obtain ⟨hfirst, hmore⟩ := List.forall_mem_cons.1 hstep
    exact ih hmore (hfirst cs h)

/-- One pass that breaks a text is enough, if the passes before it break the text too or take
nothing of it, and what is broken stays broken. -/
theorem passes_breaks {p : List Char → Prop} {done todo : List Usage} {u : Usage}
    (hstays : ∀ v ∈ done ++ u :: todo, ∀ cs, p cs →
      p (replaceBehindBlanks v.target.toList v.reference.toList cs))
    (hdone : ∀ v ∈ done, replaceBehindBlanks v.target.toList v.reference.toList cs = cs ∨
      p (replaceBehindBlanks v.target.toList v.reference.toList cs))
    (hu : p (replaceBehindBlanks u.target.toList u.reference.toList cs)) :
    p (passes (done ++ u :: todo) cs) := by
  have hbefore : passes done cs = cs ∨ p (passes done cs) := by
    refine passes_induct (p := fun xs => xs = cs ∨ p xs) ?_ (.inl rfl)
    rintro v hv xs (rfl | hbroken)
    · exact hdone v hv
    · exact .inr (hstays v (by simp [hv]) xs hbroken)
  rw [passes_append, passes_cons]
  refine passes_induct ?_ ?_
  · intro v hv
    exact hstays v (by simp [hv])
  · rcases hbefore with hsame | hbroken
    · rw [hsame]
      exact hu
    · exact hstays u (by simp) _ hbroken

end Pictogram.Templating
