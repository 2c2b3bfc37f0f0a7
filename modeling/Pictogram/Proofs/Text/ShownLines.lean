import Pictogram.Proofs.Text.Padding

/-!
The tidy layout as a normal form. What a text shows are its lines without the blanks at their ends,
up to the last line of which something is left; a carriage return in front of a line break is one of
those blanks. Tidying joins just these lines, and a tidy text shows the same lines as before.
-/

namespace Pictogram.Text

/-- Whether some lines are those that a text shows. -/
structure ShowsLines (cs : List Char) (shown : List (List Char)) : Prop where
  /-- The trimmed lines of the text begin with them, and nothing is left of the others. -/
  trimmed : ∃ hidden, (lines cs).map trimEnd = shown ++ hidden ∧ ∀ line ∈ hidden, line = []
  /-- Something is left of the last one. -/
  last : shown.getLast? ≠ some []

variable {cs cs' line : List Char} {ls shown shown' : List (List Char)} {c : Char}

section Trimming

theorem trimEnd_trimEnd (cs : List Char) : trimEnd (trimEnd cs) = trimEnd cs :=
  List.rdropWhile_idempotent isBlank cs

/-- What is trimmed off a line is not shown. -/
theorem filter_trimEnd (cs : List Char) :
    (trimEnd cs).filter (!isBlank ·) = cs.filter (!isBlank ·) := by
  have hblank : (cs.rtakeWhile isBlank).filter (!isBlank ·) = [] := by
    refine List.filter_eq_nil_iff.2 fun c hc => ?_
    simp [List.mem_rtakeWhile_imp hc]
  have hsplit : trimEnd cs ++ cs.rtakeWhile isBlank = cs := List.rdropWhile_append_rtakeWhile
  calc (trimEnd cs).filter (!isBlank ·)
      = (trimEnd cs ++ cs.rtakeWhile isBlank).filter (!isBlank ·) := by
        rw [List.filter_append, hblank, List.append_nil]
    _ = cs.filter (!isBlank ·) := by rw [hsplit]

end Trimming

section Lines

theorem break_not_mem_lines : ∀ {cs : List Char}, ∀ line ∈ lines cs, '\n' ∉ line := by
  intro cs
  induction cs with
  | nil => simp [lines]
  | cons c cs ih =>
    rw [lines]
    split
    next => exact List.forall_mem_cons.2 ⟨by simp, ih⟩
    next hc =>
      split
      next => simpa using Ne.symm hc
      next first rest heq =>
        rw [heq, List.forall_mem_cons] at ih
        refine List.forall_mem_cons.2 ⟨?_, ih.2⟩
        simpa using ⟨Ne.symm hc, ih.1⟩

theorem lines_line (h : '\n' ∉ line) (cs : List Char) :
    lines (line ++ '\n' :: cs) = line :: lines cs := by
  induction line with
  | nil => rw [List.nil_append, lines, if_pos rfl]
  | cons c line ih =>
    rw [List.mem_cons, not_or] at h
    rw [List.cons_append, lines, if_neg (Ne.symm h.1), ih h.2]

/-- Joined lines are taken apart again. -/
theorem lines_joinLines (hne : ls ≠ []) (h : ∀ line ∈ ls, '\n' ∉ line) :
    lines (joinLines ls ++ ['\n']) = ls := by
  induction ls with
  | nil => exact absurd rfl hne
  | cons line ls ih =>
    obtain ⟨hline, hls⟩ := List.forall_mem_cons.1 h
    cases ls with
    | nil => exact lines_line hline []
    | cons next ls =>
      rw [joinLines, List.append_assoc, List.cons_append, lines_line hline, ih (by simp) hls]

theorem filter_lines (cs : List Char) :
    (lines cs).flatMap (·.filter (!isBlank ·)) = cs.filter (!isBlank ·) := by
  induction cs with
  | nil => rfl
  | cons c cs ih =>
    rw [lines]
    split
    next hc =>
      subst hc
      rw [List.flatMap_cons, ih]
      rfl
    next =>
      split
      next heq =>
        rw [heq] at ih
        rw [List.filter_cons, ← ih]
        by_cases hc : isBlank c <;> simp [hc]
      next first rest heq =>
        rw [heq, List.flatMap_cons] at ih
        rw [List.flatMap_cons, List.filter_cons, List.filter_cons, ← ih]
        by_cases hc : isBlank c <;> simp [hc]

theorem filter_joinLines (ls : List (List Char)) :
    (joinLines ls).filter (!isBlank ·) = ls.flatMap (·.filter (!isBlank ·)) := by
  induction ls with
  | nil => rfl
  | cons line ls ih =>
    cases ls with
    | nil => simp [joinLines]
    | cons next ls =>
      rw [joinLines, List.filter_append, List.flatMap_cons, ← ih]
      rfl

end Lines

section Shown

theorem dropFinalEmpty_append (hlast : shown.getLast? ≠ some []) {hidden : List (List Char)}
    (hhidden : ∀ line ∈ hidden, line = []) : dropFinalEmpty (shown ++ hidden) = shown := by
  have hempty : ∀ line ∈ hidden.reverse, line.isEmpty = true := by
    intro line hline
    rw [hhidden line (List.mem_reverse.1 hline)]
    rfl
  rw [dropFinalEmpty, List.reverse_append, List.dropWhile_append_of_pos hempty]
  change shown.rdropWhile List.isEmpty = shown
  rw [List.rdropWhile_eq_self_iff]
  intro hne hlast'
  rw [List.getLast?_eq_some_getLast hne, List.isEmpty_iff.1 hlast'] at hlast
  exact hlast rfl

/-- Every text shows some lines, and no others. -/
theorem showsLines_iff :
    ShowsLines cs shown ↔ shown = dropFinalEmpty ((lines cs).map trimEnd) := by
  constructor
  · rintro ⟨⟨hidden, htrimmed, hhidden⟩, hlast⟩
    rw [htrimmed, dropFinalEmpty_append hlast hhidden]
  · rintro rfl
    refine ⟨⟨((lines cs).map trimEnd).rtakeWhile List.isEmpty,
      List.rdropWhile_append_rtakeWhile.symm, ?_⟩, ?_⟩
    · intro line hline
      exact List.isEmpty_iff.1 (List.mem_rtakeWhile_imp hline)
    · intro hlast
      cases not_of_getLast?_rdropWhile hlast

theorem ShowsLines.unique (h : ShowsLines cs shown) (h' : ShowsLines cs shown') : shown = shown' :=
  (showsLines_iff.1 h).trans (showsLines_iff.1 h').symm

theorem exists_showsLines (cs : List Char) : ∃ shown, ShowsLines cs shown :=
  ⟨_, showsLines_iff.2 rfl⟩

theorem ShowsLines.tidyChars_eq (h : ShowsLines cs shown) :
    tidyChars cs = joinLines shown ++ ['\n'] := by
  rw [tidyChars, ← showsLines_iff.1 h]

theorem ShowsLines.exists_trimEnd (h : ShowsLines cs shown) (hline : line ∈ shown) :
    ∃ full ∈ lines cs, trimEnd full = line := by
  obtain ⟨hidden, htrimmed, -⟩ := h.trimmed
  exact List.mem_map.1 (htrimmed ▸ List.mem_append_left hidden hline)

theorem ShowsLines.break_not_mem (h : ShowsLines cs shown) : ∀ line ∈ shown, '\n' ∉ line := by
  intro line hline hbreak
  obtain ⟨full, hfull, rfl⟩ := h.exists_trimEnd hline
  exact break_not_mem_lines full hfull ((List.rdropWhile_prefix isBlank full).subset hbreak)

/-- The lines of a tidy text are those that the text shows; where it shows none, one is empty. -/
theorem ShowsLines.lines_tidyChars (h : ShowsLines cs shown) :
    lines (tidyChars cs) = if shown = [] then [[]] else shown := by
  rw [h.tidyChars_eq]
  split
  next hnil =>
    subst hnil
    rfl
  next hne => exact lines_joinLines hne h.break_not_mem

/-- A tidy text shows what the text has shown before. -/
theorem ShowsLines.tidied (h : ShowsLines cs shown) : ShowsLines (tidyChars cs) shown := by
  have htrimmed : ∀ line ∈ shown, trimEnd line = id line := by
    intro line hline
    obtain ⟨full, -, rfl⟩ := h.exists_trimEnd hline
    exact trimEnd_trimEnd full
  have hsame : shown.map trimEnd = shown :=
    (List.map_congr_left htrimmed).trans (List.map_id shown)
  refine ⟨?_, h.last⟩
  rw [h.lines_tidyChars]
  split
  next hnil =>
    subst hnil
    exact ⟨[[]], rfl, by simp⟩
  next => exact ⟨[], by rw [hsame, List.append_nil], by simp⟩

/-- No line of a tidy text ends in a blank. -/
theorem ShowsLines.not_blank (h : ShowsLines cs shown) (hline : line ∈ lines (tidyChars cs))
    (hlast : line.getLast? = some c) : isBlank c = false := by
  rw [h.lines_tidyChars] at hline
  split at hline
  next =>
    rw [List.mem_singleton.1 hline] at hlast
    cases hlast
  next =>
    obtain ⟨full, -, rfl⟩ := h.exists_trimEnd hline
    exact not_of_getLast?_rdropWhile hlast

theorem getLast?_joinLines (hline : line ≠ []) (ls : List (List Char)) :
    (joinLines (ls ++ [line])).getLast? = line.getLast? := by
  induction ls with
  | nil => rfl
  | cons first ls ih =>
    obtain ⟨next, rest, hrest⟩ : ∃ next rest, ls ++ [line] = next :: rest :=
      List.exists_cons_of_ne_nil (by simp)
    rw [hrest] at ih
    rw [List.cons_append, hrest, joinLines, List.getLast?_append_of_ne_nil _ (by simp),
      List.getLast?_cons, ih, List.getLast?_eq_some_getLast hline]
    rfl

/-- The lines that a text shows end in something that is shown, if there are any. -/
theorem ShowsLines.getLast? (h : ShowsLines cs shown) :
    shown = [] ∨ ∃ c, (joinLines shown).getLast? = some c ∧ isBlank c = false := by
  rcases List.eq_nil_or_concat shown with hnil | ⟨init, line, rfl⟩
  · exact .inl hnil
  · right
    rw [List.concat_eq_append] at h ⊢
    have hmem : line ∈ init ++ [line] := by simp
    obtain ⟨full, -, rfl⟩ := h.exists_trimEnd hmem
    have hne : trimEnd full ≠ [] := by
      intro hnil
      exact h.last (by simp [hnil])
    have hlast := List.getLast?_eq_some_getLast hne
    exact ⟨_, (getLast?_joinLines hne init).trans hlast, not_of_getLast?_rdropWhile hlast⟩

/-- Tidying changes nothing of what is shown. -/
theorem filter_tidyChars (cs : List Char) :
    (tidyChars cs).filter (!isBlank ·) = cs.filter (!isBlank ·) := by
  obtain ⟨shown, h⟩ := exists_showsLines cs
  obtain ⟨hidden, htrimmed, hhidden⟩ := h.trimmed
  have hnothing : hidden.flatMap (·.filter (!isBlank ·)) = [] := by
    refine List.flatMap_eq_nil_iff.2 fun line hline => ?_
    rw [hhidden line hline, List.filter_nil]
  calc (tidyChars cs).filter (!isBlank ·)
      = (shown ++ hidden).flatMap (·.filter (!isBlank ·)) := by
        rw [h.tidyChars_eq, List.filter_append, filter_joinLines, List.flatMap_append, hnothing]
        rfl
    _ = (lines cs).flatMap (·.filter (!isBlank ·)) := by
        rw [← htrimmed, List.flatMap_map]
        simp only [filter_trimEnd]
    _ = cs.filter (!isBlank ·) := filter_lines cs

theorem tidyChars_eq_break_iff : tidyChars cs = ['\n'] ↔ ∀ c ∈ cs, isBlank c := by
  have hnone : cs.filter (!isBlank ·) = [] ↔ ∀ c ∈ cs, isBlank c := by
    simp [List.filter_eq_nil_iff]
  rw [← hnone, ← filter_tidyChars]
  constructor
  · intro h
    rw [h]
    rfl
  · intro h
    obtain ⟨shown, hshown⟩ := exists_showsLines cs
    rcases hshown.getLast? with rfl | ⟨c, hlast, hc⟩
    · exact hshown.tidyChars_eq
    · rw [hshown.tidyChars_eq, List.filter_eq_nil_iff] at h
      exact absurd hc (by simpa using h c (List.mem_append_left _ (List.mem_of_getLast? hlast)))

/-- Two texts become the same exactly if they show the same lines. -/
theorem tidyChars_eq_iff :
    tidyChars cs = tidyChars cs' ↔ ∃ shown, ShowsLines cs shown ∧ ShowsLines cs' shown := by
  constructor
  · intro hsame
    obtain ⟨shown, h⟩ := exists_showsLines cs
    obtain ⟨shown', h'⟩ := exists_showsLines cs'
    -- The text they both become still shows what each of them has shown.
    have hback := h.tidied
    rw [hsame] at hback
    obtain rfl := hback.unique h'.tidied
    exact ⟨_, h, h'⟩
  · rintro ⟨shown, h, h'⟩
    rw [h.tidyChars_eq, h'.tidyChars_eq]

end Shown

/-- Tidying gives a normal form. A tidy text stays as it is; it ends in one line break, which is all
of it where nothing is shown, and no line of it ends in a blank. Its lines are those that the text
shows, it shows the same characters, and it is the same for two texts exactly if they show the same
lines. -/
theorem tidy_normal_form (text : String) :
    tidy (tidy text) = tidy text ∧
      (∃ body, (tidy text).toList = body ++ ['\n'] ∧ body.getLast? ≠ some '\n') ∧
      (tidy text = "\n" ↔ ∀ c ∈ text.toList, isBlank c) ∧
      (∀ line ∈ lines (tidy text).toList, ∀ c, line.getLast? = some c → isBlank c = false) ∧
      (∃ shown, ShowsLines text.toList shown ∧ (tidy text).toList = joinLines shown ++ ['\n'] ∧
        (shown ≠ [] → lines (tidy text).toList = shown)) ∧
      (tidy text).toList.filter (!isBlank ·) = text.toList.filter (!isBlank ·) ∧
      ∀ other, tidy text = tidy other ↔
        ∃ shown, ShowsLines text.toList shown ∧ ShowsLines other.toList shown := by
  obtain ⟨shown, h⟩ := exists_showsLines text.toList
  have hchars : (tidy text).toList = tidyChars text.toList := String.toList_ofList
  refine ⟨?_, ⟨joinLines shown, ?_, ?_⟩, ?_, ?_, ⟨shown, h, ?_, ?_⟩, ?_, ?_⟩
  · rw [← String.toList_inj, tidy, String.toList_ofList, hchars]
    exact tidyChars_eq_iff.2 ⟨shown, h.tidied, h⟩
  · rw [hchars, h.tidyChars_eq]
  · intro hbreak
    rcases h.getLast? with rfl | ⟨c, hlast, hc⟩
    · cases hbreak
    · obtain rfl := Option.some.inj (hlast.symm.trans hbreak)
      cases hc
  · rw [← String.toList_inj, hchars]
    exact tidyChars_eq_break_iff
  · rw [hchars]
    exact fun line hline c hlast => h.not_blank hline hlast
  · rw [hchars, h.tidyChars_eq]
  · intro hne
    rw [hchars, h.lines_tidyChars, if_neg hne]
  · rw [hchars, filter_tidyChars]
  · intro other
    rw [← String.toList_inj, hchars, tidy, String.toList_ofList]
    exact tidyChars_eq_iff

end Pictogram.Text
