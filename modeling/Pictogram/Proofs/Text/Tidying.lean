import Pictogram.Text.Lines

/-!
Tidying one character at a time. A text need not be taken apart into lines to be tidied: from the
end on, every character is put in front of what is tidy, unless it is a blank at the end of a line.
-/

namespace Pictogram.Text

/-- Puts a character in front of a tidy text, but no blank at the end of a line. -/
def tidyCons (c : Char) : List Char → List Char
  | [] => if isBlank c && c != '\n' then [] else [c]
  | d :: rest => if isBlank c && c != '\n' && d == '\n' then d :: rest else c :: d :: rest

/-- Tidies a text in front of a tidy one. -/
def tidyBefore (cs rest : List Char) : List Char :=
  cs.foldr tidyCons rest

variable {c d : Char} {cs rest line : List Char}

theorem tidyCons_of_not_blank (hc : isBlank c = false) (rest : List Char) :
    tidyCons c rest = c :: rest := by
  cases rest <;> simp [tidyCons, hc]

theorem tidyCons_of_ne (hd : d ≠ '\n') (c : Char) (rest : List Char) :
    tidyCons c (d :: rest) = c :: d :: rest := by
  simp [tidyCons, hd]

theorem tidyCons_break (rest : List Char) : tidyCons '\n' rest = '\n' :: rest := by
  cases rest <;> simp [tidyCons]

theorem tidyBefore_cons (c : Char) (cs rest : List Char) :
    tidyBefore (c :: cs) rest = tidyCons c (tidyBefore cs rest) :=
  rfl

theorem tidyBefore_append (cs cs' rest : List Char) :
    tidyBefore (cs ++ cs') rest = tidyBefore cs (tidyBefore cs' rest) :=
  List.foldr_append

theorem tidyBefore_of_not_blank (h : ∀ c ∈ cs, isBlank c = false) (rest : List Char) :
    tidyBefore cs rest = cs ++ rest := by
  induction cs with
  | nil => rfl
  | cons c cs ih =>
    obtain ⟨hc, hcs⟩ := List.forall_mem_cons.1 h
    rw [tidyBefore_cons, ih hcs, tidyCons_of_not_blank hc, List.cons_append]

/-- Tidying drops characters, and does nothing else. -/
theorem exists_tidyBefore (cs rest : List Char) :
    ∃ kept, tidyBefore cs rest = kept ++ rest ∧ kept.Sublist cs := by
  induction cs with
  | nil => exact ⟨[], rfl, List.Sublist.slnil⟩
  | cons c cs ih =>
    obtain ⟨kept, hkept, hsub⟩ := ih
    have hcons : tidyCons c (kept ++ rest) = kept ++ rest ∨
        tidyCons c (kept ++ rest) = c :: (kept ++ rest) := by
      cases kept ++ rest with
      | nil =>
        rw [tidyCons]
        split
        · exact .inl rfl
        · exact .inr rfl
      | cons d more =>
        rw [tidyCons]
        split
        · exact .inl rfl
        · exact .inr rfl
    rw [tidyBefore_cons, hkept]
    rcases hcons with hdropped | hstays
    · exact ⟨kept, hdropped, hsub.cons c⟩
    · exact ⟨c :: kept, hstays, hsub.cons_cons c⟩

/-- Tidying keeps what is shown, and does nothing around it but drop characters. -/
theorem exists_tidyBefore_cons (hc : isBlank c = false) (cs cs' rest : List Char) :
    ∃ kept kept', tidyBefore (cs ++ c :: cs') rest = kept ++ c :: kept' ++ rest ∧ kept.Sublist cs := by
  obtain ⟨kept', hkept', -⟩ := exists_tidyBefore cs' rest
  obtain ⟨kept, hkept, hsub⟩ := exists_tidyBefore cs (c :: (kept' ++ rest))
  refine ⟨kept, kept', ?_, hsub⟩
  rw [tidyBefore_append, tidyBefore_cons, hkept', tidyCons_of_not_blank hc, hkept,
    List.append_assoc, List.cons_append]

theorem trimEnd_cons (c : Char) (line : List Char) :
    trimEnd (c :: line) =
      if trimEnd line = [] ∧ isBlank c then [] else c :: trimEnd line := by
  rw [trimEnd, dropEnd, List.reverse_cons, List.dropWhile_append, trimEnd, dropEnd]
  by_cases hline : line.reverse.dropWhile isBlank = []
  · by_cases hc : isBlank c <;> simp [hline, hc]
  · simp [hline]

/-- A blank goes to the end of a line that has been trimmed to nothing. -/
theorem tidyCons_joinLines (hc : c ≠ '\n') (hline : '\n' ∉ line) (rest : List (List Char)) :
    tidyCons c (joinLines (trimEnd line :: rest)) = joinLines (trimEnd (c :: line) :: rest) := by
  have hjoin : ∀ first, joinLines (first :: rest) =
      first ++ joinLines ([] :: rest) := by
    intro first
    cases rest <;> simp [joinLines]
  have hbreak : joinLines ([] :: rest) = [] ∨ ∃ more, joinLines ([] :: rest) = '\n' :: more := by
    cases rest with
    | nil => exact .inl rfl
    | cons next rest => exact .inr ⟨_, rfl⟩
  rw [hjoin (trimEnd line), hjoin (trimEnd (c :: line)), trimEnd_cons]
  cases htrim : trimEnd line with
  | nil =>
    rcases hbreak with hend | ⟨more, hmore⟩
    · by_cases hblank : isBlank c <;> simp [hend, tidyCons, hblank, hc]
    · by_cases hblank : isBlank c <;> simp [hmore, tidyCons, hblank, hc]
  | cons d kept =>
    have hd : d ≠ '\n' := by
      rintro rfl
      have hmem : '\n' ∈ trimEnd line := by simp [htrim]
      rw [trimEnd, dropEnd, List.mem_reverse] at hmem
      exact hline (List.mem_reverse.1 ((List.dropWhile_suffix _).subset hmem))
    simp [tidyCons_of_ne hd]

/-- The lines of a text whose last line shows something, and what tidying makes of them. -/
theorem lines_tidyBefore (hc : isBlank c = false) (cs : List Char) :
    ∃ line more, lines (cs ++ [c, '\n']) = line :: more ∧ '\n' ∉ line ∧
      joinLines ((line :: more).map trimEnd) = tidyBefore cs [c] ∧
      ∃ last, ((line :: more).map trimEnd).getLast? = some last ∧ last ≠ [] := by
  have hne : c ≠ '\n' := by
    rintro rfl
    cases hc
  induction cs with
  | nil =>
    have htrim : trimEnd [c] = [c] := by simp [trimEnd, dropEnd, hc]
    refine ⟨[c], [], ?_, by simpa using hne.symm, ?_, [c], ?_, by simp⟩
    · simp [lines, hne]
    · rw [List.map_singleton, htrim]
      rfl
    · rw [List.map_singleton, htrim]
      rfl
  | cons d cs ih =>
    obtain ⟨line, more, hlines, hline, hjoin, last, hlast, hshown⟩ := ih
    by_cases hd : d = '\n'
    · subst hd
      refine ⟨[], line :: more, ?_, by simp, ?_, last, ?_, hshown⟩
      · rw [List.cons_append, lines, if_pos rfl, hlines]
      · rw [tidyBefore_cons, ← hjoin, tidyCons_break]
        rfl
      · rw [List.map_cons, List.map_cons, List.getLast?_cons_cons, ← List.map_cons, hlast]
    · refine ⟨d :: line, more, ?_, ?_, ?_, ?_⟩
      · rw [List.cons_append, lines, if_neg hd, hlines]
      · rw [List.mem_cons, not_or]
        exact ⟨Ne.symm hd, hline⟩
      · rw [List.map_cons] at hjoin ⊢
        rw [tidyBefore_cons, ← hjoin, tidyCons_joinLines hd hline]
      · rw [List.map_cons] at hlast ⊢
        cases more with
        | nil =>
          rw [List.map_nil, List.getLast?_singleton] at hlast ⊢
          refine ⟨_, rfl, ?_⟩
          rw [trimEnd_cons, if_neg]
          · simp
          · rintro ⟨hnil, -⟩
            exact hshown ((Option.some.inj hlast).symm.trans hnil)
        | cons next more =>
          rw [List.map_cons, List.getLast?_cons_cons] at hlast ⊢
          exact ⟨last, hlast, hshown⟩

/-- A text that ends in a line break behind something shown is tidied character by character. -/
theorem tidyChars_concat (hc : isBlank c = false) (cs : List Char) :
    tidyChars (cs ++ [c, '\n']) = tidyBefore cs [c] ++ ['\n'] := by
  obtain ⟨line, more, hlines, -, hjoin, last, hlast, hshown⟩ := lines_tidyBefore hc cs
  have hkept : dropFinalEmpty ((line :: more).map trimEnd) = (line :: more).map trimEnd := by
    obtain ⟨init, hinit⟩ := List.getLast?_eq_some_iff.1 hlast
    rw [hinit, dropFinalEmpty, List.reverse_append, List.reverse_singleton, List.singleton_append,
      List.dropWhile_cons_of_neg (by simpa using hshown), List.reverse_cons, List.reverse_reverse]
  rw [tidyChars, hlines, hkept, hjoin]

end Pictogram.Text
