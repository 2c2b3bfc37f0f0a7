import Pictogram.Proofs.Markup.Reading

/-!
What a token leaves of the text that it was read from is an end of that text, so that the texts
among the events stand in it as they were read.
-/

namespace Pictogram.Markup

theorem suffix_splitBalanced {depth : Nat} {cs inner rest : List Char}
    (h : splitBalanced depth cs = some (inner, rest)) : rest <:+ cs := by
  induction cs generalizing depth inner with
  | nil => cases h
  | cons c cs ih =>
    rw [splitBalanced] at h
    split at h
    · obtain ⟨-, rfl⟩ := Prod.mk.inj (Option.some.inj h)
      exact List.suffix_cons c cs
    · obtain ⟨⟨i, r⟩, hr, he⟩ := Option.map_eq_some_iff.1 h
      obtain ⟨-, rfl⟩ := Prod.mk.inj he
      exact (ih hr).trans (List.suffix_cons c cs)

theorem suffix_dropLetters? {letters cs rest : List Char}
    (h : dropLetters? letters cs = some rest) : rest <:+ cs := by
  fun_induction dropLetters? letters cs with
  | case1 cs =>
    obtain rfl := Option.some.inj h
    exact List.suffix_refl cs
  | case2 => cases h
  | case3 letters c cs ih => exact (ih h).trans (List.suffix_cons c cs)
  | case4 => cases h

theorem suffix_splitAround? {literal cs raw rest : List Char}
    (h : Text.splitAround? literal cs = some (raw, rest)) : rest <:+ cs :=
  ⟨raw ++ literal, (Text.eq_append_of_splitAround? h).symm⟩

theorem suffix_splitBracket (cs : List Char) : (splitBracket cs).2 <:+ cs :=
  (List.drop_suffix 1 _).trans (List.dropWhile_suffix _)

theorem suffix_readDeclaration {cs rest : List Char} {token : Token}
    (h : readDeclaration cs = .ok (token, rest)) :
    rest <:+ cs ∧ ∀ raw, token ≠ .text raw := by
  cases cs with
  | nil => cases h
  | cons c tail =>
    have hcons : ∀ {P : Prop}, rest <:+ tail ∧ P → rest <:+ c :: tail ∧ P := fun htail =>
      ⟨htail.1.trans (List.suffix_cons c tail), htail.2⟩
    refine hcons ?_
    simp only [readDeclaration] at h
    split at h
    · split at h
      next raw r hr =>
        obtain ⟨rfl, rfl⟩ := Prod.mk.inj (Except.ok.inj h)
        obtain ⟨middle, hm, hs⟩ := Option.bind_eq_some_iff.1 hr
        exact ⟨(suffix_splitAround? hs).trans (suffix_dropLetters? hm), by simp⟩
      next => cases h
    · split at h
      · split at h
        next raw r hr =>
          obtain ⟨rfl, rfl⟩ := Prod.mk.inj (Except.ok.inj h)
          obtain ⟨middle, hm, hs⟩ := Option.bind_eq_some_iff.1 hr
          have hmiddle : middle <:+ tail := ⟨_, (Text.dropLiteral?_eq_some_iff.1 hm).symm⟩
          exact ⟨(suffix_splitAround? hs).trans hmiddle, by simp⟩
        next => cases h
      · split at h
        · split at h
          next raw r hr =>
            split at h
            · cases h
            · obtain ⟨rfl, rfl⟩ := Prod.mk.inj (Except.ok.inj h)
              obtain ⟨middle, hm, hs⟩ := Option.bind_eq_some_iff.1 hr
              exact ⟨(suffix_splitBalanced hs).trans (suffix_dropLetters? hm), by simp⟩
          next => cases h
        · cases h

theorem suffix_readBracket {c : Char} {cs rest : List Char} {token : Token}
    (h : readBracket c cs = .ok (token, rest)) :
    rest <:+ c :: cs ∧ ∀ raw, token ≠ .text raw := by
  have hbracket := (suffix_splitBracket cs).trans (List.suffix_cons c cs)
  rw [readBracket] at h
  split at h
  · obtain ⟨hsuffix, htext⟩ := suffix_readDeclaration h
    exact ⟨hsuffix.trans (List.suffix_cons c cs), htext⟩
  · split at h
    · obtain ⟨rfl, rfl⟩ := Prod.mk.inj (Except.ok.inj h)
      exact ⟨hbracket, by simp⟩
    · split at h
      · simp only [readInstruction] at h
        split at h
        · obtain ⟨rfl, rfl⟩ := Prod.mk.inj (Except.ok.inj h)
          exact ⟨hbracket, by simp⟩
        · cases h
      · rw [readTag] at h
        split at h
        · cases h
        next content r hsplit =>
          have hsuffix : r <:+ c :: cs :=
            ⟨content ++ ['>'], by rw [(splitTag_eq_some_iff.1 hsplit).1]; simp⟩
          split at h
          · obtain ⟨rfl, rfl⟩ := Prod.mk.inj (Except.ok.inj h)
            exact ⟨hsuffix, by simp⟩
          · obtain ⟨rfl, rfl⟩ := Prod.mk.inj (Except.ok.inj h)
            exact ⟨hsuffix, by simp⟩

/-- A token leaves an end of the text it was read from, and a text token is what stood before it. -/
theorem suffix_nextToken {cs rest : List Char} {token : Token}
    (h : nextToken cs = .ok (some (token, rest))) :
    rest <:+ cs ∧ ∀ raw, token = .text raw → cs = raw ++ rest := by
  cases cs with
  | nil => cases h
  | cons c tail =>
    by_cases hc : c = '<'
    · subst c
      cases tail with
      | nil => cases h
      | cons d tail =>
        rw [nextToken_bracket] at h
        cases hr : readBracket d tail with
        | error e =>
          rw [hr] at h
          cases h
        | ok result =>
          rw [hr] at h
          obtain rfl := Option.some.inj (Except.ok.inj h)
          obtain ⟨hsuffix, htext⟩ := suffix_readBracket hr
          exact ⟨hsuffix.trans (List.suffix_cons _ _), fun raw heq => absurd heq (htext raw)⟩
    · simp only [nextToken, if_neg hc] at h
      obtain ⟨rfl, rfl⟩ := Prod.mk.inj (Option.some.inj (Except.ok.inj h))
      refine ⟨(List.dropWhile_suffix _).trans (List.suffix_cons c tail), ?_⟩
      rintro raw heq
      obtain rfl := Token.text.inj heq
      rw [List.cons_append, List.takeWhile_append_dropWhile]

theorem text_of_ofToken {names names' : List String} {token : Token} {raw : String}
    (h : Event.ofToken names token = .ok (.text raw, names')) : token = .text raw.toList := by
  cases token with
  | text content =>
    obtain ⟨heq, -⟩ := Prod.mk.inj (Except.ok.inj h)
    rw [← Event.text.inj heq, String.toList_ofList]
  | closing content =>
    cases names with
    | nil => cases h
    | cons name names =>
      simp only [Event.ofToken, close] at h
      split at h <;> simp at h
  | _ => simp [Event.ofToken] at h

/-- A text among the events stands in the text that was read. -/
theorem text_stands {names : List String} (cs : List Char) {raw : String}
    (h : .text raw ∈ (readFrom names cs).events) : raw.toList <:+: cs := by
  induction hlength : cs.length using Nat.strong_induction_on generalizing names cs with
  | _ length ih =>
    cases hnext : nextToken cs with
    | error e =>
      rw [readFrom_error hnext] at h
      cases h
    | ok result =>
      cases result with
      | none =>
        rw [readFrom_none hnext] at h
        cases h
      | some found =>
        obtain ⟨token, rest⟩ := found
        obtain ⟨hsuffix, htext⟩ := suffix_nextToken hnext
        cases hevent : Event.ofToken names token with
        | error e =>
          rw [readFrom_refused hnext hevent] at h
          cases h
        | ok result =>
          obtain ⟨event, names'⟩ := result
          rw [readFrom_cons hnext hevent] at h
          rcases List.mem_cons.1 h with rfl | hrest
          · exact ⟨[], rest, (htext _ (text_of_ofToken hevent)).symm⟩
          · have hstands := ih rest.length (hlength ▸ length_nextToken hnext) rest hrest rfl
            exact hstands.trans hsuffix.isInfix

end Pictogram.Markup
