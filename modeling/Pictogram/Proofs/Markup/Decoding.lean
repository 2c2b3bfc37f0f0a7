import Mathlib.Data.List.TakeWhile
import Pictogram.Component.Body
import Pictogram.Markup.Reference
import Pictogram.Proofs.Text.Span

/-!
Decoding goes through a text from left to right: what a beginning decodes to does not depend on what
follows or on where the text stands. What a body escapes is decoded to what it was.
-/

namespace Pictogram.Markup

theorem resolve_anywhere {position : Nat} {name : List Char} {c : Char}
    (h : resolve position name = .ok c) (other : Nat) : resolve other name = .ok c := by
  rw [resolve.eq_def] at h ⊢
  split at h
  next number =>
    cases hn : referenceNumber number with
    | error fault =>
      rw [hn] at h
      cases h
    | ok n =>
      rw [hn] at h
      simp only [bind, Except.bind] at h ⊢
      split at h
      · cases h
      next hzero =>
        rw [if_neg hzero]
        split at h
        · exact h
        · cases h
  next hnumber =>
    split at h
    · exact h
    · cases h

theorem decodeFrom_nil (position : Nat) : decodeFrom position [] = .ok [] := by
  rw [decodeFrom]

theorem decodeFrom_cons {c : Char} (position : Nat) (hc : c ≠ '&') (cs : List Char) :
    decodeFrom position (c :: cs) =
      (decodeFrom (position + c.utf8Size) cs).map (c :: ·) := by
  rw [decodeFrom, if_neg hc]
  cases decodeFrom (position + c.utf8Size) cs <;> rfl

theorem decodeFrom_reference {c : Char} (position : Nat) (name : List Char)
    (hname : ∀ d ∈ name, inReference d) (hc : resolve position name = .ok c) (rest : List Char) :
    ∃ next, decodeFrom position ('&' :: (name ++ ';' :: rest)) =
      (decodeFrom next rest).map (c :: ·) := by
  refine ⟨position + Text.byteLength name + 2, ?_⟩
  rw [decodeFrom, if_pos rfl]
  split
  next more hd =>
    rw [Text.dropWhile_run hname (by decide)] at hd
    obtain ⟨-, rfl⟩ := List.cons.inj hd
    simp only [Text.takeWhile_run hname (show inReference ';' = false by decide), hc]
    cases decodeFrom (position + Text.byteLength name + 2) rest <;> rfl
  next hnone => exact absurd (Text.dropWhile_run hname (by decide)) (hnone rest)

/-- What a text that begins with an ampersand must be like to be decoded. -/
theorem of_decodeFrom_ampersand {position : Nat} {cs decoded : List Char}
    (h : decodeFrom position ('&' :: cs) = .ok decoded) :
    ∃ name c rest next tail, cs = name ++ ';' :: rest ∧ (∀ d ∈ name, inReference d) ∧
      resolve position name = .ok c ∧ decodeFrom next rest = .ok tail ∧ decoded = c :: tail := by
  rw [decodeFrom, if_pos rfl] at h
  split at h
  next rest hd =>
    obtain ⟨name, rfl, hname, -⟩ := Text.dropWhile_eq_cons hd
    simp only [Text.takeWhile_run hname (show inReference ';' = false by decide)] at h
    cases hc : resolve position name with
    | error fault =>
      rw [hc] at h
      cases h
    | ok c =>
      rw [hc] at h
      cases hr : decodeFrom (position + Text.byteLength name + 2) rest with
      | error fault =>
        simp only [hr, bind, Except.bind] at h
        cases h
      | ok tail =>
        simp only [hr, bind, Except.bind] at h
        exact ⟨name, c, rest, _, tail, rfl, hname, hc, hr, (Except.ok.inj h).symm⟩
  · cases h

private theorem map_map {ε α β γ : Type} (x : Except ε α) (f : α → β) (g : β → γ) :
    (x.map f).map g = x.map (g ∘ f) := by
  cases x <;> rfl

theorem eq_ok_of_map {ε α β : Type} {x : Except ε α} {f : α → β} {b : β}
    (h : x.map f = .ok b) : ∃ a, x = .ok a ∧ f a = b := by
  cases x with
  | error e => cases h
  | ok a => exact ⟨a, rfl, Except.ok.inj h⟩

/-- A decodable beginning is decoded as it would be alone, wherever the text stands. -/
theorem decodeFrom_append {position : Nat} {cs decoded : List Char}
    (h : decodeFrom position cs = .ok decoded) (other : Nat) (rest : List Char) :
    ∃ next, decodeFrom other (cs ++ rest) = (decodeFrom next rest).map (decoded ++ ·) := by
  induction hlength : cs.length using Nat.strong_induction_on
    generalizing position cs decoded other with
  | _ length ih =>
    cases cs with
    | nil =>
      rw [decodeFrom_nil] at h
      obtain rfl := Except.ok.inj h
      refine ⟨other, ?_⟩
      cases hr : decodeFrom other rest <;> simp [hr, Except.map]
    | cons c cs =>
      by_cases hc : c = '&'
      · subst hc
        obtain ⟨name, d, more, next, tail, rfl, hname, hd, htail, rfl⟩ := of_decodeFrom_ampersand h
        obtain ⟨after, hreference⟩ := decodeFrom_reference other _ hname (resolve_anywhere hd other)
          (more ++ rest)
        obtain ⟨last, hlast⟩ := ih more.length (by simp [← hlength]; omega) htail after rfl
        refine ⟨last, ?_⟩
        rw [List.cons_append, List.append_assoc, List.cons_append, hreference, hlast, map_map]
        rfl
      · rw [decodeFrom_cons position hc] at h
        obtain ⟨tail, htail, rfl⟩ := eq_ok_of_map h
        obtain ⟨last, hlast⟩ := ih cs.length (by simp [← hlength]) htail
          (other + c.utf8Size) rfl
        refine ⟨last, ?_⟩
        rw [List.cons_append, decodeFrom_cons other hc, hlast, map_map]
        rfl

theorem decodeFrom_anywhere {position : Nat} {cs decoded : List Char}
    (h : decodeFrom position cs = .ok decoded) (other : Nat) :
    decodeFrom other cs = .ok decoded := by
  obtain ⟨next, hnext⟩ := decodeFrom_append h other []
  simpa [decodeFrom_nil, Except.map] using hnext

/-- Texts that can be decoded can be decoded as one. -/
theorem decode_append {a b a' b' : String} (ha : decode a = .ok a') (hb : decode b = .ok b') :
    decode (a ++ b) = .ok (a' ++ b') := by
  obtain ⟨as, has, rfl⟩ := eq_ok_of_map ha
  obtain ⟨bs, hbs, rfl⟩ := eq_ok_of_map hb
  obtain ⟨next, hnext⟩ := decodeFrom_append has 0 b.toList
  rw [decode, String.toList_append, hnext, decodeFrom_anywhere hbs]
  simp [Except.map]

/-- A text without ampersands stands for itself. -/
theorem decodeFrom_of_no_ampersand {cs : List Char} (position : Nat) (h : '&' ∉ cs) :
    decodeFrom position cs = .ok cs := by
  induction cs generalizing position with
  | nil => exact decodeFrom_nil position
  | cons c cs ih =>
    rw [List.mem_cons, not_or] at h
    rw [decodeFrom_cons position (Ne.symm h.1), ih _ h.2]
    rfl

/-- Where each thing is written so that it is decoded to one character, so are all of them. -/
theorem decodeFrom_flatMap_of_forall {α : Type} {write : α → List Char} {meaning : α → Char}
    {xs : List α}
    (h : ∀ x ∈ xs, ∀ position rest, ∃ next,
      decodeFrom position (write x ++ rest) = (decodeFrom next rest).map (meaning x :: ·))
    (position : Nat) : decodeFrom position (xs.flatMap write) = .ok (xs.map meaning) := by
  induction xs generalizing position with
  | nil => exact decodeFrom_nil position
  | cons x xs ih =>
    obtain ⟨hx, hxs⟩ := List.forall_mem_cons.1 h
    obtain ⟨next, hnext⟩ := hx position (xs.flatMap write)
    rw [List.flatMap_cons, hnext, ih hxs next]
    rfl

/-- What a body makes of a value or a text, one character after the other, is decoded to what it
was. -/
theorem decodeFrom_flatMap {escape : Char → List Char}
    (hescape : ∀ c position rest, ∃ next,
      decodeFrom position (escape c ++ rest) = (decodeFrom next rest).map (c :: ·))
    (position : Nat) (cs : List Char) : decodeFrom position (cs.flatMap escape) = .ok cs := by
  have hall : decodeFrom position (cs.flatMap escape) = .ok (cs.map id) :=
    decodeFrom_flatMap_of_forall (fun c _ => hescape c) position
  rwa [List.map_id] at hall

theorem decodeFrom_escapeChar (c : Char) (position : Nat) (rest : List Char) :
    ∃ next, decodeFrom position (PrintedAttribute.escapeChar c ++ rest) =
      (decodeFrom next rest).map (c :: ·) := by
  by_cases hand : c = '&'
  · subst hand
    exact decodeFrom_reference position "amp".toList (by decide) rfl rest
  by_cases hquote : c = '"'
  · subst hquote
    exact decodeFrom_reference position "quot".toList (by decide) rfl rest
  refine ⟨position + c.utf8Size, ?_⟩
  rw [PrintedAttribute.escapeChar, if_neg hand, if_neg hquote]
  exact decodeFrom_cons position hand rest

theorem decodeFrom_escapeTextChar (c : Char) (position : Nat) (rest : List Char) :
    ∃ next, decodeFrom position (escapeTextChar c ++ rest) =
      (decodeFrom next rest).map (c :: ·) := by
  by_cases hand : c = '&'
  · subst hand
    exact decodeFrom_reference position "amp".toList (by decide) rfl rest
  by_cases hless : c = '<'
  · subst hless
    exact decodeFrom_reference position "lt".toList (by decide) rfl rest
  by_cases hmore : c = '>'
  · subst hmore
    exact decodeFrom_reference position "gt".toList (by decide) rfl rest
  by_cases hopen : c = '\x7b'
  · subst hopen
    exact decodeFrom_reference position "#123".toList (by decide) rfl rest
  by_cases hclose : c = '\x7d'
  · subst hclose
    exact decodeFrom_reference position "#125".toList (by decide) rfl rest
  refine ⟨position + c.utf8Size, ?_⟩
  rw [escapeTextChar, if_neg hand, if_neg hless, if_neg hmore, if_neg hopen, if_neg hclose]
  exact decodeFrom_cons position hand rest

end Pictogram.Markup
