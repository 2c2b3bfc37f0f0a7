import Pictogram.Proofs.Markup.AttributeList
import Pictogram.Proofs.Markup.Token

/-!
Contents of tags put together from stretches that are closed in themselves: names, spaces and
attributes with their quotes.
-/

namespace Pictogram.Markup

/-- A stretch of the content of a tag that is closed in itself and leaves no slash at its end. -/
structure Sealed (content : List Char) : Prop where
  delimited : Delimited content
  last : content.getLast? ≠ some '/'

theorem sealed_nil : Sealed [] :=
  ⟨delimited_of_closed rfl (by simp), by simp⟩

theorem Sealed.append {content more : List Char} (h : Sealed content) (hmore : Sealed more) :
    Sealed (content ++ more) := by
  refine ⟨h.delimited.append hmore.delimited, ?_⟩
  rw [List.getLast?_append]
  have hlast := hmore.last
  cases hmore' : more.getLast? with
  | none => exact h.last
  | some c =>
    rw [hmore'] at hlast
    exact hlast

theorem sealed_flatMap {α : Type} {write : α → List Char} {xs : List α}
    (h : ∀ x ∈ xs, Sealed (write x)) : Sealed (xs.flatMap write) := by
  induction xs with
  | nil => exact sealed_nil
  | cons x xs ih =>
    obtain ⟨hx, hxs⟩ := List.forall_mem_cons.1 h
    exact hx.append (ih hxs)

/-- Nothing in a run of characters that are neither quotes, brackets nor slashes has to be closed. -/
theorem sealed_of_forall {content : List Char}
    (h : ∀ c ∈ content, c ≠ '"' ∧ c ≠ '\'' ∧ c ≠ '>' ∧ c ≠ '/') : Sealed content := by
  refine ⟨?_, fun hlast => (h '/' (List.mem_of_getLast? hlast)).2.2.2 rfl⟩
  have hsame : Delimited ([] ++ content) ↔ Delimited [] :=
    delimited_append fun c hc => ⟨(h c hc).1, (h c hc).2.1, (h c hc).2.2.1⟩
  exact hsame.2 sealed_nil.delimited

theorem sealed_spaces {spaces : List Char} (h : ∀ c ∈ spaces, Text.isSpace c) : Sealed spaces := by
  refine sealed_of_forall fun c hc => ?_
  have hspace := h c hc
  refine ⟨?_, ?_, ?_, ?_⟩ <;> (rintro rfl; cases hspace)

theorem sealed_quoted {quote : Char} {raw : List Char} (hquote : quote = '"' ∨ quote = '\'')
    (h : quote ∉ raw) : Sealed (quote :: raw ++ [quote]) := by
  refine ⟨delimited_quoted hquote h, ?_⟩
  rw [List.getLast?_concat]
  rcases hquote with rfl | rfl <;> simp

/-- Whether a name consists of characters that neither end it nor begin anything else. -/
structure IsBare (name : List Char) : Prop where
  nonempty : name ≠ []
  chars : ∀ c ∈ name, Text.isSpace c = false ∧ c ∉ ['"', '\'', '<', '>', '/', '=']

theorem IsBare.seals {name : List Char} (h : IsBare name) : Sealed name := by
  refine sealed_of_forall fun c hc => ?_
  have hstop := (h.chars c hc).2
  simp only [List.mem_cons, List.not_mem_nil, or_false, not_or] at hstop
  exact ⟨hstop.1, hstop.2.1, hstop.2.2.2.1, hstop.2.2.2.2.1⟩

theorem IsBare.isKey {name : List Char} (h : IsBare name) : IsKey name := by
  obtain ⟨hne, hchars⟩ := h
  cases name with
  | nil => exact absurd rfl hne
  | cons c tail =>
    obtain ⟨hc, htail⟩ := List.forall_mem_cons.1 hchars
    refine ⟨c, tail, rfl, hc.1, fun d hd => ⟨?_, (htail d hd).1⟩⟩
    rintro rfl
    exact absurd (htail '=' hd).2 (by simp)

/-- A bare key with a quoted value behind spaces. -/
theorem sealed_assignment {spaces key raw : List Char} {quote : Char}
    (hspaces : ∀ c ∈ spaces, Text.isSpace c) (hkey : IsBare key)
    (hquote : quote = '"' ∨ quote = '\'') (hraw : quote ∉ raw) :
    Sealed (spaces ++ (key ++ '=' :: quote :: (raw ++ [quote]))) := by
  have hequals : Sealed ['='] := sealed_of_forall (by simp)
  exact (sealed_spaces hspaces).append (hkey.seals.append
    (hequals.append (sealed_quoted hquote hraw)))

/-- Whether a tag is spelled with bare names, and no value of it holds a double quote. -/
structure Tag.Bare (tag : Tag) : Prop where
  name : IsBare tag.name.toList
  attributes : ∀ a ∈ tag.attributes, IsBare a.key.toList ∧ '"' ∉ a.raw.toList

/-- The written content of a bare tag is closed where it ends. -/
theorem Tag.Bare.seals {tag : Tag} (h : tag.Bare) : Sealed tag.chars := by
  refine h.name.seals.append (sealed_flatMap fun a ha => ?_)
  obtain ⟨hkey, hraw⟩ := h.attributes a ha
  have hspace : ∀ c ∈ [' '], Text.isSpace c := by decide
  simpa [RawAttribute.chars] using sealed_assignment hspace hkey (.inl rfl) hraw

end Pictogram.Markup
