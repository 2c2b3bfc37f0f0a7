import Mathlib.Data.List.Nodup
import Pictogram.Proofs.Component.Escaping
import Pictogram.Proofs.Component.PlainNames
import Pictogram.Proofs.Component.Survivors
import Pictogram.Proofs.Markup.Decoding
import Pictogram.Proofs.Markup.Growth
import Pictogram.Proofs.Markup.Reading
import Pictogram.Proofs.Markup.TagContent

/-!
The tags of a printed element, as they are read. Where all names are plain and every attribute is
printed with its value, a printed tag is read as it was meant: its values are decoded to what they
were before they were escaped.
-/

namespace Pictogram

open Markup

/-- An attribute as it is read from a body. -/
def Attribute.printed (a : Attribute) : RawAttribute :=
  ⟨AttributeName.translate a.name, .ofList (a.value.toList.flatMap PrintedAttribute.escapeChar)⟩

/-- The tag of an element as it is read from a body. -/
def printedTag (tag : String) (attributes : List Attribute) : Tag :=
  { name := Text.lowercase tag, attributes := (Attribute.survivors attributes).map (·.printed) }

/-- The attributes of an element when its body has been read: namespace declarations are gone, names
are spelled as a component spells them, and of attributes spelled alike the last stands in the place
of the first. -/
def restoredAttributes (attributes : List Attribute) : List Attribute :=
  (Attribute.survivors attributes).map fun a => ⟨AttributeName.translate a.name, a.value⟩

/-- Whether every attribute that is printed is printed with its value. -/
def Valued (attributes : List Attribute) : Prop :=
  ∀ a ∈ attributes, AttributeName.isNamespaceDeclaration a.name = false →
    a.value ≠ "" ∧ a.value ≠ a.name

variable {tag : String} {attributes : List Attribute}

theorem chars_ofAttributes (tag : String) (h : Valued attributes) :
    (PrintedAttribute.ofAttributes attributes).flatMap (·.chars) =
      (printedTag tag attributes).attributes.flatMap (·.chars) := by
  rw [PrintedAttribute.ofAttributes_eq, List.flatMap_map, printedTag, List.flatMap_map]
  apply List.flatMap_congr
  intro a ha
  obtain ⟨hmem, hdeclaration⟩ := Attribute.mem_survivors ha
  rw [ofAttribute_of_valued (h a hmem hdeclaration), PrintedAttribute.chars, RawAttribute.chars,
    Attribute.printed, String.toList_ofList]

/-- The printed tag is the lower-cased name with the printed attributes. -/
theorem chars_printedTag (h : Valued attributes) :
    (printedTag tag attributes).chars =
      (Text.lowercase tag).toList ++
        (PrintedAttribute.ofAttributes attributes).flatMap (·.chars) := by
  rw [Tag.chars, chars_ofAttributes tag h]
  rfl

/-- The characters of plain names neither end a name nor begin anything else. -/
theorem IsPlain.bare {name : String} (h : IsPlain name) : IsBare name.toList := by
  have hstops : ∀ d ∈ ['"', '\'', '<', '>', '/', '='], isNameChar d = false := by decide
  refine ⟨h.1, fun c hc => ⟨isSpace_of_isNameChar (h.2 c hc), fun hmem => ?_⟩⟩
  exact absurd (h.2 c hc) (by simp [hstops c hmem])

theorem unquoted_printedTag : Unquoted (printedTag tag attributes).attributes := by
  intro a ha
  obtain ⟨b, -, rfl⟩ := List.mem_map.1 ha
  rw [Attribute.printed, String.toList_ofList]
  exact not_mem_escape quote_not_mem_escapeChar b.value.toList

/-- The values of a printed tag are decoded to what they were. -/
theorem element_printedTag (tag : String) (attributes : List Attribute) :
    (printedTag tag attributes).element =
      .ok { tag := Text.lowercase tag, attributes := restoredAttributes attributes } := by
  refine element_eq_ok_iff.2 ⟨restoredAttributes attributes, ?_, rfl⟩
  rw [printedTag, restoredAttributes]
  induction Attribute.survivors attributes with
  | nil => rfl
  | cons a more ih =>
    refine decodeAttributes_cons_eq_ok_iff.2 ⟨a.value, _, ?_, ih, rfl⟩
    change decode (.ofList _) = _
    rw [decode, String.toList_ofList, decodeFrom_flatMap decodeFrom_escapeChar]
    simp [Except.map]

section Reading

variable (htag : IsPlain tag) (hattributes : ∀ a ∈ attributes, IsPlain a.name)
include htag hattributes

theorem sound_printedTag : (printedTag tag attributes).Sound := by
  have hname := htag.lowercase
  refine ⟨fun c hc => isSpace_of_isNameChar (hname.2 c hc), ?_, ?_, ?_⟩
  · intro c tail heq
    have hc := hname.2 c (by rw [show (Text.lowercase tag).toList = _ from heq]; simp)
    exact ⟨ne_of_isNameChar hc (by decide), ne_of_isNameChar hc (by decide),
      ne_of_isNameChar hc (by decide)⟩
  · rw [printedTag, List.map_map]
    have hnodup := List.Nodup.map (f := String.toList)
      (fun _ _ h => String.toList_injective h) (Attribute.nodup_survivors attributes)
    rwa [List.map_map] at hnodup
  · intro a ha
    obtain ⟨b, hb, rfl⟩ := List.mem_map.1 ha
    exact ⟨(hattributes b (Attribute.mem_survivors hb).1).translate.bare.isKey, rfl⟩

/-- A printed tag is closed where it ends, and has no slash of its own there. -/
theorem sealed_printedTag : Sealed (printedTag tag attributes).chars := by
  have hbare : (printedTag tag attributes).Bare := by
    refine ⟨htag.lowercase.bare, fun a ha => ?_⟩
    obtain ⟨b, hb, rfl⟩ := List.mem_map.1 ha
    have hkey := (hattributes b (Attribute.mem_survivors hb).1).translate.bare
    exact ⟨hkey, unquoted_printedTag _ ha⟩
  exact hbare.seals

theorem readFrom_printedOpening (names : List String) (rest : List Char) :
    readFrom names ('<' :: ((printedTag tag attributes).chars ++ '>' :: rest)) =
      (readFrom (Text.lowercase tag :: names) rest).cons (.opening (printedTag tag attributes)) := by
  have hsound := sound_printedTag htag hattributes
  obtain ⟨hdelimited, hlast⟩ := sealed_printedTag htag hattributes
  have hcontent : OpeningContent (printedTag tag attributes).chars :=
    ⟨hdelimited, beginsTag_chars hsound, hlast⟩
  have hread := ofContent_written [] hsound rfl unquoted_printedTag (by simp)
  rw [List.append_nil] at hread
  rw [readFrom_opening names hcontent, hread]
  rfl

/-- The space before the closing slash belongs to nothing. -/
theorem readFrom_printedSelfClosing (names : List String) (rest : List Char) :
    readFrom names ('<' :: ((printedTag tag attributes).chars ++ ' ' :: '/' :: '>' :: rest)) =
      (readFrom names rest).cons (.selfClosing (printedTag tag attributes)) := by
  have hsound := sound_printedTag htag hattributes
  have hcontent : ClosedContent ((printedTag tag attributes).chars ++ [' ']) :=
    ⟨(delimited_append (by simp)).2 (sealed_printedTag htag hattributes).delimited,
      (beginsTag_chars hsound).append (by simp [BeginsTag]), by simp⟩
  have hread := ofContent_written [' '] hsound rfl unquoted_printedTag (by decide)
  have hclosed := readFrom_selfClosing names hcontent rest
  rw [hread, List.append_assoc] at hclosed
  exact hclosed

end Reading

end Pictogram
