import Pictogram.Proofs.Markup.Content
import Pictogram.Proofs.Markup.TagContent

/-!
A grammar of documents: trees with everything that can stand between them, spelled with what freedom
there is in quotes, spaces, character references and the splitting of texts. The parts carry what
makes them well formed, so that every document of the grammar is one.
-/

namespace Pictogram.Markup.Document

/-- A character that has a name. -/
inductive Entity where
  | lt
  | gt
  | amp
  | apos
  | quot
  deriving DecidableEq, Repr

/-- The name of a character. -/
def Entity.name : Entity → List Char
  | lt => "lt".toList
  | gt => "gt".toList
  | amp => "amp".toList
  | apos => "apos".toList
  | quot => "quot".toList

/-- The character of a name. -/
def Entity.char : Entity → Char
  | lt => '<'
  | gt => '>'
  | amp => '&'
  | apos => '\''
  | quot => '"'

/-- One character in a text: as it is or by its name. -/
inductive Glyph where
  | bare (c : Char)
  | named (entity : Entity)
  deriving DecidableEq, Repr

/-- How a character is spelled. -/
def Glyph.chars : Glyph → List Char
  | bare c => [c]
  | named entity => '&' :: entity.name ++ [';']

/-- The character that is spelled. -/
def Glyph.char : Glyph → Char
  | bare c => c
  | named entity => entity.char

/-- A text as it is spelled in front of a character that would end it. Neither that character nor an
ampersand stands bare in it. -/
structure Spelling (stop : Char) where
  glyphs : List Glyph
  bare : ∀ c, .bare c ∈ glyphs → c ≠ '&' ∧ c ≠ stop

namespace Spelling

variable {stop : Char}

def chars (s : Spelling stop) : List Char :=
  s.glyphs.flatMap (·.chars)

/-- The text that is spelled. -/
def text (s : Spelling stop) : String :=
  .ofList (s.glyphs.map (·.char))

/-- The text that is spelled, if there is anything of it. -/
def text? (s : Spelling stop) : Option String :=
  if s.glyphs = [] then none else some s.text

def empty : Spelling stop :=
  ⟨[], by simp⟩

def append (s t : Spelling stop) : Spelling stop :=
  ⟨s.glyphs ++ t.glyphs, fun c hc => (List.mem_append.1 hc).elim (s.bare c) (t.bare c)⟩

end Spelling

/-- The quotes around a value. -/
inductive Quote where
  | double
  | single
  deriving DecidableEq, Repr

def Quote.char : Quote → Char
  | double => '"'
  | single => '\''

/-- A run of spaces. -/
structure Gap where
  chars : List Char
  spaces : ∀ c ∈ chars, Text.isSpace c

/-- A name of an element or an attribute. -/
structure Name where
  chars : List Char
  bare : IsBare chars
  begins : BeginsTag chars

/-- An attribute with what separates it from what is before it. -/
structure WrittenAttribute where
  gap : Gap
  gap_ne : gap.chars ≠ []
  name : Name
  quote : Quote
  value : Spelling quote.char

namespace WrittenAttribute

def chars (a : WrittenAttribute) : List Char :=
  a.gap.chars ++ (a.name.chars ++ '=' :: a.quote.char :: (a.value.chars ++ [a.quote.char]))

/-- What the attribute stands for. -/
def meaning (a : WrittenAttribute) : Attribute :=
  ⟨.ofList a.name.chars, a.value.text⟩

end WrittenAttribute

/-- A tag that begins an element, without its brackets. -/
structure StartTag where
  name : Name
  attributes : List WrittenAttribute
  distinct : (attributes.map (·.name.chars)).Nodup
  gap : Gap

namespace StartTag

def chars (t : StartTag) : List Char :=
  t.name.chars ++ (t.attributes.flatMap (·.chars) ++ t.gap.chars)

/-- The element that the tag begins, with what is in it. -/
def element (t : StartTag) (children : List Element) (text : Option String) : Element :=
  ⟨.ofList t.name.chars, t.attributes.map (·.meaning), children, text⟩

end StartTag

/-- A piece of a document. A declaration of the language is spelled like an instruction. -/
inductive Piece where
  | text (spelling : Spelling '<')
  | cdata (raw : List Char) (h : ¬ "]]>".toList <:+: raw)
  | comment (raw : List Char) (h : ¬ "--".toList <:+: raw)
  | instruction (raw : List Char) (hne : raw ≠ []) (h : '>' ∉ raw)
  | empty (tag : StartTag)
  | element (tag : StartTag) (content : List Piece) (gap : Gap)

/-- A text between the marks that set it off. -/
def between (opening closing : String) (raw : List Char) : List Char :=
  opening.toList ++ (raw ++ closing.toList)

mutual

/-- How a piece is spelled. -/
def Piece.chars : Piece → List Char
  | .text spelling => spelling.chars
  | .cdata raw _ => between "<![CDATA[" "]]>" raw
  | .comment raw _ => between "<!--" "-->" raw
  | .instruction raw _ _ => between "<?" "?>" raw
  | .empty tag => '<' :: (tag.chars ++ ['/', '>'])
  | .element tag content gap =>
    '<' :: (tag.chars ++ '>' :: (charsAll content ++
      '<' :: '/' :: (tag.name.chars ++ gap.chars ++ ['>'])))

/-- How pieces are spelled one after the other. -/
def charsAll : List Piece → List Char
  | [] => []
  | piece :: pieces => piece.chars ++ charsAll pieces

end

/-- The text of a document. -/
def markup (pieces : List Piece) : String :=
  .ofList (charsAll pieces)

/-- The text that a piece adds to the element around it. -/
def Piece.text? : Piece → Option String
  | .text spelling => spelling.text?
  | .cdata raw _ => some (.ofList raw)
  | _ => none

/-- The text that pieces are to give the element around them, in order. -/
def textAll : List Piece → Option String
  | [] => none
  | piece :: pieces => joinText piece.text? (textAll pieces)

mutual

/-- The elements that a piece stands for. -/
def Piece.trees : Piece → List Element
  | .empty tag => [tag.element [] none]
  | .element tag content _ => [tag.element (treesAll content) (textAll content)]
  | _ => []

/-- The elements that pieces stand for, in order. -/
def treesAll : List Piece → List Element
  | [] => []
  | piece :: pieces => piece.trees ++ treesAll pieces

end

end Pictogram.Markup.Document
