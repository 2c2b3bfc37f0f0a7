import Pictogram.Component.Dialect
import Pictogram.Component.PropFlags

/-!
The props of one component: how each is declared, and which printed attributes refer to it.
-/

namespace Pictogram

/-- The type of a prop's values. -/
inductive PropKind where
  | numberOrString
  | string
  deriving DecidableEq, Repr, Inhabited

/-- The type as an interface writes it. -/
def PropKind.annotation : PropKind → String
  | numberOrString => "number | string"
  | string => "string"

/-- A prop as the component declares it; a default is the source text of an expression. -/
structure PropDeclaration where
  name : String
  kind : PropKind
  default? : Option String := none
  deriving DecidableEq, Repr, Inhabited

/-- The name in a destructuring pattern, with its default. -/
def PropDeclaration.binding (prop : PropDeclaration) : String :=
  match prop.default? with
  | some value => prop.name ++ " = " ++ value
  | none => prop.name

/-- A printed attribute whose value gives way to an expression. -/
structure Usage where
  target : String
  reference : String
  deriving DecidableEq, Repr, Inhabited

/-- The props of a component in the order of their declaration, and the attributes that use
them. -/
structure PropSchema where
  props : List PropDeclaration := []
  usages : List Usage := []
  deriving DecidableEq, Repr, Inhabited

namespace PropSchema

/-- Joins two schemas. -/
def append (s t : PropSchema) : PropSchema :=
  ⟨s.props ++ t.props, s.usages ++ t.usages⟩

instance : Append PropSchema := ⟨append⟩

/-- The schema of a single prop that stands in for the given attributes. -/
def single (prop : PropDeclaration) (attributes : List String) : PropSchema :=
  ⟨[prop], attributes.map (⟨·, "\x7b" ++ prop.name ++ "\x7d"⟩)⟩

/-- The schema, if it is asked for. -/
def onlyIf (asked : Bool) (s : PropSchema) : PropSchema :=
  if asked then s else {}

/-- The schema for a choice of props: width, height, class name and color, in this order. The color
stands in for both fill and stroke. -/
def ofFlags (flags : PropFlags) : PropSchema :=
  onlyIf flags.width (single ⟨"width", .numberOrString, some "24"⟩ ["width"]) ++
  onlyIf flags.height (single ⟨"height", .numberOrString, some "24"⟩ ["height"]) ++
  onlyIf flags.className (single ⟨"className", .string, none⟩ ["className"]) ++
  onlyIf flags.color (single ⟨"color", .string, some "\"currentColor\""⟩ ["fill", "stroke"])

/-- Whether the component takes no props. -/
def isEmpty (s : PropSchema) : Bool :=
  s.props.isEmpty

/-- The name of a component's interface. -/
def interfaceName (component : String) : String :=
  component ++ "Props"

/-- The interface declaration; there is none without props or in the untyped dialect. -/
def interfaceText (s : PropSchema) (dialect : Dialect) (component : String) : String :=
  if s.isEmpty || !dialect.isTyped then ""
  else
    let fields := s.props.map fun p => "  " ++ p.name ++ "?: " ++ p.kind.annotation ++ ";\n"
    "interface " ++ interfaceName component ++ " \x7b\n" ++ String.join fields ++ "\x7d"

/-- The parameter list of the component's function; it is empty without props. -/
def paramsText (s : PropSchema) (dialect : Dialect) (component : String) : String :=
  if s.isEmpty then ""
  else
    let pattern := "\x7b " ++ ", ".intercalate (s.props.map (·.binding)) ++ " \x7d"
    match dialect with
    | .typed => pattern ++ ": " ++ interfaceName component
    | .untyped => pattern

end PropSchema

end Pictogram
