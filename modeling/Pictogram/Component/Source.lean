import Pictogram.Component.Body
import Pictogram.Component.Options
import Pictogram.Component.PropSchema
import Pictogram.Component.Templating
import Pictogram.Text.Lines

/-!
The source of a component: an interface for its props where the dialect has one, and a function
that returns the body.
-/

namespace Pictogram.Component

/-- Joins the interface, the signature and a body. -/
def assemble (dialect : Dialect) (name : String) (schema : PropSchema) (body : String) : String :=
  let interface := schema.interfaceText dialect name
  (if interface = "" then "" else interface ++ "\n\n") ++
    "export function " ++ name ++ "(" ++ schema.paramsText dialect name ++ ") \x7b\n  return (\n" ++
    body ++ "\n  );\n\x7d\n"

/-- The body with the values of used attributes replaced. -/
def body (root : Element) (schema : PropSchema) : String :=
  Templating.apply schema.usages (root.render 1)

/-- The source of the component that shows a drawing. The name is taken as it is. -/
def source (root : Element) (options : Options) : String :=
  let schema := PropSchema.ofFlags options.props
  Text.tidy (assemble options.dialect options.name schema (body root schema))

end Pictogram.Component
