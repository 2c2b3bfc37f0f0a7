import Pictogram.Component.PropSchema
import Pictogram.Text.Blank
import Pictogram.Text.Literal

/-!
Templating: quoted values of chosen attributes give way to expressions. It works on the text, so
that it reaches every element, and takes a name for an attribute's only where it starts the text or
follows a blank.
-/

namespace Pictogram.Templating

/-- The rest of a text after its first quote. -/
def afterQuote : List Char → Option (List Char)
  | [] => none
  | c :: cs => if c = '"' then some cs else afterQuote cs

/-- The rest of a text after the given name, an equals sign and a quoted value. -/
def afterAttribute (name cs : List Char) : Option (List Char) :=
  (Text.dropLiteral? (name ++ ['=', '"']) cs).bind afterQuote

theorem length_afterQuote {cs rest : List Char} (h : afterQuote cs = some rest) :
    rest.length < cs.length := by
  fun_induction afterQuote cs with
  | case1 => simp at h
  | case2 => simp_all
  | case3 c cs hc ih => have := ih h; simp; omega

theorem length_afterAttribute {name cs rest : List Char} (h : afterAttribute name cs = some rest) :
    rest.length < cs.length := by
  obtain ⟨middle, hm, hr⟩ := Option.bind_eq_some_iff.1 h
  have := congrArg List.length (Text.dropLiteral?_eq_some_iff.1 hm)
  have := length_afterQuote hr
  simp at *
  omega

/-- Replaces the values of one attribute behind blanks, from left to right; the search goes on
behind each replaced value. -/
def replaceBehindBlanks (name reference : List Char) (cs : List Char) : List Char :=
  match cs with
  | [] => []
  | c :: cs =>
    if Text.isBlank c then
      match _h : afterAttribute name cs with
      | some rest => c :: name ++ '=' :: reference ++ replaceBehindBlanks name reference rest
      | none => c :: replaceBehindBlanks name reference cs
    else c :: replaceBehindBlanks name reference cs
termination_by cs.length
decreasing_by
  · exact Nat.lt_succ_of_lt (length_afterAttribute _h)
  · exact Nat.lt_succ_self _
  · exact Nat.lt_succ_self _

/-- Replaces the values of one attribute, where it starts the text and where it follows a blank. -/
def replaceValues (name reference cs : List Char) : List Char :=
  match afterAttribute name cs with
  | some rest => name ++ '=' :: reference ++ replaceBehindBlanks name reference rest
  | none => replaceBehindBlanks name reference cs

/-- Replaces the values of all attributes in use, one attribute after the other. -/
def applyChars (usages : List Usage) (cs : List Char) : List Char :=
  usages.foldl (fun cs u => replaceValues u.target.toList u.reference.toList cs) cs

/-- Replaces the values of all attributes in use. -/
def apply (usages : List Usage) (body : String) : String :=
  .ofList (applyChars usages body.toList)

end Pictogram.Templating
