import Pictogram.Proofs.Component.Returning
import Pictogram.Proofs.Files.Paths
import Pictogram.Proofs.Text.Padding
import Pictogram.Proofs.Text.ShownLines

/-!
The two dialects beside each other. The typed source of a component is its untyped source with the
interface in front and one annotation behind the pattern that takes the props apart. Tidying does not
get in the way, as nothing in front of the body has a blank at the end of a line.
-/

namespace Pictogram

open Text

/-- The line of a prop in an interface. -/
def PropDeclaration.field (p : PropDeclaration) : String :=
  "  " ++ p.name ++ "?: " ++ p.kind.annotation ++ ";"

/-- The declaration of an interface, with a line for every prop. -/
def PropSchema.declaration (s : PropSchema) (component : String) : String :=
  "interface " ++ component ++ "Props \x7b\n" ++ String.join (s.props.map (·.field ++ "\n")) ++ "\x7d"

/-- The pattern that takes the props of a component apart. -/
def PropSchema.pattern (s : PropSchema) : String :=
  "\x7b " ++ ", ".intercalate (s.props.map (·.binding)) ++ " \x7d"

/-- The names that a declaration declares: each stands on a line of its own in front of a question
mark. -/
def declaredNames (declaration : List Char) : List (List Char) :=
  ((lines declaration).filter (·.contains '?')).map fun line =>
    (line.dropWhile isBlank).takeWhile (· != '?')

/-- The names that a pattern binds: commas divide them, and something else may stand around each. -/
def boundNames (pattern : List Char) : List (List Char) :=
  (splitWhere (· == ',') pattern).map fun piece =>
    (piece.dropWhile (!ComponentName.isPart ·)).takeWhile ComponentName.isPart

/-- What the text of a prop is made of. -/
structure PropDeclaration.Plain (p : PropDeclaration) : Prop where
  ne_empty : p.name.toList ≠ []
  name : ∀ c ∈ p.name.toList, ComponentName.isPart c
  annotation : '\n' ∉ p.kind.annotation.toList
  default : ∀ value, p.default? = some value → '\n' ∉ value.toList ∧ ',' ∉ value.toList

section Props

variable {p : PropDeclaration} {ps : List PropDeclaration} {name : String}

/-- The props of every choice are plain. -/
theorem plain_props (flags : PropFlags) : ∀ p ∈ (PropSchema.ofFlags flags).props, p.Plain := by
  have hall : ∀ p ∈ (PropSchema.ofFlags .all).props, p.name.toList ≠ [] ∧
      (∀ c ∈ p.name.toList, ComponentName.isPart c) ∧ '\n' ∉ p.kind.annotation.toList ∧
      ∀ value ∈ p.default?, '\n' ∉ value.toList ∧ ',' ∉ value.toList := by
    decide +kernel
  intro p hp
  obtain ⟨hne, hname, hannotation, hdefault⟩ := hall p (Component.props_ofFlags_subset flags hp)
  exact ⟨hne, hname, hannotation, fun value hvalue => hdefault value hvalue⟩

theorem isPart_ne {c d : Char} (h : ComponentName.isPart c) (hd : ComponentName.isPart d = false) :
    c ≠ d := by
  rintro rfl
  rw [h] at hd
  cases hd

theorem not_mem_of_isPart {cs : List Char} {d : Char} (h : ∀ c ∈ cs, ComponentName.isPart c)
    (hd : ComponentName.isPart d = false) : d ∉ cs :=
  fun hmem => isPart_ne (h d hmem) hd rfl

/-- A binding is a name, behind which nothing stands that would continue it. -/
theorem PropDeclaration.Plain.binding (hp : p.Plain) :
    ∃ after, p.binding.toList = p.name.toList ++ after ∧ '\n' ∉ after ∧ ',' ∉ after ∧
      ∀ c tail, after = c :: tail → ComponentName.isPart c = false := by
  rw [PropDeclaration.binding]
  cases hdefault : p.default? with
  | none => exact ⟨[], by simp, by simp, by simp, by simp⟩
  | some value =>
    obtain ⟨hbreak, hcomma⟩ := hp.default value hdefault
    refine ⟨" = ".toList ++ value.toList, by simp [String.toList_append], ?_, ?_, ?_⟩
    · simpa using hbreak
    · simpa using hcomma
    · rintro c tail heq
      obtain ⟨rfl, -⟩ := List.cons.inj heq
      rfl

/-- The name in a binding is read back, whatever stands around the binding. -/
theorem PropDeclaration.Plain.read_binding (hp : p.Plain) (front back : List Char)
    (hfront : ∀ c ∈ front, ComponentName.isPart c = false)
    (hback : ∀ c tail, back = c :: tail → ComponentName.isPart c = false) :
    ((front ++ p.binding.toList ++ back).dropWhile (!ComponentName.isPart ·)).takeWhile
      ComponentName.isPart = p.name.toList := by
  obtain ⟨after, hbinding, -, -, hafter⟩ := hp.binding
  have hskipped : (front ++ (p.name.toList ++ (after ++ back))).dropWhile
      (!ComponentName.isPart ·) = p.name.toList ++ (after ++ back) := by
    refine dropWhile_append_of_stop (by simpa using hfront) ?_
    rintro c tail heq
    obtain ⟨first, rest, hname⟩ := List.exists_cons_of_ne_nil hp.ne_empty
    rw [hname, List.cons_append] at heq
    obtain ⟨rfl, -⟩ := List.cons.inj heq
    simp [hp.name first (by simp [hname])]
  rw [hbinding, List.append_assoc, List.append_assoc, hskipped]
  refine takeWhile_append_of_stop hp.name ?_
  rintro c tail heq
  cases after with
  | nil => exact hback c tail heq
  | cons d after =>
    obtain ⟨rfl, -⟩ := List.cons.inj heq
    exact hafter d after rfl

/-- A pattern binds the names of its props. -/
theorem boundNames_bindings (hps : ∀ p ∈ ps, p.Plain) (hne : ps ≠ []) (front : List Char)
    (hfront : ∀ c ∈ front, ComponentName.isPart c = false ∧ c ≠ ',') :
    boundNames (front ++ (", ".intercalate (ps.map (·.binding))).toList ++ [' ', '\x7d']) =
      ps.map (·.name.toList) := by
  -- The blank behind a comma stands in front of the next binding, so what does stays general.
  induction ps generalizing front with
  | nil => exact absurd rfl hne
  | cons p ps ih =>
    obtain ⟨hp, hmore⟩ := List.forall_mem_cons.1 hps
    obtain ⟨after, hbinding, -, hafter, -⟩ := hp.binding
    have hcomma : ∀ c ∈ front ++ p.binding.toList, (c == ',') = false := by
      intro c hc
      rw [beq_eq_false_iff_ne]
      rw [hbinding, List.mem_append, List.mem_append] at hc
      rcases hc with hc | hc | hc
      · exact (hfront c hc).2
      · exact isPart_ne (hp.name c hc) rfl
      · exact ne_of_mem_of_not_mem hc hafter
    have hread := fun back => hp.read_binding front back fun c hc => (hfront c hc).1
    cases ps with
    | nil =>
      have hclosing : ∀ c tail, [' ', '\x7d'] = c :: tail → ComponentName.isPart c = false := by
        rintro c tail heq
        obtain ⟨rfl, -⟩ := List.cons.inj heq
        rfl
      have hlast : ∀ c ∈ front ++ p.binding.toList ++ [' ', '\x7d'], (c == ',') = false :=
        List.forall_mem_append.2 ⟨hcomma, by decide⟩
      rw [boundNames, List.map_singleton, String.intercalate_singleton, splitWhere_run hlast,
        List.map_singleton, hread [' ', '\x7d'] hclosing, List.map_singleton]
    | cons q ps =>
      have hrest := ih hmore (by simp) [' '] (by decide)
      have hchars : front ++ (", ".intercalate ((p :: q :: ps).map (·.binding))).toList ++
          [' ', '\x7d'] = front ++ p.binding.toList ++ ',' :: ([' '] ++
            (", ".intercalate ((q :: ps).map (·.binding))).toList ++ [' ', '\x7d']) := by
        simp [String.intercalate_cons_cons, String.toList_append]
      rw [boundNames] at hrest ⊢
      rw [hchars, splitWhere_append rfl, splitWhere_run hcomma, List.map_append, hrest,
        List.map_singleton, List.map_cons]
      have hlone := hread [] (by simp)
      rw [List.append_nil] at hlone
      rw [hlone]
      rfl

theorem boundNames_pattern {s : PropSchema} (hs : ∀ p ∈ s.props, p.Plain) (hne : s.props ≠ []) :
    boundNames s.pattern.toList = s.props.map (·.name.toList) := by
  have hbound := boundNames_bindings hs hne ['\x7b', ' '] (by decide)
  rw [← hbound, PropSchema.pattern]
  simp [String.toList_append]

theorem break_not_mem_field (hp : p.Plain) : '\n' ∉ p.field.toList := by
  have hname : '\n' ∉ p.name.toList := not_mem_of_isPart hp.name rfl
  simp [PropDeclaration.field, String.toList_append, hp.annotation, hname]

/-- The name in the line of a prop is read back. -/
theorem read_field (hp : p.Plain) :
    (p.field.toList.dropWhile isBlank).takeWhile (· != '?') = p.name.toList := by
  have hchars : p.field.toList = [' ', ' '] ++
      (p.name.toList ++ '?' :: (": " ++ p.kind.annotation ++ ";").toList) := by
    simp [PropDeclaration.field, String.toList_append]
  obtain ⟨first, rest, hname⟩ := List.exists_cons_of_ne_nil hp.ne_empty
  have hfirst : isBlank first = false :=
    ComponentName.isBlank_of_isPart (hp.name first (by simp [hname]))
  have hmark : ∀ c ∈ p.name.toList, (c != '?') = true :=
    run_of_not_mem (not_mem_of_isPart hp.name rfl)
  have hindent : ([' ', ' '] ++ (p.name.toList ++ '?' ::
      (": " ++ p.kind.annotation ++ ";").toList)).dropWhile isBlank =
      p.name.toList ++ '?' :: (": " ++ p.kind.annotation ++ ";").toList := by
    rw [hname, List.cons_append]
    exact dropWhile_run (by decide) hfirst
  rw [hchars, hindent]
  exact takeWhile_run hmark rfl

/-- The lines that declare some props. -/
theorem lines_fields (hps : ∀ p ∈ ps, p.Plain) (rest : List Char) :
    lines ((ps.flatMap fun p => p.field.toList ++ ['\n']) ++ rest) =
      (ps.map (·.field.toList)) ++ lines rest := by
  induction ps with
  | nil => rfl
  | cons p ps ih =>
    obtain ⟨hp, hmore⟩ := List.forall_mem_cons.1 hps
    have hline := lines_line (break_not_mem_field hp)
      ((ps.flatMap fun p => p.field.toList ++ ['\n']) ++ rest)
    rw [ih hmore] at hline
    rw [List.map_cons, List.cons_append, ← hline]
    simp

theorem toList_declaration (s : PropSchema) (component : String) :
    (s.declaration component).toList =
      ("interface " ++ component ++ "Props \x7b").toList ++ '\n' ::
        ((s.props.flatMap fun p => p.field.toList ++ ['\n']) ++ ['\x7d']) := by
  simp [PropSchema.declaration, String.toList_append, String.toList_join, List.flatMap_map]

/-- No character that stands in neither piece of the header and in no name stands in the header. -/
theorem not_mem_header {c : Char} (hname : ∀ c ∈ name.toList, ComponentName.isPart c)
    (hc : ComponentName.isPart c = false) (hpieces : c ∉ "interface Props \x7b".toList) :
    c ∉ ("interface " ++ name ++ "Props \x7b").toList := by
  have hpieces' : c ∉ "interface ".toList ++ "Props \x7b".toList := hpieces
  rw [List.mem_append, not_or] at hpieces'
  rw [String.toList_append, String.toList_append, List.mem_append, List.mem_append, not_or, not_or]
  exact ⟨⟨hpieces'.1, not_mem_of_isPart hname hc⟩, hpieces'.2⟩

/-- A declaration declares the names of its props. -/
theorem declaredNames_declaration {s : PropSchema} (hs : ∀ p ∈ s.props, p.Plain)
    (hname : ∀ c ∈ name.toList, ComponentName.isPart c) :
    declaredNames (s.declaration name).toList = s.props.map (·.name.toList) := by
  have hlines : lines (s.declaration name).toList =
      ("interface " ++ name ++ "Props \x7b").toList ::
        ((s.props.map (·.field.toList)) ++ [['\x7d']]) := by
    rw [toList_declaration, lines_line (not_mem_header hname rfl (by decide)), lines_fields hs]
    rfl
  have hmarked : ∀ p ∈ s.props, p.field.toList.contains '?' = true := by
    intro p _
    simp [PropDeclaration.field, String.toList_append]
  have hheader : ¬ ("interface " ++ name ++ "Props \x7b").toList.contains '?' = true := by
    rw [List.contains_iff_mem]
    exact not_mem_header hname rfl (by decide)
  have hfooter : [['\x7d']].filter (·.contains '?') = [] := by decide
  rw [declaredNames, hlines, List.filter_cons, if_neg hheader, List.filter_append, hfooter,
    List.append_nil, List.filter_eq_self.2 (List.forall_mem_map.2 hmarked), List.map_map]
  exact List.map_congr_left fun p hp => read_field (hs p hp)

end Props

namespace Component

/-- What a source says up to the end of its function's parameters. -/
def preface (options : Options) : String :=
  heading options.dialect options.name (.ofFlags options.props) ++ options.name ++ "(" ++
    (PropSchema.ofFlags options.props).paramsText options.dialect options.name

/-- What follows the parameters of its function in a source, up to the last line break. -/
def behindParams (root : Element) (schema : PropSchema) : List Char :=
  tidyBefore (") \x7b\n  return (".toList ++ returned root schema) footing

/-- The body begins on a line of its own. -/
theorem behindParams_eq (root : Element) (schema : PropSchema) :
    behindParams root schema = ") \x7b\n  return (\n".toList ++
      tidyBefore ((body root schema).toList ++ ['\n', ' ', ' ']) footing := by
  have hplain : ¬ Padded ") \x7b\n  return ".toList := dropPadding_eq_self_iff.1 (by decide)
  have hchars : ") \x7b\n  return (".toList ++ returned root schema =
      ") \x7b\n  return ".toList ++ '(' :: '\n' :: ((body root schema).toList ++ ['\n', ' ', ' ']) :=
    rfl
  rw [behindParams, hchars, tidyBefore_append, tidyBefore_cons, tidyBefore_cons, tidyCons_break,
    tidyCons_of_not_blank (by decide), tidyBefore_of_not_padded hplain (by decide)]
  rfl

/-- A source keeps what it says up to the end of the parameters, if nothing of that is padding. -/
theorem toList_source_of_not_padded (root : Element) {options : Options}
    (h : ¬ Padded (preface options).toList) :
    (source root options).toList =
      (preface options).toList ++ behindParams root (.ofFlags options.props) ++ ['\n'] := by
  have hsplit : (heading options.dialect options.name (.ofFlags options.props)).toList ++
      (options.name.toList ++ ['(']) ++
      (signature options.dialect options.name (.ofFlags options.props)).toList ++ "return (".toList ++
      returned root (.ofFlags options.props) ++ ");\n".toList =
      (preface options).toList ++ (") \x7b\n  return (".toList ++
        returned root (.ofFlags options.props) ++ ");\n".toList) := by
    simp [preface, signature, String.toList_append]
  have hend : tidyBefore ");\n".toList ['\x7d'] = footing := by decide
  obtain ⟨tail, htail⟩ : ∃ tail, behindParams root (.ofFlags options.props) = ')' :: tail :=
    ⟨_, behindParams_eq root (.ofFlags options.props)⟩
  -- Tidying works from the end of the text. It comes to the preface with a bracket behind it.
  rw [source, tidy, String.toList_ofList, assemble_eq, tidyChars_concat (by decide), hsplit,
    tidyBefore_append, tidyBefore_append, hend, ← behindParams, htail,
    tidyBefore_of_not_padded h (by decide)]

section Dialects

variable {options : Options} {s : PropSchema} {name : String}

theorem isEmpty_ofFlags (flags : PropFlags) : (PropSchema.ofFlags flags).isEmpty = !flags.any := by
  obtain ⟨width, height, className, color⟩ := flags
  cases width <;> cases height <;> cases className <;> cases color <;> rfl

/-- Without props the two dialects are assembled alike. -/
theorem assemble_of_isEmpty (hs : s.isEmpty) (dialect : Dialect) (body : String) :
    assemble dialect name s body = assemble .untyped name s body := by
  rw [assemble, assemble, PropSchema.interfaceText, PropSchema.interfaceText, PropSchema.paramsText,
    PropSchema.paramsText, if_pos hs, if_pos hs, if_pos (by simp [hs]), if_pos (by simp [hs])]

theorem interfaceText_typed (hs : s.isEmpty = false) (name : String) :
    s.interfaceText .typed name = s.declaration name := by
  rw [PropSchema.interfaceText, if_neg (by simp [hs, Dialect.isTyped]), ← String.toList_inj,
    toList_declaration]
  simp [PropSchema.interfaceName, PropDeclaration.field, String.toList_append, String.toList_join,
    List.flatMap_map]

theorem preface_untyped (hs : (PropSchema.ofFlags options.props).isEmpty = false) :
    preface { options with dialect := .untyped } =
      "export function " ++ options.name ++ "(" ++ (PropSchema.ofFlags options.props).pattern := by
  simp only [preface, heading, PropSchema.interfaceText, PropSchema.paramsText, hs,
    Dialect.isTyped, PropSchema.pattern]
  rfl

theorem preface_typed (hs : (PropSchema.ofFlags options.props).isEmpty = false) :
    preface { options with dialect := .typed } =
      (PropSchema.ofFlags options.props).declaration options.name ++ "\n\n" ++
        ("export function " ++ options.name ++ "(" ++ (PropSchema.ofFlags options.props).pattern ++
          (": " ++ options.name ++ "Props")) := by
  have hdeclared : (PropSchema.ofFlags options.props).declaration options.name ≠ "" := by
    intro hnone
    have hchars := congrArg String.toList hnone
    rw [toList_declaration] at hchars
    simp at hchars
  simp only [preface, heading, interfaceText_typed hs, PropSchema.paramsText, hs]
  rw [if_neg hdeclared, ← String.toList_inj]
  simp [PropSchema.pattern, PropSchema.interfaceName, String.toList_append]

theorem break_not_mem_pattern (hs : ∀ p ∈ s.props, p.Plain) : '\n' ∉ s.pattern.toList := by
  have hbindings : '\n' ∉ (", ".intercalate (s.props.map (·.binding))).toList := by
    refine not_mem_intercalate (by decide) (List.forall_mem_map.2 fun p hp => ?_)
    obtain ⟨after, hbinding, hafter, -⟩ := (hs p hp).binding
    have hname : '\n' ∉ p.name.toList := not_mem_of_isPart (hs p hp).name rfl
    simp [hbinding, hname, hafter]
  rw [PropSchema.pattern, String.toList_append, String.toList_append, List.mem_append,
    List.mem_append, not_or, not_or]
  exact ⟨⟨by decide, hbindings⟩, by decide⟩

/-- No line of an interface ends in a blank. -/
theorem not_padded_declaration (hs : ∀ p ∈ s.props, p.Plain)
    (hname : ∀ c ∈ name.toList, ComponentName.isPart c) {rest : List Char}
    (hrest : ¬ Padded ('\x7d' :: rest)) : ¬ Padded ((s.declaration name).toList ++ rest) := by
  have hfields : ∀ ps : List PropDeclaration, (∀ p ∈ ps, p.Plain) →
      ¬ Padded ((ps.flatMap fun p => p.field.toList ++ ['\n']) ++ '\x7d' :: rest) := by
    intro ps hps
    -- Whether a line is padded shows at its end, so the lines are added from the last to the first.
    induction ps with
    | nil => exact hrest
    | cons p ps ih =>
      obtain ⟨hp, hmore⟩ := List.forall_mem_cons.1 hps
      have hlast : ∀ c, p.field.toList.getLast? = some c → isBlank c = false := by
        intro c hc
        simp only [PropDeclaration.field, String.toList_append, List.getLast?_append] at hc
        obtain rfl := Option.some.inj hc
        rfl
      simpa using not_padded_line (break_not_mem_field hp) hlast (ih hmore)
  have hlast : ∀ c, ("interface " ++ name ++ "Props \x7b").toList.getLast? = some c →
      isBlank c = false := by
    intro c hc
    simp only [String.toList_append, List.getLast?_append] at hc
    obtain rfl := Option.some.inj hc
    rfl
  rw [toList_declaration, List.append_assoc, List.cons_append, List.append_assoc]
  exact not_padded_line (not_mem_header hname rfl (by decide)) hlast (hfields s.props hs)

/-- The name and the pattern of a function stand on one line. -/
theorem break_not_mem_function (hs : ∀ p ∈ s.props, p.Plain)
    (hname : ∀ c ∈ name.toList, ComponentName.isPart c) :
    '\n' ∉ ("export function " ++ name ++ "(" ++ s.pattern).toList := by
  have hbreak : '\n' ∉ name.toList := not_mem_of_isPart hname rfl
  have hpattern := break_not_mem_pattern hs
  simp [String.toList_append, hbreak, hpattern]

theorem not_padded_preface (hname : ∀ c ∈ options.name.toList, ComponentName.isPart c)
    (hs : (PropSchema.ofFlags options.props).isEmpty = false) (dialect : Dialect) :
    ¬ Padded (preface { options with dialect }).toList := by
  have hplain := plain_props options.props
  have hfunction := break_not_mem_function hplain hname
  cases dialect with
  | untyped =>
    rw [preface_untyped hs]
    exact not_padded_of_break_not_mem hfunction
  | typed =>
    have hbreak : '\n' ∉ options.name.toList := not_mem_of_isPart hname rfl
    have hsigned : '\n' ∉ ("export function " ++ options.name ++ "(" ++
        (PropSchema.ofFlags options.props).pattern ++ (": " ++ options.name ++ "Props")).toList := by
      rw [String.toList_append, List.mem_append, not_or]
      exact ⟨hfunction, by simp [String.toList_append, hbreak]⟩
    have hempty : ¬ Padded ([] ++ '\n' :: ("export function " ++ options.name ++ "(" ++
        (PropSchema.ofFlags options.props).pattern ++ (": " ++ options.name ++ "Props")).toList) :=
      not_padded_line (by simp) (by simp) (not_padded_of_break_not_mem hsigned)
    have hbrace := not_padded_line (show '\n' ∉ ['\x7d'] by decide) (by simp; decide) hempty
    rw [preface_typed hs, String.toList_append, String.toList_append, List.append_assoc]
    exact not_padded_declaration hplain hname hbrace

end Dialects

/-- Without props the sources of the two dialects are the same. With props, the typed source is the
declaration of an interface, an empty line and the untyped source with one annotation behind the
pattern of its function, and the interface declares the names that the pattern binds. -/
theorem source_typed_untyped (root : Element) {options : Options} (h : options.validate = .ok ()) :
    (options.props.any = false → source root { options with dialect := .typed } =
      source root { options with dialect := .untyped }) ∧
      (options.props.any = true → ∃ rest : String,
        source root { options with dialect := .untyped } =
          "export function " ++ options.name ++ "(" ++
            (PropSchema.ofFlags options.props).pattern ++ (") \x7b\n  return (\n" ++ rest) ∧
        source root { options with dialect := .typed } =
          (PropSchema.ofFlags options.props).declaration options.name ++ "\n\n" ++
            ("export function " ++ options.name ++ "(" ++
              (PropSchema.ofFlags options.props).pattern ++ (": " ++ options.name ++ "Props") ++
              (") \x7b\n  return (\n" ++ rest)) ∧
        declaredNames ((PropSchema.ofFlags options.props).declaration options.name).toList =
          boundNames (PropSchema.ofFlags options.props).pattern.toList ∧
        boundNames (PropSchema.ofFlags options.props).pattern.toList =
          (PropSchema.ofFlags options.props).props.map (·.name.toList)) := by
  obtain ⟨-, hname⟩ := Options.isPart_of_validate h
  refine ⟨fun hnone => ?_, fun hany => ?_⟩
  · have hs : (PropSchema.ofFlags options.props).isEmpty := by rw [isEmpty_ofFlags, hnone]; rfl
    exact congrArg tidy (assemble_of_isEmpty hs .typed _)
  · have hs : (PropSchema.ofFlags options.props).isEmpty = false := by
      rw [isEmpty_ofFlags, hany]
      rfl
    have hplain := plain_props options.props
    have hsome : (PropSchema.ofFlags options.props).props ≠ [] := by
      simpa [PropSchema.isEmpty] using hs
    have hsource : ∀ dialect, source root { options with dialect } =
        preface { options with dialect } ++ (") \x7b\n  return (\n" ++
          .ofList (tidyBefore ((body root (.ofFlags options.props)).toList ++ ['\n', ' ', ' '])
            footing ++ ['\n'])) := by
      intro dialect
      rw [← String.toList_inj,
        toList_source_of_not_padded root (not_padded_preface hname hs dialect), behindParams_eq]
      simp [String.toList_append]
    refine ⟨.ofList (tidyBefore ((body root (.ofFlags options.props)).toList ++ ['\n', ' ', ' '])
      footing ++ ['\n']), ?_, ?_, ?_, boundNames_pattern hplain hsome⟩
    · rw [hsource, preface_untyped hs]
    · rw [hsource, preface_typed hs, String.append_assoc]
    · rw [declaredNames_declaration hplain hname, boundNames_pattern hplain hsome]

/-- A drawing that takes its size from props is not annotated anywhere but behind the pattern, and
without props it is not annotated at all. -/
theorem source_typed_untyped_sized :
    (⟨"Icon", .typed, .all⟩ : Options).validate = .ok () ∧ PropFlags.all.any = true ∧
      (⟨"Icon", .typed, .none⟩ : Options).validate = .ok () ∧ PropFlags.none.any = false ∧
      source ⟨"svg", [⟨"width", "8"⟩], [], none⟩ ⟨"Icon", .typed, .none⟩ =
        source ⟨"svg", [⟨"width", "8"⟩], [], none⟩ ⟨"Icon", .untyped, .none⟩ ∧
      ∃ rest : String,
        source ⟨"svg", [⟨"width", "8"⟩], [], none⟩ ⟨"Icon", .untyped, .all⟩ =
          "export function Icon(" ++ (PropSchema.ofFlags .all).pattern ++
            (") \x7b\n  return (\n" ++ rest) ∧
        source ⟨"svg", [⟨"width", "8"⟩], [], none⟩ ⟨"Icon", .typed, .all⟩ =
          (PropSchema.ofFlags .all).declaration "Icon" ++ "\n\n" ++
            ("export function Icon(" ++ (PropSchema.ofFlags .all).pattern ++ ": IconProps" ++
              (") \x7b\n  return (\n" ++ rest)) := by
  have hall : (⟨"Icon", .typed, .all⟩ : Options).validate = .ok () := by decide +kernel
  have hnone : (⟨"Icon", .typed, .none⟩ : Options).validate = .ok () := by decide +kernel
  obtain ⟨rest, huntyped, htyped, -⟩ :=
    (source_typed_untyped ⟨"svg", [⟨"width", "8"⟩], [], none⟩ hall).2 rfl
  exact ⟨hall, rfl, hnone, rfl, (source_typed_untyped _ hnone).1 rfl, rest, huntyped, htyped⟩

end Component

end Pictogram
