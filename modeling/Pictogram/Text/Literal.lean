/-!
Finding fixed pieces in a text: a piece at its beginning, the first place where a piece occurs, and
a piece that is the whole text but for the case of letters.
-/

namespace Pictogram.Text

/-- The rest of a text after a literal beginning, if it has that beginning. -/
def dropLiteral? : List Char → List Char → Option (List Char)
  | [], cs => some cs
  | _ :: _, [] => none
  | l :: literal, c :: cs => if l = c then dropLiteral? literal cs else none

theorem dropLiteral?_eq_some_iff {literal cs rest : List Char} :
    dropLiteral? literal cs = some rest ↔ cs = literal ++ rest := by
  fun_induction dropLiteral? literal cs with
  | case1 cs => simp
  | case2 => simp
  | case3 literal c cs ih => simpa using ih
  | case4 l literal c cs h => simp; intro h'; exact absurd h'.symm h

/-- The texts before and after the first occurrence of a literal. -/
def splitAround? (literal : List Char) : List Char → Option (List Char × List Char)
  | [] => (dropLiteral? literal []).map ([], ·)
  | c :: cs =>
    match dropLiteral? literal (c :: cs) with
    | some rest => some ([], rest)
    | none => (splitAround? literal cs).map fun (before, rest) => (c :: before, rest)

theorem eq_append_of_splitAround? {literal cs before rest : List Char}
    (h : splitAround? literal cs = some (before, rest)) : cs = before ++ literal ++ rest := by
  induction cs generalizing before with
  | nil =>
    obtain ⟨r, hr, he⟩ := Option.map_eq_some_iff.1 h
    have := dropLiteral?_eq_some_iff.1 hr
    simp_all
  | cons c cs ih =>
    rw [splitAround?] at h
    split at h
    next r hr => simp_all [dropLiteral?_eq_some_iff]
    next =>
      obtain ⟨⟨b, r⟩, hr, he⟩ := Option.map_eq_some_iff.1 h
      obtain ⟨rfl, rfl⟩ := Prod.mk.inj he
      simp [ih hr]

/-- Whether a text equals another but for the case of ASCII letters. -/
def equalsIgnoringCase (a b : String) : Bool :=
  a.toList.map Char.toLower == b.toList.map Char.toLower

end Pictogram.Text
