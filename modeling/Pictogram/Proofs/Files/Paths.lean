import Pictogram.Files.Tree
import Pictogram.Proofs.Text.Splitting

/-!
The segments of paths that are put together. A path behind a directory adds its own segments to
those of the directory, and names without slashes are the segments of the path that joins them.
-/

namespace Pictogram

namespace Path

/-- Whether an entry of a directory can have a name. -/
structure IsName (name : String) : Prop where
  ne_empty : name ≠ ""
  ne_here : name ≠ "."
  ne_up : name ≠ ".."
  slash : '/' ∉ name.toList
  null : '\x00' ∉ name.toList
  size : name.utf8ByteSize ≤ FileTree.maxNameBytes

instance (name : String) : Decidable (IsName name) :=
  decidable_of_iff (name ≠ "" ∧ name ≠ "." ∧ name ≠ ".." ∧ '/' ∉ name.toList ∧
      '\x00' ∉ name.toList ∧ name.utf8ByteSize ≤ FileTree.maxNameBytes)
    ⟨fun ⟨hempty, hhere, hup, hslash, hnull, hsize⟩ => ⟨hempty, hhere, hup, hslash, hnull, hsize⟩,
      fun ⟨hempty, hhere, hup, hslash, hnull, hsize⟩ => ⟨hempty, hhere, hup, hslash, hnull, hsize⟩⟩

variable {directory path path' name : String} {names names' : List String}

theorem segments_slash (front back : String) :
    segments (front ++ "/" ++ back) = segments front ++ segments back := by
  have hchars : (front ++ "/" ++ back).toList = front.toList ++ '/' :: back.toList := by
    simp [String.toList_append]
  rw [segments, hchars, Text.splitWhere_append rfl, List.map_append]
  rfl

theorem segments_of_not_mem (h : '/' ∉ name.toList) : segments name = [name] := by
  rw [segments, Text.splitWhere_of_not_mem h, List.map_singleton, String.ofList_toList]

/-- Names without slashes are the segments of the path that joins them. -/
theorem segments_ofSegments (hne : names ≠ []) (h : ∀ name ∈ names, '/' ∉ name.toList) :
    segments (ofSegments names) = names := by
  induction names with
  | nil => exact absurd rfl hne
  | cons name names ih =>
    obtain ⟨hname, hnames⟩ := List.forall_mem_cons.1 h
    cases names with
    | nil => exact segments_of_not_mem hname
    | cons next names =>
      have hrest := ih (by simp) hnames
      rw [ofSegments] at hrest ⊢
      rw [String.intercalate_cons_cons, segments_slash, segments_of_not_mem hname, hrest]
      rfl

/-- Between a directory and what is behind it stands a slash, which may be the last character of the
directory's path. -/
theorem join_eq (directory : String) :
    ∃ slash, (slash = "" ∨ slash = "/") ∧ (directory ≠ "" → '/' ∈ (directory ++ slash).toList) ∧
      ∀ path, join directory path = directory ++ slash ++ path := by
  by_cases h : directory = "" ∨ directory.toList.getLast? = some '/'
  · refine ⟨"", .inl rfl, fun hne => ?_, fun path => ?_⟩
    · rw [String.append_empty]
      exact List.mem_of_getLast? (h.resolve_left hne)
    · rw [join, if_pos (by simpa using h), String.append_empty]
  · refine ⟨"/", .inr rfl, fun _ => by simp [String.toList_append], fun path => ?_⟩
    rw [join, if_neg (by simpa using h)]

theorem join_inj (h : join directory path = join directory path') : path = path' := by
  obtain ⟨slash, -, -, hjoin⟩ := join_eq directory
  rw [hjoin, hjoin] at h
  have hchars := congrArg String.toList h
  simp only [String.toList_append] at hchars
  exact String.toList_inj.1 (List.append_cancel_left hchars)

/-- The segments of a path behind a directory come after those of the directory, which may have an
empty one at its end. -/
theorem segments_join (directory path : String) :
    ∃ front, segments (join directory path) = front ++ segments path ∧
      (segments directory = front ∨ segments directory = front ++ [""]) := by
  by_cases hempty : directory = ""
  · subst hempty
    refine ⟨[], ?_, .inr rfl⟩
    rw [join, if_pos (by simp), String.empty_append]
    rfl
  · by_cases hslash : directory.toList.getLast? = some '/'
    · obtain ⟨cs, hcs⟩ := List.getLast?_eq_some_iff.1 hslash
      have hdirectory : directory = String.ofList cs ++ "/" ++ "" := by
        rw [← String.toList_inj, hcs]
        simp [String.toList_append]
      refine ⟨segments (.ofList cs), ?_, .inr ?_⟩
      · rw [join, if_pos (by simp [hslash]), hdirectory, String.append_empty, segments_slash]
      · rw [hdirectory, segments_slash]
        rfl
    · refine ⟨segments directory, ?_, .inl rfl⟩
      rw [join, if_neg (by simp [hempty, hslash]), segments_slash]

theorem isAbsolute_join (h : directory ≠ "") (path : String) :
    isAbsolute (join directory path) = isAbsolute directory := by
  obtain ⟨slash, -, -, hjoin⟩ := join_eq directory
  obtain ⟨c, cs, hcs⟩ := List.exists_cons_of_ne_nil (fun hnil => h (String.toList_eq_nil_iff.1 hnil))
  simp [isAbsolute, hjoin, String.toList_append, hcs]

end Path

end Pictogram
