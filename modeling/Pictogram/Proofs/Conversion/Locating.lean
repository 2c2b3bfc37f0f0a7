import Pictogram.Command.Batch
import Pictogram.Proofs.Files.Following

/-!
Reading the files that a batch finds. The path of a file is taken for a URI if it looks like one,
and it looks like one exactly if the path of the directory does: such a file is not read, or another
one in its place.
-/

namespace Pictogram

open FileTree

namespace MarkupSource

variable {uri directory : String}

/-- What stands before the colon of a scheme holds no slash. -/
theorem slash_not_mem_of_hasScheme (h : hasScheme uri) :
    '/' ∉ uri.toList.takeWhile (· != ':') := by
  rw [hasScheme] at h
  split at h
  next c d cs _ htake _ =>
    rw [htake]
    intro hmem
    rw [Bool.and_eq_true, List.all_eq_true] at h
    rcases List.mem_cons.1 hmem with rfl | hmem
    · cases h.1
    · cases h.2 _ hmem
  next => cases h

theorem colon_mem_of_hasScheme (h : hasScheme uri) : ':' ∈ uri.toList := by
  rw [hasScheme] at h
  split at h
  next hdrop =>
    exact (List.dropWhile_suffix _).subset (by rw [hdrop]; simp)
  next => cases h

/-- Only the path of the directory tells if the path of a file in it looks like a URI. -/
theorem hasScheme_join (hne : directory ≠ "") (path : String) :
    hasScheme (Path.join directory path) = hasScheme directory := by
  obtain ⟨slash, hempty, hslash, hjoin⟩ := Path.join_eq directory
  have hchars : (Path.join directory path).toList = (directory ++ slash).toList ++ path.toList := by
    rw [hjoin, String.toList_append]
  rcases Text.run_or_stop (· != ':') directory.toList with
    hnone | ⟨before, stop, rest, hdirectory, hbefore, hstop⟩
  · -- Without a colon in the directory's path, a slash stands before the first colon.
    have hcolon : ¬ hasScheme directory := fun h => by
      simpa using hnone ':' (colon_mem_of_hasScheme h)
    have hrun : ∀ c ∈ (directory ++ slash).toList, (c != ':') = true := by
      rw [String.toList_append]
      refine List.forall_mem_append.2 ⟨hnone, ?_⟩
      rcases hempty with rfl | rfl <;> decide
    have hjoined : ¬ hasScheme (Path.join directory path) := fun h => by
      apply slash_not_mem_of_hasScheme h
      rw [hchars, List.takeWhile_append_of_pos hrun]
      exact List.mem_append_left _ (hslash hne)
    rw [Bool.eq_false_iff.2 hcolon, Bool.eq_false_iff.2 hjoined]
  · obtain rfl : stop = ':' := by simpa using hstop
    have hdirectory' : (Path.join directory path).toList =
        before ++ ':' :: (rest ++ slash.toList ++ path.toList) := by
      rw [hchars, String.toList_append, hdirectory]
      simp
    rw [hasScheme, hasScheme, hdirectory, hdirectory', Text.takeWhile_run hbefore hstop,
      Text.takeWhile_run hbefore hstop, Text.dropWhile_run hbefore hstop,
      Text.dropWhile_run hbefore hstop]
    rcases before with _ | ⟨c, _ | ⟨d, cs⟩⟩ <;> rfl

theorem localPath?_of_fileScheme (path : String) :
    localPath? (fileScheme ++ path) = some path := by
  have hdrop : Text.dropLiteral? fileScheme.toList (fileScheme ++ path).toList =
      some path.toList :=
    Text.dropLiteral?_eq_some_iff.2 String.toList_append
  rw [localPath?, hdrop]
  simp only [String.ofList_toList]

theorem localPath?_of_other (h : ∀ path, uri ≠ fileScheme ++ path) :
    localPath? uri = if hasScheme uri then none else some uri := by
  rw [localPath?]
  cases hdrop : Text.dropLiteral? fileScheme.toList uri.toList with
  | none => rfl
  | some rest =>
    refine absurd ?_ (h (.ofList rest))
    rw [← String.toList_inj, String.toList_append, String.toList_ofList]
    exact Text.dropLiteral?_eq_some_iff.1 hdrop

theorem hasScheme_fileScheme (path : String) : hasScheme (fileScheme ++ path) := by
  have hchars : (fileScheme ++ path).toList = "file".toList ++ ':' :: ("//".toList ++ path.toList) := by
    simp [fileScheme, String.toList_append]
  rw [hasScheme, hchars, Text.takeWhile_run (by decide) (by decide),
    Text.dropWhile_run (by decide) (by decide)]
  rfl

end MarkupSource

open MarkupSource

theorem mapError_eq_ok_iff {ε ε' α : Type} {x : Except ε α} {f : ε → ε'} {a : α} :
    x.mapError f = .ok a ↔ x = .ok a := by
  cases x <;> simp [Except.mapError]

/-- What the markup of a path or a URI is in a workspace in memory. -/
theorem Command.markup_external (uri : String) (w : Memory) :
    (markup (.external uri) : StateM Memory (Except SourceError String)) w =
      (match localPath? uri with
        | none => .error .unsupportedScheme
        | some path => (w.tree.read path).mapError .unreadable, w) := by
  rw [markup]
  cases localPath? uri <;> rfl

theorem mem_drawings_iff {paths : List String} {path : String} :
    path ∈ Path.drawings paths ↔ path ∈ paths ∧ Path.isDrawing path := by
  rw [Path.drawings, (List.mergeSort_perm _ _).mem_iff, List.mem_filter]

/-- A file that a batch finds is read for its job exactly if the path of the directory does not look
like a URI and the path of the file is not too long. Otherwise no scheme but that of files is known,
and with it the rest of the path is read, where the same text may stand by chance. -/
theorem markup_of_drawing_iff {w : Memory} {directory path : String} (hw : w.tree.WellFormed)
    (hpath : path ∈ Path.drawings (w.tree.filesBelow directory)) :
    ∃ place content, w.tree.Finds directory path place content ∧
      (∀ text, textOfBytes content = .ok text →
        ((Command.markup (.external path) : StateM Memory _) w = (.ok text, w) ↔
          (hasScheme directory = false ∧ path.utf8ByteSize < pathBytesLimit) ∨
            ∃ other, path = fileScheme ++ other ∧ w.tree.read other = .ok text)) ∧
      (hasScheme directory → (∀ other, path ≠ fileScheme ++ other) →
        (Command.markup (.external path) : StateM Memory _) w = (.error .unsupportedScheme, w)) ∧
      ∀ other, path = fileScheme ++ other →
        (Command.markup (.external path) : StateM Memory _) w =
          ((w.tree.read other).mapError .unreadable, w) := by
  obtain ⟨place, content, hfinds⟩ := mem_filesBelow_iff.1 (mem_drawings_iff.1 hpath).1
  have hscheme : hasScheme path = hasScheme directory := by
    obtain ⟨names, more, hnames, -, -, -, rfl⟩ := hfinds.path
    exact hasScheme_join (checkPath_eq_ok_iff.1 (locate_eq_ok_iff.1 hnames).1).2.1 _
  refine ⟨place, content, hfinds, fun text htext => ?_, fun hyes hother => ?_, ?_⟩
  · rw [Command.markup_external, Prod.mk.injEq, and_iff_left rfl]
    by_cases hother : ∃ other, path = fileScheme ++ other
    · obtain ⟨other, rfl⟩ := hother
      rw [hasScheme_fileScheme] at hscheme
      rw [localPath?_of_fileScheme, ← hscheme]
      simp [mapError_eq_ok_iff, String.append_right_inj]
    · rw [not_exists] at hother
      rw [localPath?_of_other hother, hscheme]
      have hnone : ¬ ∃ other, path = fileScheme ++ other ∧ w.tree.read other = .ok text :=
        fun ⟨other, hsame, _⟩ => hother other hsame
      by_cases hyes : hasScheme directory
      · simp [hyes, hnone]
      · simp [hyes, hnone, mapError_eq_ok_iff, hfinds.read_eq_ok_iff hw htext]
  · rw [Command.markup_external, localPath?_of_other hother, hscheme, hyes]
    rfl
  · rintro other rfl
    rw [Command.markup_external, localPath?_of_fileScheme]

/-- A workspace with a drawing in a directory of the given name. -/
def shelf (directory : String) : Memory where
  tree.entries := [([directory], .directory), ([directory, "home.svg"], .file "<svg/>".toUTF8)]

theorem markup_of_drawing_iff_plain :
    (shelf "icons").tree.WellFormed ∧
      "icons/home.svg" ∈ Path.drawings ((shelf "icons").tree.filesBelow "icons") ∧
      (Command.markup (.external "icons/home.svg") : StateM Memory _) (shelf "icons") =
        (.ok "<svg/>", shelf "icons") := by
  have hw : (shelf "icons").tree.WellFormed := by decide +kernel
  have hpath : "icons/home.svg" ∈ Path.drawings ((shelf "icons").tree.filesBelow "icons") :=
    mem_drawings_iff.2 ⟨by decide +kernel, by decide +kernel⟩
  obtain ⟨place, content, hfinds, hread, -, -⟩ := markup_of_drawing_iff hw hpath
  have hcontent : content = "<svg/>".toUTF8 := by
    have hmem := hfinds.mem
    simp only [shelf, List.mem_cons, List.not_mem_nil, or_false, Prod.mk.injEq, reduceCtorEq,
      and_false, false_or, Node.file.injEq] at hmem
    exact hmem.2
  subst hcontent
  exact ⟨hw, hpath, (hread _ (textOfBytes_toUTF8 _)).2 (.inl ⟨by decide +kernel, by decide +kernel⟩)⟩

/-- In a directory whose name begins like a URI, a drawing is found that its path leads to and that
is not read for its job. -/
theorem markup_of_drawing_unsupported :
    (shelf "icons:v2").tree.WellFormed ∧
      "icons:v2/home.svg" ∈ Path.drawings ((shelf "icons:v2").tree.filesBelow "icons:v2") ∧
      (shelf "icons:v2").tree.read "icons:v2/home.svg" = .ok "<svg/>" ∧
      (Command.markup (.external "icons:v2/home.svg") : StateM Memory _) (shelf "icons:v2") =
        (.error .unsupportedScheme, shelf "icons:v2") :=
  ⟨by decide +kernel, mem_drawings_iff.2 ⟨by decide +kernel, by decide +kernel⟩, by decide +kernel,
    rfl⟩

end Pictogram
