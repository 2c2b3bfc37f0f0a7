import Pictogram.Proofs.Files.Following

/-!
Making files and directories. Whatever is made, the places that were there lead where they led, and
a place keeps what it had unless it is one that a text was written to; where nothing was, there may
be a directory now.
-/

namespace Pictogram.FileTree

open Pictogram.Path

/-- Whether a place has what it had, or a new directory where there was nothing. -/
def Kept (t t' : FileTree) (names : List String) : Prop :=
  t'.node? names = t.node? names ∨ (t.node? names = none ∧ t'.node? names = some .directory)

/-- Whether a tree has come from another one by writing to some places and making directories. -/
structure Changes (places : List (List String)) (t t' : FileTree) : Prop where
  grows : Grows t t'
  kept : ∀ names, names ∉ places → Kept t t' names

/-- Writes texts to files below a directory, one after the other. -/
def writeAll (t : FileTree) (directory : String) :
    List (String × String) → Except FileError FileTree
  | [] => .ok t
  | (name, text) :: files => do (← t.write (join directory name) text).writeAll directory files

variable {t t' t'' : FileTree} {directory path name text : String}
  {names other place : List String} {node : Node} {places places' : List (List String)}

section Putting

theorem node?_put (hne : names ≠ []) (t : FileTree) (node : Node) (other : List String) :
    (t.put names node).node? other = if other = names then some node else t.node? other := by
  by_cases hroot : other = []
  · rw [node?, node?, if_pos hroot, if_pos hroot, if_neg (hroot ▸ hne.symm)]
  · have hfilter : (t.entries.filter (·.1 ≠ names)).lookup other =
        if other = names then none else t.entries.lookup other := by
      induction t.entries with
      | nil => simp
      | cons entry entries ih =>
        obtain ⟨key, value⟩ := entry
        by_cases hkey : key = names
        · rw [List.filter_cons_of_neg (by simpa using hkey), ih]
          split
          · rfl
          next hother => rw [List.lookup_cons, beq_false_of_ne (hkey ▸ hother)]
        · rw [List.filter_cons_of_pos (by simpa using hkey), List.lookup_cons, List.lookup_cons, ih]
          by_cases hother : other = key
          · simp [hother, hkey]
          · rw [beq_false_of_ne hother]
    rw [node?, node?, if_neg hroot, if_neg hroot, put, List.lookup_append, hfilter]
    by_cases hother : other = names
    · simp [hother]
    · simp [hother, List.lookup_cons, beq_false_of_ne hother]

theorem Changes.refl (t : FileTree) : Changes [] t t :=
  ⟨.refl t, fun _ _ => .inl rfl⟩

/-- What is there and is kept is there afterwards. -/
theorem Kept.node?_eq_some (h : Kept t t' names) (hnode : t.node? names = some node) :
    t'.node? names = some node := by
  rcases h with hsame | ⟨hnone, -⟩
  · exact hsame.trans hnode
  · rw [hnode] at hnone
    cases hnone

theorem Kept.trans (h : Kept t t' names) (h' : Kept t' t'' names) : Kept t t'' names := by
  rcases h with hsame | ⟨hnone, hnew⟩
  · rwa [Kept, ← hsame]
  · exact .inr ⟨hnone, h'.node?_eq_some hnew⟩

theorem Changes.trans (h : Changes places t t') (h' : Changes places' t' t'') :
    Changes (places ++ places') t t'' := by
  refine ⟨h.grows.trans h'.grows, fun names hnames => ?_⟩
  rw [List.mem_append, not_or] at hnames
  exact (h.kept names hnames.1).trans (h'.kept names hnames.2)

/-- Putting a node where no directory is leads nowhere else. -/
theorem grows_put (hne : names ≠ []) (hfree : ¬ t.isDirectoryAt names) (node : Node) :
    Grows t (t.put names node) := by
  refine ⟨rfl, fun other hother => ?_, fun other hother => ?_⟩
  · rw [isDirectoryAt_iff, node?_put hne, if_neg]
    · exact isDirectoryAt_iff.1 hother
    · rintro rfl
      exact hfree hother
  · rw [node?_put hne]
    split
    · rfl
    · exact hother

theorem changes_put_file (hne : names ≠ []) (hfree : ¬ t.isDirectoryAt names)
    (content : ByteArray) : Changes [names] t (t.put names (.file content)) := by
  refine ⟨grows_put hne hfree _, fun other hother => .inl ?_⟩
  rw [node?_put hne, if_neg (by simpa using hother)]

theorem changes_put_directory (hne : names ≠ []) (hnone : t.node? names = none) :
    Changes [] t (t.put names .directory) := by
  have hfree : ¬ t.isDirectoryAt names := by simp [isDirectoryAt_iff, hnone]
  refine ⟨grows_put hne hfree _, fun other _ => ?_⟩
  rw [Kept, node?_put hne]
  by_cases hother : other = names
  · rw [if_pos hother, hother]
    exact .inr ⟨hnone, rfl⟩
  · rw [if_neg hother]
    exact .inl rfl

end Putting

section Making

/-- A new entry gets the last name of its path, in the directory that the segments before lead to. -/
theorem newEntry_eq_ok {whenNoName : FileError} {nameMustEnd : Bool}
    (h : t.newEntry path whenNoName nameMustEnd = .ok names) :
    ∃ target place, target? path = some target ∧
      t.follow (t.start path) target.before = .ok place ∧ t.isDirectoryAt place ∧
      names = place ++ [target.last] := by
  obtain ⟨-, -, h⟩ := bind_eq_ok_iff.1 h
  cases htarget : target? path with
  | none => simp [htarget] at h
  | some target =>
    simp only [htarget] at h
    obtain ⟨place, hplace, h⟩ := bind_eq_ok_iff.1 h
    by_cases hdirectory : t.isDirectoryAt place
    · simp only [hdirectory, Bool.not_true, Bool.false_eq_true, if_false] at h
      split_ifs at h
      exact ⟨target, place, rfl, hplace, hdirectory, (Except.ok.inj h).symm⟩
    · simp [hdirectory] at h

theorem changes_makeDirectory (h : t.makeDirectory path = .ok t') : Changes [] t t' := by
  obtain ⟨names, hnames, h⟩ := bind_eq_ok_iff.1 h
  obtain ⟨target, place, -, -, -, rfl⟩ := newEntry_eq_ok hnames
  split_ifs at h with hsome
  obtain rfl := Except.ok.inj h
  exact changes_put_directory (by simp) (by simpa using hsome)

theorem changes_unlessDirectory {e : FileError} (h : t.unlessDirectory path e = .ok t') :
    Changes [] t t' := by
  rw [unlessDirectory] at h
  split_ifs at h
  obtain rfl := Except.ok.inj h
  exact .refl t

/-- Directories are made from the outermost inwards, each with those above it already there. -/
theorem changes_makeInnermost {paths : List String} (h : t.makeInnermost paths = .ok t') :
    Changes [] t t' := by
  induction paths generalizing t t' with
  | nil => cases h
  | cons path above ih =>
    rw [makeInnermost] at h
    split_ifs at h with hempty
    · obtain rfl := Except.ok.inj h
      exact .refl t
    · split at h
      next made hmade =>
        obtain rfl := Except.ok.inj h
        exact changes_makeDirectory hmade
      next =>
        split at h
        next => cases h
        next outer houter =>
          split at h
          next made hmade =>
            obtain rfl := Except.ok.inj h
            exact (ih houter).trans (changes_makeDirectory hmade)
          next => exact (ih houter).trans (changes_unlessDirectory h)
      next => exact changes_unlessDirectory h

theorem changes_makeDirectories (h : t.makeDirectories path = .ok t') : Changes [] t t' :=
  changes_makeInnermost h

end Making

section Writing

theorem target?_join (hslash : '/' ∉ name.toList) (hne : name ≠ "") (directory : String) :
    ∃ front, target? (join directory name) = some ⟨front, name, false⟩ ∧
      (segments directory = front ∨ segments directory = front ++ [""]) := by
  obtain ⟨front, hsegments, hfront⟩ := segments_join directory name
  refine ⟨front, ?_, hfront⟩
  rw [target?, hsegments, segments_of_not_mem hslash]
  simp [hne]

/-- A text that is written below a directory goes to the place of its name in that directory. -/
theorem write_join_eq_ok (hslash : '/' ∉ name.toList) (hne : name ≠ "")
    (h : t.write (join directory name) text = .ok t') :
    ∃ place, t.LeadsTo directory place ∧ ¬ t.isDirectoryAt (place ++ [name]) ∧
      t' = t.put (place ++ [name]) (.file text.toUTF8) := by
  obtain ⟨names, hnames, h⟩ := bind_eq_ok_iff.1 h
  obtain ⟨target, place, htarget, hplace, hdirectory, rfl⟩ := newEntry_eq_ok hnames
  obtain ⟨front, hjoin, hfront⟩ := target?_join hslash hne directory
  obtain rfl := Option.some.inj (htarget.symm.trans hjoin)
  split_ifs at h with hfree
  refine ⟨place, (leadsTo_iff_of_front hdirectory hfront).2 ?_, hfree, (Except.ok.inj h).symm⟩
  have hstart : isAbsolute (join directory name) = isAbsolute directory := by
    by_cases hempty : directory = ""
    · have hname : name.toList.head? ≠ some '/' := fun hhead =>
        hslash (List.mem_of_mem_head? hhead)
      rw [hempty, join, if_pos (by simp), String.empty_append]
      simpa [isAbsolute] using hname
    · exact isAbsolute_join hempty name
  rwa [start, hstart] at hplace

theorem LeadsTo.unique (h : t.LeadsTo path place) (h' : t.LeadsTo path other) : place = other :=
  Except.ok.inj (h.symm.trans h')

theorem writeAll_append_eq_ok_iff {files files' : List (String × String)} :
    t.writeAll directory (files ++ files') = .ok t'' ↔
      ∃ t', t.writeAll directory files = .ok t' ∧ t'.writeAll directory files' = .ok t'' := by
  induction files generalizing t with
  | nil => simp [writeAll]
  | cons file files ih =>
    rw [List.cons_append, writeAll, writeAll, bind_eq_ok_iff]
    simp only [bind_eq_ok_iff, ih]
    constructor
    · rintro ⟨first, hfirst, between, hfiles, hlast⟩
      exact ⟨between, ⟨first, hfirst, hfiles⟩, hlast⟩
    · rintro ⟨between, ⟨first, hfirst, hfiles⟩, hlast⟩
      exact ⟨first, hfirst, between, hfiles, hlast⟩

theorem exists_leadsTo_of_writeAll {files : List (String × String)} (hsome : files ≠ [])
    (hnames : ∀ file ∈ files, '/' ∉ file.1.toList ∧ file.1 ≠ "")
    (h : t.writeAll directory files = .ok t') : ∃ place, t.LeadsTo directory place := by
  obtain ⟨⟨name, text⟩, files, rfl⟩ := List.exists_cons_of_ne_nil hsome
  obtain ⟨hslash, hne⟩ := hnames _ (.head _)
  obtain ⟨between, hwrite, -⟩ := bind_eq_ok_iff.1 h
  obtain ⟨place, hplace, -⟩ := write_join_eq_ok hslash hne hwrite
  exact ⟨place, hplace⟩

/-- Texts that are written under different names below a directory all stand there. -/
theorem writeAll_eq_ok {files : List (String × String)}
    (hnames : ∀ file ∈ files, '/' ∉ file.1.toList ∧ file.1 ≠ "")
    (hnodup : (files.map (·.1)).Nodup) (hplace : t.LeadsTo directory place)
    (h : t.writeAll directory files = .ok t') :
    Changes (files.map (place ++ [·.1])) t t' ∧
      ∀ file ∈ files, t'.node? (place ++ [file.1]) = some (.file file.2.toUTF8) := by
  induction files generalizing t with
  | nil =>
    obtain rfl := Except.ok.inj h
    exact ⟨.refl t, by simp⟩
  | cons file files ih =>
    obtain ⟨name, text⟩ := file
    obtain ⟨⟨hslash, hne⟩, hnames⟩ := List.forall_mem_cons.1 hnames
    obtain ⟨hnew, hnodup⟩ := List.nodup_cons.1 hnodup
    obtain ⟨between, hwrite, h⟩ := bind_eq_ok_iff.1 h
    obtain ⟨place', hplace', hfree, rfl⟩ := write_join_eq_ok hslash hne hwrite
    obtain rfl := hplace.unique hplace'
    have hfirst := changes_put_file (by simp) hfree text.toUTF8
    obtain ⟨hchanges, hstand⟩ := ih hnames hnodup (hfirst.grows.leadsTo hplace) h
    refine ⟨hfirst.trans hchanges, List.forall_mem_cons.2 ⟨?_, hstand⟩⟩
    -- No later text goes to the place of the first one.
    have hother : place ++ [name] ∉ files.map (place ++ [·.1]) := by
      intro hmem
      obtain ⟨file, hfile, hsame⟩ := List.mem_map.1 hmem
      rw [List.append_cancel_left_eq, List.singleton_inj] at hsame
      exact hnew (List.mem_map.2 ⟨file, hfile, hsame⟩)
    have hput : (t.put (place ++ [name]) (.file text.toUTF8)).node? (place ++ [name]) =
        some (.file text.toUTF8) := by
      rw [node?_put (by simp), if_pos rfl]
    exact (hchanges.kept _ hother).node?_eq_some hput

end Writing

end Pictogram.FileTree
