import Mathlib.Data.List.Induction
import Mathlib.Data.List.Nodup
import Pictogram.Proofs.Files.Paths
import Pictogram.Proofs.Text.Span

/-!
Following paths through file trees. What a path leads to stays there in every tree that has grown
out of the first, and the path that a file is found by leads to that file.
-/

namespace Pictogram.FileTree

open Pictogram.Path

/-- Whether a tree is one that files and directories can form: an entry has one node, its names are
names, and it stands in a directory. -/
structure WellFormed (t : FileTree) : Prop where
  nodup : (t.entries.map (·.1)).Nodup
  named : ∀ entry ∈ t.entries, ∀ name ∈ entry.1, IsName name
  nested : ∀ entry ∈ t.entries, entry.1 ≠ [] ∧ t.isDirectoryAt entry.1.dropLast
  here : t.isDirectoryAt t.here

instance (t : FileTree) : Decidable t.WellFormed :=
  decidable_of_iff ((t.entries.map (·.1)).Nodup ∧
      (∀ entry ∈ t.entries, ∀ name ∈ entry.1, IsName name) ∧
      (∀ entry ∈ t.entries, entry.1 ≠ [] ∧ t.isDirectoryAt entry.1.dropLast) ∧
      t.isDirectoryAt t.here)
    ⟨fun ⟨hnodup, hnamed, hnested, hhere⟩ => ⟨hnodup, hnamed, hnested, hhere⟩,
      fun ⟨hnodup, hnamed, hnested, hhere⟩ => ⟨hnodup, hnamed, hnested, hhere⟩⟩

/-- Whether a path leads to a place. The empty path leads to where paths start. -/
def LeadsTo (t : FileTree) (path : String) (place : List String) : Prop :=
  t.follow (t.start path) (segments path) = .ok place

/-- Whether everything in a tree is in another one too, and every directory a directory. -/
structure Grows (t t' : FileTree) : Prop where
  here : t'.here = t.here
  directory : ∀ names, t.isDirectoryAt names → t'.isDirectoryAt names
  isSome : ∀ names, (t.node? names).isSome → (t'.node? names).isSome

/-- Whether two trees differ in nothing but the contents of files. -/
structure SameShape (t t' : FileTree) : Prop where
  here : t'.here = t.here
  node : ∀ names, (t'.node? names).map Node.isDirectory = (t.node? names).map Node.isDirectory

/-- Whether a file is found by a path below a directory. -/
structure Finds (t : FileTree) (directory path : String) (place : List String)
    (content : ByteArray) : Prop where
  mem : (place, .file content) ∈ t.entries
  path : ∃ names more, t.locate directory = .ok names ∧ place = names ++ more ∧ more ≠ [] ∧
    isListed directory more.dropLast ∧ path = join directory (ofSegments more)

variable {t t' : FileTree} {directory path segment name : String} {text : String}
  {names place more front back : List String} {node : Node} {content : ByteArray}

section Nodes

theorem isSome_of_isDirectoryAt (h : t.isDirectoryAt names) : (t.node? names).isSome := by
  rw [isDirectoryAt] at h
  split at h
  next node hnode => rw [hnode, Option.isSome_some]
  next => cases h

theorem isDirectoryAt_iff : t.isDirectoryAt names ↔ t.node? names = some .directory := by
  rw [isDirectoryAt]
  cases t.node? names with
  | none => simp
  | some node => cases node <;> simp [Node.isDirectory]

theorem mem_of_node? (hne : names ≠ []) (h : t.node? names = some node) :
    (names, node) ∈ t.entries := by
  rw [node?, if_neg hne, List.lookup_eq_some_iff] at h
  obtain ⟨before, after, hentries, -⟩ := h
  simp [hentries]

theorem WellFormed.node?_of_mem (hw : t.WellFormed) (h : (names, node) ∈ t.entries) :
    t.node? names = some node := by
  obtain ⟨before, after, hentries⟩ := List.append_of_mem h
  have hnodup := hw.nodup
  rw [hentries, List.map_append, List.map_cons, List.nodup_middle, List.nodup_cons,
    ← List.map_append] at hnodup
  rw [node?, if_neg (hw.nested _ h).1, List.lookup_eq_some_iff]
  refine ⟨before, after, hentries, fun entry hentry => ?_⟩
  have hother : entry.1 ≠ names := by
    intro hsame
    have hmem : entry.1 ∈ (before ++ after).map (·.1) :=
      List.mem_map_of_mem (List.mem_append_left after hentry)
    rw [hsame] at hmem
    exact hnodup.1 hmem
  simpa using hother.symm

/-- What stands above an entry is a directory. -/
theorem WellFormed.isDirectoryAt_of_mem (hw : t.WellFormed)
    (h : (names ++ more, node) ∈ t.entries) (hne : more ≠ []) : t.isDirectoryAt names := by
  induction more using List.reverseRecOn generalizing node with
  | nil => exact absurd rfl hne
  | append_singleton more last ih =>
    have habove := (hw.nested _ h).2
    change t.isDirectoryAt (names ++ (more ++ [last])).dropLast = true at habove
    rw [← List.append_assoc, List.dropLast_concat] at habove
    by_cases hmore : more = []
    · rwa [hmore, List.append_nil] at habove
    · exact ih (mem_of_node? (by simp [hmore]) (isDirectoryAt_iff.1 habove)) hmore

end Nodes

section Following

theorem follow_append_eq_ok_iff :
    t.follow names (front ++ back) = .ok place ↔
      ∃ between, t.follow names front = .ok between ∧ t.follow between back = .ok place := by
  induction front generalizing names with
  | nil => simp [follow]
  | cons segment front ih =>
    rw [List.cons_append, follow, follow]
    cases t.enter names segment with
    | error e => simp
    | ok next => exact ih

theorem bind_eq_ok_iff {ε α β : Type} {x : Except ε α} {f : α → Except ε β} {b : β} :
    (x >>= f) = .ok b ↔ ∃ a, x = .ok a ∧ f a = .ok b := by
  cases x <;> simp [bind, Except.bind]

theorem locate_eq_ok_iff :
    t.locate path = .ok place ↔ checkPath path = .ok () ∧ t.LeadsTo path place := by
  rw [locate, bind_eq_ok_iff]
  exact ⟨fun ⟨_, hcheck, hleads⟩ => ⟨hcheck, hleads⟩, fun ⟨hcheck, hleads⟩ => ⟨(), hcheck, hleads⟩⟩

theorem checkPath_eq_ok_iff :
    checkPath path = .ok () ↔
      '\x00' ∉ path.toList ∧ path ≠ "" ∧ path.utf8ByteSize < pathBytesLimit := by
  rw [checkPath]
  split_ifs with hnull hempty hlong
  · simpa using fun h => absurd (by simpa using hnull) h
  · simp [hempty]
  · simpa using fun _ _ => hlong
  · simpa using ⟨by simpa using hnull, hempty, Nat.not_le.1 hlong⟩

theorem enter_idle_eq_ok_iff (hidle : isIdle segment) :
    t.enter names segment = .ok place ↔ t.isDirectoryAt names ∧ names = place := by
  rw [enter]
  by_cases hdirectory : t.isDirectoryAt names <;> simp [hdirectory, hidle]

/-- An empty segment at the end of a directory's path leads nowhere else. -/
theorem leadsTo_iff_of_front (h : t.isDirectoryAt place)
    (hfront : segments path = front ∨ segments path = front ++ [""]) :
    t.LeadsTo path place ↔ t.follow (t.start path) front = .ok place := by
  rcases hfront with rfl | hfront
  · rfl
  · rw [LeadsTo, hfront, follow_append_eq_ok_iff]
    have hlast : ∀ between, t.follow between [""] = .ok place ↔
        t.isDirectoryAt between ∧ between = place := by
      intro between
      rw [follow, ← enter_idle_eq_ok_iff (show isIdle "" from rfl)]
      cases t.enter between "" <;> simp [follow]
    simp only [hlast]
    exact ⟨fun ⟨_, hfollow, _, hsame⟩ => hsame ▸ hfollow, fun hfollow => ⟨place, hfollow, h, rfl⟩⟩

theorem enter_name (h : t.isDirectoryAt names) (hname : IsName name)
    (hsome : (t.node? (names ++ [name])).isSome) :
    t.enter names name = .ok (names ++ [name]) := by
  have hidle : ¬ isIdle name := by simp [isIdle, hname.ne_empty, hname.ne_here]
  rw [enter, if_neg (by simp [h]), if_neg hidle, if_neg hname.ne_up,
    if_neg (Nat.not_lt.2 hname.size), if_pos hsome]

/-- A segment that can be followed is still followed to the same place when the tree has grown. -/
theorem Grows.enter (h : Grows t t') (henter : t.enter names segment = .ok place) :
    t'.enter names segment = .ok place := by
  rw [FileTree.enter] at henter ⊢
  by_cases hdirectory : t.isDirectoryAt names
  · rw [if_neg (by simp [hdirectory])] at henter
    rw [if_neg (by simp [h.directory _ hdirectory])]
    by_cases hsome : (t.node? (names ++ [segment])).isSome
    · rw [if_pos hsome] at henter
      rwa [if_pos (h.isSome _ hsome)]
    · rw [if_neg hsome] at henter
      split_ifs at henter ⊢
      all_goals exact henter
  · rw [if_pos (by simp [hdirectory])] at henter
    cases henter

theorem Grows.follow {segments : List String} (h : Grows t t')
    (hfollow : t.follow names segments = .ok place) : t'.follow names segments = .ok place := by
  induction segments generalizing names with
  | nil => exact hfollow
  | cons segment segments ih =>
    rw [FileTree.follow] at hfollow ⊢
    cases henter : t.enter names segment with
    | error e =>
      rw [henter] at hfollow
      cases hfollow
    | ok next =>
      rw [henter] at hfollow
      rw [h.enter henter]
      exact ih hfollow

theorem Grows.leadsTo (h : Grows t t') (hleads : t.LeadsTo path place) : t'.LeadsTo path place := by
  rw [LeadsTo, start, h.here]
  exact h.follow hleads

theorem Grows.refl (t : FileTree) : Grows t t :=
  ⟨rfl, fun _ h => h, fun _ h => h⟩

theorem Grows.trans {t'' : FileTree} (h : Grows t t') (h' : Grows t' t'') : Grows t t'' :=
  ⟨h'.here.trans h.here, fun _ hdirectory => h'.directory _ (h.directory _ hdirectory),
    fun _ hsome => h'.isSome _ (h.isSome _ hsome)⟩

/-- The names below a place that lead to an entry are followed to it. -/
theorem WellFormed.follow_names (hw : t.WellFormed) (h : (names ++ more, node) ∈ t.entries) :
    t.follow names more = .ok (names ++ more) := by
  induction more generalizing names with
  | nil => rw [follow, List.append_nil]
  | cons name more ih =>
    have hname : IsName name := hw.named _ h name (by simp)
    have hentry : (names ++ [name] ++ more, node) ∈ t.entries := by simpa using h
    have hsome : (t.node? (names ++ [name])).isSome := by
      by_cases hmore : more = []
      · rw [hmore, List.append_nil] at hentry
        rw [hw.node?_of_mem hentry, Option.isSome_some]
      · exact isSome_of_isDirectoryAt (hw.isDirectoryAt_of_mem hentry hmore)
    rw [follow, enter_name (hw.isDirectoryAt_of_mem h (by simp)) hname hsome]
    simpa using ih hentry

end Following

section Shape

theorem SameShape.isSome (h : SameShape t t') (names : List String) :
    (t'.node? names).isSome = (t.node? names).isSome := by
  have hnode := congrArg Option.isSome (h.node names)
  rwa [Option.isSome_map, Option.isSome_map] at hnode

theorem SameShape.isDirectoryAt (h : SameShape t t') (names : List String) :
    t'.isDirectoryAt names = t.isDirectoryAt names := by
  have hshape : ∀ t : FileTree, t.isDirectoryAt names =
      ((t.node? names).map Node.isDirectory).getD false := by
    intro t
    rw [FileTree.isDirectoryAt]
    cases t.node? names <;> rfl
  rw [hshape, hshape, h.node]

/-- Paths lead to the same places, or fail in the same way, whatever the files contain. -/
theorem SameShape.follow (h : SameShape t t') (names segments : List String) :
    t'.follow names segments = t.follow names segments := by
  induction segments generalizing names with
  | nil => rfl
  | cons segment segments ih =>
    have henter : t'.enter names segment = t.enter names segment := by
      rw [enter, enter, h.isDirectoryAt, h.isSome]
    rw [FileTree.follow, FileTree.follow, henter]
    cases t.enter names segment with
    | error e => rfl
    | ok next => exact ih next

theorem SameShape.locate (h : SameShape t t') (path : String) : t'.locate path = t.locate path := by
  rw [FileTree.locate, FileTree.locate, start, start, h.here, h.follow]

/-- What is read depends on the file alone that the path leads to. -/
theorem SameShape.read (h : SameShape t t') (path : String)
    (hnode : ∀ place, t.locate path = .ok place → t'.node? place = t.node? place) :
    t'.read path = t.read path := by
  rw [FileTree.read, FileTree.read, h.locate]
  cases hlocate : t.locate path with
  | error e => rfl
  | ok place =>
    change t'.textAt place = t.textAt place
    rw [textAt, textAt, hnode place hlocate]

end Shape

section Finding

theorem foundPath?_eq_some_iff {entry : List String} :
    foundPath? directory names (entry, node) = some path ↔
      ∃ content more, node = .file content ∧ entry = names ++ more ∧ more ≠ [] ∧
        isListed directory more.dropLast ∧ path = join directory (ofSegments more) := by
  cases node with
  | directory => simp [foundPath?]
  | file content =>
    rw [foundPath?]
    constructor
    · intro h
      split at h
      next name more hmore =>
        simp only [Option.ite_none_right_eq_some, Option.some.injEq] at h
        obtain ⟨hlisted, rfl⟩ := h
        have happend := List.isPrefixOf?_eq_some_iff_append_eq.1 hmore
        exact ⟨content, _, rfl, happend.symm, by simp, hlisted, rfl⟩
      next => cases h
    · rintro ⟨_, more, -, rfl, hne, hlisted, rfl⟩
      obtain ⟨name, more, rfl⟩ := List.exists_cons_of_ne_nil hne
      have hmore : names.isPrefixOf? (names ++ name :: more) = some (name :: more) :=
        List.isPrefixOf?_eq_some_iff_append_eq.2 rfl
      simp only [hmore, hlisted, if_true]

theorem mem_filesBelow_iff :
    path ∈ t.filesBelow directory ↔ ∃ place content, t.Finds directory path place content := by
  rw [filesBelow]
  cases hlocate : t.locate directory with
  | error e =>
    constructor
    · intro h
      cases h
    · rintro ⟨place, content, -, names, more, hnames, -⟩
      rw [hlocate] at hnames
      cases hnames
  | ok names =>
    rw [List.mem_filterMap]
    constructor
    · rintro ⟨⟨place, node⟩, hmem, hpath⟩
      obtain ⟨content, more, rfl, hplace, hmore⟩ := foundPath?_eq_some_iff.1 hpath
      exact ⟨place, content, hmem, names, more, hlocate, hplace, hmore⟩
    · rintro ⟨place, content, hmem, names', more, hnames, hplace, hmore⟩
      obtain rfl := Except.ok.inj (hlocate.symm.trans hnames)
      exact ⟨_, hmem, foundPath?_eq_some_iff.2 ⟨content, more, rfl, hplace, hmore⟩⟩

/-- A file is found by one path only. -/
theorem Finds.path_unique {path' : String} {content' : ByteArray}
    (h : t.Finds directory path place content) (h' : t.Finds directory path' place content') :
    path = path' := by
  obtain ⟨-, names, more, hnames, hplace, -, -, rfl⟩ := h
  obtain ⟨-, names', more', hnames', hplace', -, -, rfl⟩ := h'
  obtain rfl := Except.ok.inj (hnames.symm.trans hnames')
  obtain rfl := List.append_cancel_left (hplace.symm.trans hplace')
  rfl

/-- The segments of the path that an entry is found by end in the names below the directory. -/
theorem WellFormed.segments_below (hw : t.WellFormed) (h : (names ++ more, node) ∈ t.entries)
    (hne : more ≠ []) : segments (ofSegments more) = more :=
  segments_ofSegments hne fun name hname => (hw.named _ h name (by simp [hname])).slash

/-- No file is found twice. -/
theorem WellFormed.nodup_filesBelow (hw : t.WellFormed) (directory : String) :
    (t.filesBelow directory).Nodup := by
  rw [filesBelow]
  cases t.locate directory with
  | error e => exact List.nodup_nil
  | ok names =>
    rw [List.Nodup, List.pairwise_filterMap]
    refine (List.pairwise_map.1 hw.nodup).imp_of_mem ?_
    rintro ⟨entry, node⟩ ⟨entry', node'⟩ hmem hmem' hother path hpath _ hpath' rfl
    obtain ⟨content, more, rfl, rfl, hne, -, rfl⟩ := foundPath?_eq_some_iff.1 hpath
    obtain ⟨content', more', rfl, rfl, hne', -, hsame⟩ := foundPath?_eq_some_iff.1 hpath'
    have hsegments := congrArg segments (join_inj hsame)
    rw [hw.segments_below hmem hne, hw.segments_below hmem' hne'] at hsegments
    exact hother (by rw [hsegments])

theorem textOfBytes_toUTF8 (text : String) : textOfBytes text.toUTF8 = .ok text := by
  have htext : String.fromUTF8? text.toUTF8 = some text := by
    unfold String.fromUTF8?
    exact dif_pos text.isValidUTF8
  simp only [textOfBytes, htext]

/-- The path that a file is found by leads to it, unless it is too long. -/
theorem Finds.locate_iff (hw : t.WellFormed) (h : t.Finds directory path place content) :
    t.locate path = .ok place ↔ path.utf8ByteSize < pathBytesLimit := by
  obtain ⟨hmem, names, more, hnames, rfl, hne, -, rfl⟩ := h
  obtain ⟨hcheck, hleads⟩ := locate_eq_ok_iff.1 hnames
  obtain ⟨hnull, hempty, -⟩ := checkPath_eq_ok_iff.1 hcheck
  obtain ⟨slash, hslash, -, hjoin⟩ := join_eq directory
  have hfollow : t.LeadsTo (join directory (ofSegments more)) (names ++ more) := by
    obtain ⟨front, hsegments, hfront⟩ := segments_join directory (ofSegments more)
    have hdirectory := hw.isDirectoryAt_of_mem hmem hne
    rw [LeadsTo, start, isAbsolute_join hempty, hsegments, hw.segments_below hmem hne,
      follow_append_eq_ok_iff]
    exact ⟨names, (leadsTo_iff_of_front hdirectory hfront).1 hleads, hw.follow_names hmem⟩
  have hnames : '\x00' ∉ (ofSegments more).toList :=
    Text.not_mem_intercalate (by decide) fun name hname =>
      (hw.named _ hmem name (by simp [hname])).null
  have hplain : '\x00' ∉ (join directory (ofSegments more)).toList := by
    rw [hjoin]
    rcases hslash with rfl | rfl <;> simp [String.toList_append, hnull, hnames]
  have hsome : join directory (ofSegments more) ≠ "" := by
    intro hnone
    have hchars := congrArg String.toList hnone
    rw [hjoin] at hchars
    simp [String.toList_append, hempty] at hchars
  rw [locate_eq_ok_iff, checkPath_eq_ok_iff]
  exact ⟨fun h => h.1.2.2, fun h => ⟨⟨hplain, hsome, h⟩, hfollow⟩⟩

/-- A file that is found is read, unless its path is too long. -/
theorem Finds.read_eq_ok_iff (hw : t.WellFormed) (h : t.Finds directory path place content)
    (htext : textOfBytes content = .ok text) :
    t.read path = .ok text ↔ path.utf8ByteSize < pathBytesLimit := by
  constructor
  · intro hread
    cases hlocate : t.locate path with
    | error e =>
      rw [FileTree.read, hlocate] at hread
      cases hread
    | ok other => exact (checkPath_eq_ok_iff.1 (locate_eq_ok_iff.1 hlocate).1).2.2
  · intro hshort
    rw [FileTree.read, (h.locate_iff hw).2 hshort]
    change t.textAt place = .ok text
    rw [textAt, hw.node?_of_mem h.mem]
    exact htext

end Finding

end Pictogram.FileTree
