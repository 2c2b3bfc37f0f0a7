import Mathlib.Data.List.Nodup
import Pictogram.Proofs.Command.Planning
import Pictogram.Proofs.Command.Running
import Pictogram.Proofs.Component.Returning
import Pictogram.Proofs.Conversion.Locating

/-!
What a batch reports and what it leaves behind. Every drawing has a job and every job a name of its
own, so that no component is written in another's place or in that of the index, and nothing but the
components of the jobs that succeed and their index is written at all.
-/

namespace Pictogram

open FileTree Command

section Outcome

variable {accepts : Dialect → String → Bool} {config : Config} {t t' : FileTree} {job : Job}
  {c : Conversion}

/-- What becomes of the markup that a source gives. -/
theorem Command.tryConvert_fst (optimizer : Optimizer) (options : Options) (source : MarkupSource)
    (w : Memory) :
    ((tryConvert optimizer options source : StateM Memory _) w).1 =
      Conversion.ofSource optimizer options source.label
        ((markup source : StateM Memory _) w).1 := by
  rw [tryConvert, bind_apply]
  generalize ((markup source : StateM Memory _) w).1 = text
  cases options.validate with
  | error e => rfl
  | ok =>
    cases text with
    | error e => rfl
    | ok text =>
      dsimp only
      cases (optimizer.apply text).2 <;> rfl

/-- What comes of a job is what the pipeline makes of its file, unless that is not taken. -/
theorem Job.outcome_eq (accepts : Dialect → String → Bool) (config : Config) (t : FileTree)
    (job : Job) :
    job.outcome accepts config t =
      match ((tryConvert config.optimizer (config.options job.name) (.external job.path) :
        StateM Memory _) { tree := t }).1 with
      | .error e => .error (.conversion e)
      | .ok c => if accepts c.dialect c.source then .ok c else .error .badSource := by
  rw [outcome, runJob, bind_apply]
  cases ((tryConvert config.optimizer (config.options job.name) (.external job.path) :
    StateM Memory _) { tree := t }).1 with
  | error e => rfl
  | ok c =>
    dsimp only
    split <;> rfl

theorem Job.outcome_eq_ok_iff :
    job.outcome accepts config t = .ok c ↔
      ((tryConvert config.optimizer (config.options job.name) (.external job.path) :
        StateM Memory _) { tree := t }).1 = .ok c ∧ accepts c.dialect c.source := by
  rw [outcome_eq]
  split
  next e heq => simp [heq]
  next made heq =>
    rw [heq, Except.ok.injEq]
    split
    next htaken =>
      rw [Except.ok.injEq]
      exact ⟨fun h => ⟨h, h ▸ htaken⟩, fun h => h.1⟩
    next hrefused =>
      constructor
      · intro h
        cases h
      · rintro ⟨rfl, htaken⟩
        exact absurd htaken hrefused

/-- A component has the name and the dialect that were asked for, and the name is accepted. -/
theorem Job.of_outcome_eq_ok (h : job.outcome accepts config t = .ok c) :
    (config.options job.name).validate = .ok () ∧ c.name = job.name ∧
      c.dialect = config.dialect := by
  obtain ⟨hconverted, -⟩ := outcome_eq_ok_iff.1 h
  rw [tryConvert_fst] at hconverted
  obtain ⟨_, hvalidate, hrest⟩ := bind_eq_ok_iff.1 hconverted
  obtain ⟨text, -, hmade⟩ := bind_eq_ok_iff.1 hrest
  refine ⟨mapError_eq_ok_iff.1 hvalidate, ?_⟩
  have hmarkup := mapError_eq_ok_iff.1 hmade
  simp only [Conversion.ofMarkup] at hmarkup
  cases hparse : Element.parse (config.optimizer.apply text).1 with
  | error e => simp [hparse, Except.map] at hmarkup
  | ok root =>
    simp only [hparse, Except.map, Except.ok.injEq] at hmarkup
    subst hmarkup
    exact ⟨rfl, rfl⟩

/-- What comes of a job does not depend on the contents of any file but the one that its path is
taken to name. -/
theorem Job.outcome_congr (h : SameShape t t')
    (hnode : ∀ path place, MarkupSource.localPath? job.path = some path →
      t.locate path = .ok place → t'.node? place = t.node? place) :
    job.outcome accepts config t' = job.outcome accepts config t := by
  have hmarkup : ((markup (.external job.path) : StateM Memory _) { tree := t' }).1 =
      ((markup (.external job.path) : StateM Memory _) { tree := t }).1 := by
    rw [markup_external, markup_external]
    cases hpath : MarkupSource.localPath? job.path with
    | none => rfl
    | some path =>
      have hread := h.read path fun place => hnode path place hpath
      simp only [hread]
  rw [outcome_eq, outcome_eq, tryConvert_fst, tryConvert_fst, hmarkup]

end Outcome

section Names

variable {dialect : Dialect} {name name' path : String}

theorem componentFile_injective (dialect : Dialect) :
    Function.Injective dialect.componentFile := by
  intro name name' h
  rw [Dialect.componentFile, Dialect.componentFile, String.append_left_inj,
    String.append_left_inj] at h
  exact h

theorem getLast?_componentFile (dialect : Dialect) (name : String) :
    (dialect.componentFile name).toList.getLast? = some 'x' := by
  cases dialect <;> simp [Dialect.componentFile, Dialect.componentExtension, String.toList_append]

theorem getLast?_indexFile (dialect : Dialect) :
    dialect.indexFile.toList.getLast? = some 's' := by
  cases dialect <;> decide

theorem componentFile_ne_indexFile (dialect : Dialect) (name : String) :
    dialect.componentFile name ≠ dialect.indexFile := by
  intro h
  have hlast := getLast?_componentFile dialect name
  rw [h, getLast?_indexFile] at hlast
  cases hlast

/-- The name of a drawing's file ends as the extension of drawings does. -/
theorem getLast?_of_isDrawing (h : Path.isDrawing path) :
    ∃ name c, Path.fileName? path = some name ∧ name.toList.getLast? = some c ∧
      c.toLower = 'g' := by
  rw [Path.isDrawing] at h
  split at h
  next extension hextension =>
    obtain ⟨name, hname, hsplit⟩ := Option.bind_eq_some_iff.1 hextension
    have hchars : extension.toList.map Char.toLower = ['s', 'v', 'g'] := by
      simpa [Text.equalsIgnoringCase] using h
    have hreversed : extension.toList =
        (name.toList.reverse.takeWhile (· != '.')).reverse := by
      simp only [Path.splitExtension] at hsplit
      split at hsplit
      · cases hsplit
      · cases hsplit
      · rw [← Option.some.inj hsplit, String.toList_ofList]
    obtain ⟨c, tail, htail⟩ : ∃ c tail, name.toList.reverse.takeWhile (· != '.') = c :: tail := by
      apply List.exists_cons_of_ne_nil
      intro hnil
      rw [hreversed, hnil] at hchars
      cases hchars
    refine ⟨name, c, hname, ?_, ?_⟩
    · have hprefix := List.takeWhile_prefix (l := name.toList.reverse) (· != '.')
      rw [htail] at hprefix
      obtain ⟨rest, hrest⟩ := hprefix
      rw [← List.head?_reverse, ← hrest]
      rfl
    · rw [hreversed, htail] at hchars
      have hlast := congrArg List.getLast? hchars
      simpa using hlast
  next => cases h

/-- The name at the end of the path that a file is found by is the name that its place ends in. -/
theorem FileTree.Finds.exists_fileName {t : FileTree} {directory : String} {place : List String}
    {content : ByteArray} (hw : t.WellFormed) (h : t.Finds directory path place content) :
    ∃ above name, place = above ++ [name] ∧ Path.fileName? path = some name := by
  obtain ⟨hmem, names, more, -, rfl, hne, -, rfl⟩ := h
  obtain ⟨front, hsegments, -⟩ := Path.segments_join directory (Path.ofSegments more)
  rw [hw.segments_below hmem hne] at hsegments
  obtain ⟨init, last, hmore⟩ := (List.eq_nil_or_concat more).resolve_left hne
  rw [List.concat_eq_append] at hmore
  subst hmore
  have hlast : Path.IsName last := hw.named _ hmem last (by simp)
  refine ⟨names ++ init, last, by simp, ?_⟩
  have hidle : ¬ Path.isIdle last := by simp [Path.isIdle, hlast.ne_empty, hlast.ne_here]
  rw [Path.fileName?, hsegments, List.reverse_append, List.reverse_append, List.reverse_singleton,
    List.singleton_append, List.cons_append, List.dropWhile_cons_of_neg hidle]
  simp only [if_neg hlast.ne_up]

/-- The place of a drawing is not that of a file whose name ends in another letter. -/
theorem FileTree.Finds.ne_append_of_getLast? {t : FileTree} {directory file : String}
    {found : List String} {content : ByteArray} {c : Char} (hw : t.WellFormed)
    (hpath : Path.isDrawing path) (h : t.Finds directory path found content)
    (hlast : file.toList.getLast? = some c) (hc : c.toLower ≠ 'g') (place : List String) :
    found ≠ place ++ [file] := by
  rintro rfl
  obtain ⟨above, name, hfound, hname⟩ := h.exists_fileName hw
  obtain ⟨name', c', hname', hlast', hlower⟩ := getLast?_of_isDrawing hpath
  obtain rfl := Option.some.inj (hname.symm.trans hname')
  obtain rfl : file = name := by simpa using congrArg List.getLast? hfound
  obtain rfl := Option.some.inj (hlast.symm.trans hlast')
  exact hc hlower

end Names

section Files

variable {accepts : Dialect → String → Bool} {config : Config} {request : BatchRequest}
  {t : FileTree} {name : String}

theorem mem_conversions_iff {c : Conversion} :
    c ∈ conversions (request.results accepts config t) ↔
      ∃ job ∈ request.jobs t, job.outcome accepts config t = .ok c := by
  have hok : ∀ result : Except JobError Conversion, result.toOption = some c ↔ result = .ok c := by
    intro result
    cases result <;> simp [Except.toOption]
  simp [conversions, BatchRequest.results, List.mem_filterMap, hok]

/-- The components have the names of the jobs that succeed. -/
theorem map_name_conversions :
    (conversions (request.results accepts config t)).map (·.name) =
      ((request.jobs t).filter fun job => (job.outcome accepts config t).isOk).map (·.name) := by
  rw [BatchRequest.results]
  induction request.jobs t with
  | nil => rfl
  | cons job jobs ih =>
    rw [List.map_cons]
    cases houtcome : job.outcome accepts config t with
    | error e =>
      rw [conversions_cons_error, ih, List.filter_cons_of_neg (by simp [houtcome, Except.isOk,
        Except.toBool])]
    | ok c =>
      rw [conversions_cons_ok, List.map_cons, ih, List.filter_cons_of_pos (by simp [houtcome,
        Except.isOk, Except.toBool]), List.map_cons, (Job.of_outcome_eq_ok houtcome).2.1]

/-- The names of the files that a batch writes. -/
theorem map_fst_files :
    (files config request (request.results accepts config t)).map (·.1) =
      (((request.jobs t).filter fun job => (job.outcome accepts config t).isOk).map (·.name)).map
        config.dialect.componentFile ++
      if request.indexes config then [config.dialect.indexFile] else [] := by
  have hcomponents : ((conversions (request.results accepts config t)).map (·.file)).map (·.1) =
      ((conversions (request.results accepts config t)).map (·.name)).map
        config.dialect.componentFile := by
    rw [List.map_map, List.map_map]
    apply List.map_congr_left
    intro c hc
    obtain ⟨job, -, houtcome⟩ := mem_conversions_iff.1 hc
    simp only [Function.comp_apply, Conversion.file, (Job.of_outcome_eq_ok houtcome).2.2]
  rw [files, List.map_append, hcomponents, map_name_conversions]
  split <;> rfl

theorem mem_map_fst_files_iff :
    name ∈ (files config request (request.results accepts config t)).map (·.1) ↔
      (∃ job ∈ request.jobs t, (job.outcome accepts config t).isOk ∧
        name = config.dialect.componentFile job.name) ∨
      (request.indexes config ∧ name = config.dialect.indexFile) := by
  have hindex : name ∈ (if request.indexes config then [config.dialect.indexFile] else []) ↔
      request.indexes config ∧ name = config.dialect.indexFile := by
    split <;> simp [*]
  have hcomponent : name ∈ (((request.jobs t).filter fun job =>
      (job.outcome accepts config t).isOk).map (·.name)).map config.dialect.componentFile ↔
      ∃ job ∈ request.jobs t, (job.outcome accepts config t).isOk ∧
        name = config.dialect.componentFile job.name := by
    rw [List.map_map, List.mem_map]
    constructor
    · rintro ⟨job, hjob, rfl⟩
      exact ⟨job, (List.mem_filter.1 hjob).1, (List.mem_filter.1 hjob).2, rfl⟩
    · rintro ⟨job, hjob, hok, rfl⟩
      exact ⟨job, List.mem_filter.2 ⟨hjob, hok⟩, rfl⟩
  rw [map_fst_files, List.mem_append, hindex, hcomponent]

theorem nodup_map_fst_files :
    ((files config request (request.results accepts config t)).map (·.1)).Nodup := by
  have hnames : (((request.jobs t).filter
      fun job => (job.outcome accepts config t).isOk).map (·.name)).Nodup :=
    (Job.nodup_name_plan _).sublist (List.filter_sublist.map _)
  rw [map_fst_files]
  refine List.nodup_append.2 ⟨hnames.map (componentFile_injective _), ?_, ?_⟩
  · split <;> simp
  · rintro file hfile other hother rfl
    obtain ⟨name, -, rfl⟩ := List.mem_map.1 hfile
    split at hother
    · exact componentFile_ne_indexFile _ _ (List.mem_singleton.1 hother)
    · cases hother

/-- No name of a file that a batch writes is empty or has a slash. -/
theorem plain_of_mem_files {file : String × String}
    (h : file ∈ files config request (request.results accepts config t)) :
    '/' ∉ file.1.toList ∧ file.1 ≠ "" := by
  rcases mem_map_fst_files_iff.1 (List.mem_map_of_mem h) with ⟨job, -, hok, hfile⟩ | ⟨-, hfile⟩
  · obtain ⟨c, houtcome⟩ : ∃ c, job.outcome accepts config t = .ok c := by
      cases houtcome : job.outcome accepts config t with
      | error e =>
        rw [houtcome] at hok
        cases hok
      | ok c => exact ⟨c, rfl⟩
    obtain ⟨-, hparts⟩ := Options.isPart_of_validate (Job.of_outcome_eq_ok houtcome).1
    have hname : '/' ∉ job.name.toList := fun hmem => by cases hparts _ hmem
    rw [hfile]
    constructor
    · rw [Dialect.componentFile, String.toList_append, String.toList_append, List.mem_append,
        List.mem_append, not_or, not_or]
      refine ⟨⟨hname, by decide⟩, ?_⟩
      cases config.dialect <;> decide
    · intro hempty
      have hlast := getLast?_componentFile config.dialect job.name
      rw [hempty] at hlast
      cases hlast
  · rw [hfile]
    cases config.dialect <;> decide

end Files

/-- What holds of the jobs of a batch before any of them is done. -/
structure BatchRequest.Planned (accepts : Dialect → String → Bool) (config : Config)
    (request : BatchRequest) (t : FileTree) : Prop where
  /-- Every drawing that is found has a job, in the order of the paths. -/
  paths : (request.jobs t).map (·.path) = Path.drawings (t.filesBelow request.directory)
  /-- No file belongs to two jobs. -/
  own : (request.jobs t).Pairwise fun job other => ∀ place content content',
    t.Finds request.directory job.path place content →
    ¬ t.Finds request.directory other.path place content'
  /-- No two jobs have one file for their components, and none has that of the index. -/
  nodup : ((request.jobs t).map (config.dialect.componentFile ·.name)).Nodup
  apart : ∀ job ∈ request.jobs t,
    config.dialect.componentFile job.name ≠ config.dialect.indexFile
  /-- What comes of a job depends on the content of the one file that its path is taken to name. -/
  alone : ∀ job ∈ request.jobs t, ∀ t', SameShape t t' →
    (∀ path place, MarkupSource.localPath? job.path = some path → t.locate path = .ok place →
      t'.node? place = t.node? place) →
    job.outcome accepts config t' = job.outcome accepts config t

/-- What a report says of a batch, and what the batch has left behind at the place that it writes
to. -/
structure BatchReport.Tells (accepts : Dialect → String → Bool) (config : Config)
    (request : BatchRequest) (before after : FileTree) (place : List String)
    (report : BatchReport) : Prop extends BatchRequest.Planned accepts config request before where
  /-- Every drawing that is found counts once. -/
  counted : report.converted.length + report.failed =
    (Path.drawings (before.filesBelow request.directory)).length
  /-- The components are those of the jobs that succeed by themselves, in the order of the jobs. -/
  converted : report.converted =
    ((request.jobs before).filter fun job => (job.outcome accepts config before).isOk).map (·.name)
  once : report.converted.Nodup
  leads : report.converted ≠ [] → after.LeadsTo (request.output config) place
  /-- A job that succeeds has left the component that the pipeline makes of its file. -/
  written : ∀ job ∈ request.jobs before, ∀ c,
    ((tryConvert config.optimizer (config.options job.name) (.external job.path) :
      StateM Memory _) { tree := before }).1 = .ok c → accepts c.dialect c.source →
    after.node? (place ++ [config.dialect.componentFile job.name]) = some (.file c.source.toUTF8)
  /-- The index has a line for every component, in the order of their names. -/
  index : request.indexes config → report.converted ≠ [] →
    ∃ names : List String, names.Perm report.converted ∧ names.Pairwise (· < ·) ∧
      after.node? (place ++ [config.dialect.indexFile]) =
        some (.file (String.join (names.map exportLine)).toUTF8)
  /-- Nothing else is written, and nothing is taken away. -/
  kept : ∀ names,
    (∀ job ∈ request.jobs before, (job.outcome accepts config before).isOk →
      names ≠ place ++ [config.dialect.componentFile job.name]) →
    (request.indexes config → report.converted ≠ [] →
      names ≠ place ++ [config.dialect.indexFile]) →
    Kept before after names
  /-- The drawings stay as they are. -/
  drawings : ∀ path found content, Path.isDrawing path →
    before.Finds request.directory path found content → after.node? found = some (.file content)
  /-- Where a job fails, the file of its component stays as it is. -/
  failed : ∀ job ∈ request.jobs before, (job.outcome accepts config before).isOk = false →
    Kept before after (place ++ [config.dialect.componentFile job.name])

section Writing

variable {accepts : Dialect → String → Bool} {config : Config} {request : BatchRequest}
  {t t' : FileTree} {w w' : Memory} {report : BatchReport}

/-- The names in an index come in strict order, as no two of them are the same. -/
theorem pairwise_mergeSort {names : List String} (h : names.Nodup) :
    (names.mergeSort (· ≤ ·)).Pairwise (· < ·) := by
  have hsorted : (names.mergeSort (· ≤ ·)).Pairwise fun a b => decide (a ≤ b) = true :=
    List.pairwise_mergeSort (fun a b c hab hbc => by
        simp only [decide_eq_true_eq] at *
        exact String.le_trans hab hbc)
      (fun a b => by simpa using String.le_total a b) names
  have hnodup : (names.mergeSort (· ≤ ·)).Nodup := (List.mergeSort_perm _ _).nodup_iff.2 h
  refine List.Pairwise.imp₂ (fun a b hle hne => ?_) hsorted hnodup
  exact Std.lt_of_le_of_ne (of_decide_eq_true hle) hne

theorem nodup_drawings (hw : t.WellFormed) (directory : String) :
    (Path.drawings (t.filesBelow directory)).Nodup :=
  (List.mergeSort_perm _ _).nodup_iff.2 ((hw.nodup_filesBelow directory).filter _)

theorem BatchRequest.planned (hw : t.WellFormed) : request.Planned accepts config t where
  paths := Job.map_path_plan _
  own := by
    have hpaths : ((request.jobs t).map (·.path)).Nodup := by
      rw [BatchRequest.jobs, Job.map_path_plan]
      exact nodup_drawings hw request.directory
    refine (List.pairwise_map.1 hpaths).imp fun hne place content content' h h' => ?_
    exact hne (h.path_unique h')
  nodup := by
    have hnames : ((request.jobs t).map (·.name)).Nodup := Job.nodup_name_plan _
    have hfiles := hnames.map (componentFile_injective config.dialect)
    rwa [List.map_map] at hfiles
  apart job _ := componentFile_ne_indexFile config.dialect job.name
  alone job _ _ hshape hnode := Job.outcome_congr hshape hnode

/-- What a batch has done with the files that it writes, as far as its run tells. -/
structure BatchReport.Writes (accepts : Dialect → String → Bool) (config : Config)
    (request : BatchRequest) (t t' : FileTree) (place : List String) (report : BatchReport) :
    Prop where
  converted : report.converted = (conversions (request.results accepts config t)).map (·.name)
  counted : report.converted.length + report.failed = (request.jobs t).length
  leads : report.converted ≠ [] → t'.LeadsTo (request.output config) place
  stand : report.converted ≠ [] →
    ∀ file ∈ files config request (request.results accepts config t),
      t'.node? (place ++ [file.1]) = some (.file file.2.toUTF8)
  kept : ∀ names, (report.converted ≠ [] →
    ∀ file ∈ files config request (request.results accepts config t),
      names ≠ place ++ [file.1]) → Kept t t' names

/-- A batch that does not fail has written its files, one that has found nothing none. -/
theorem exists_writes (h : runIn (batchWith accepts config request) w = (.ok report, w')) :
    ∃ place, report.Writes accepts config request w.tree w'.tree place := by
  rcases runIn_batchWith h with
    ⟨hnone, rfl, htree⟩ | ⟨t, hmade, hfiles, hconverted, hcounted, hsome⟩
  · refine ⟨[], ?_, ?_, absurd rfl, absurd rfl, fun names _ => .inl (by rw [htree])⟩
    · rw [BatchRequest.results, hnone]
      rfl
    · rw [hnone]
      rfl
  · have hplain : ∀ file ∈ files config request (request.results accepts config w.tree),
        '/' ∉ file.1.toList ∧ file.1 ≠ "" := fun _ => plain_of_mem_files
    have hany : files config request (request.results accepts config w.tree) ≠ [] := by
      intro hnil
      have hempty := (List.append_eq_nil_iff.1 hnil).1
      rw [List.map_eq_nil_iff] at hempty
      rw [hconverted, hempty] at hsome
      exact hsome rfl
    obtain ⟨place, hplace⟩ := exists_leadsTo_of_writeAll hany hplain hfiles
    obtain ⟨hchanges, hstand⟩ := writeAll_eq_ok hplain nodup_map_fst_files hplace hfiles
    refine ⟨place, hconverted, hcounted, fun _ => hchanges.grows.leadsTo hplace, fun _ => hstand,
      fun names hnames => ((changes_makeDirectories hmade).trans hchanges).kept names ?_⟩
    intro hmem
    obtain ⟨file, hfile, rfl⟩ := List.mem_map.1 hmem
    exact hnames hsome file hfile rfl

namespace BatchReport.Writes

variable {place : List String} {job : Job} (h : report.Writes accepts config request t t' place)
include h

theorem nodup_converted : report.converted.Nodup := by
  rw [h.converted, map_name_conversions]
  exact (Job.nodup_name_plan _).sublist (List.filter_sublist.map _)

/-- The component of a job that succeeds stands in the job's own file. -/
theorem node?_componentFile {c : Conversion} (hjob : job ∈ request.jobs t)
    (houtcome : job.outcome accepts config t = .ok c) :
    t'.node? (place ++ [config.dialect.componentFile job.name]) =
      some (.file c.source.toUTF8) := by
  have hmem := mem_conversions_iff.2 ⟨job, hjob, houtcome⟩
  have hsome : report.converted ≠ [] := by
    rw [h.converted]
    exact List.ne_nil_of_mem (List.mem_map_of_mem hmem)
  have hfile := h.stand hsome c.file (List.mem_append_left _ (List.mem_map_of_mem hmem))
  obtain ⟨-, hname, hdialect⟩ := Job.of_outcome_eq_ok houtcome
  rwa [Conversion.file, hname, hdialect] at hfile

theorem node?_indexFile (hindexes : request.indexes config) (hsome : report.converted ≠ []) :
    t'.node? (place ++ [config.dialect.indexFile]) =
      some (.file (indexModule report.converted).toUTF8) := by
  rw [h.converted]
  refine h.stand hsome (config.dialect.indexFile, _) (List.mem_append_right _ ?_)
  rw [if_pos hindexes]
  exact .head _

/-- A place is kept unless it is that of a component or of the index. -/
theorem kept_of_ne {names : List String}
    (hcomponent : ∀ job ∈ request.jobs t, (job.outcome accepts config t).isOk →
      names ≠ place ++ [config.dialect.componentFile job.name])
    (hindex : request.indexes config → report.converted ≠ [] →
      names ≠ place ++ [config.dialect.indexFile]) : Kept t t' names := by
  refine h.kept names fun hsome file hfile => ?_
  rcases mem_map_fst_files_iff.1 (List.mem_map_of_mem hfile) with
    ⟨job, hjob, hok, hname⟩ | ⟨hindexes, hname⟩
  · exact hname ▸ hcomponent job hjob hok
  · exact hname ▸ hindex hindexes hsome

/-- The file of a job that fails is that of no other job. -/
theorem kept_of_failed (hw : t.WellFormed) (hjob : job ∈ request.jobs t)
    (hfailed : (job.outcome accepts config t).isOk = false) :
    Kept t t' (place ++ [config.dialect.componentFile job.name]) := by
  have hplanned : request.Planned accepts config t := request.planned hw
  refine h.kept_of_ne (fun other hother hok hsame => ?_) fun _ _ hsame => ?_
  · have hfile : config.dialect.componentFile job.name =
        config.dialect.componentFile other.name := by simpa using hsame
    obtain rfl := List.inj_on_of_nodup_map hplanned.nodup hjob hother hfile
    rw [hfailed] at hok
    cases hok
  · exact hplanned.apart job hjob (by simpa using hsame)

theorem node?_of_isDrawing {directory path : String} {found : List String} {content : ByteArray}
    (hw : t.WellFormed) (hpath : Path.isDrawing path)
    (hfinds : t.Finds directory path found content) : t'.node? found = some (.file content) := by
  have hcomponent : ∀ name, found ≠ place ++ [config.dialect.componentFile name] := fun name =>
    hfinds.ne_append_of_getLast? hw hpath (getLast?_componentFile _ _) (by decide) place
  have hindex : found ≠ place ++ [config.dialect.indexFile] :=
    hfinds.ne_append_of_getLast? hw hpath (getLast?_indexFile _) (by decide) place
  have hkept : Kept t t' found :=
    h.kept_of_ne (fun job _ _ => hcomponent job.name) fun _ _ => hindex
  exact hkept.node?_eq_some (hw.node?_of_mem hfinds.mem)

end BatchReport.Writes

/-- A workspace with two drawings in the directory that is written to unless another one is chosen;
the first does not end. -/
def drawer : Memory where
  tree.entries := [(["icons"], .directory), (["icons", "torn.svg"], .file "<svg>".toUTF8),
    (["icons", "home.svg"], .file "<svg/>".toUTF8)]

theorem jobs_drawer :
    (⟨"icons", none, false, false⟩ : BatchRequest).jobs drawer.tree =
      [⟨"icons/home.svg", "Home"⟩, ⟨"icons/torn.svg", "Torn"⟩] := by
  have hfound : (drawer.tree.filesBelow "icons").filter Path.isDrawing =
      ["icons/torn.svg", "icons/home.svg"] := by decide +kernel
  have hsorted : ["icons/torn.svg", "icons/home.svg"].mergeSort Path.le =
      ["icons/home.svg", "icons/torn.svg"] := by
    have hle : Path.le "icons/torn.svg" "icons/home.svg" = false := by decide +kernel
    simp [List.mergeSort, List.MergeSort.Internal.splitInTwo, hle]
  rw [BatchRequest.jobs, Path.drawings, hfound, hsorted]
  decide +kernel

end Writing

end Pictogram
